import Braceline.Proofs.Lexemes
import Braceline.Proofs.Loading

/-!
# What a settings file means

A settings file names some of the settings, in any order, and gives each a value. What it means are
the settings that hold those values, and are otherwise as by default, however the file is written;
an array of the first values means what the object means that names them. A name that is unknown or
that has been given already makes the file useless, whatever stands beside it.

* `made_foldl`, `Made.unique`: the settings that entries make.
* `readValue_entry`, `readMembers_entries`, `readValues_entries`: what is read of entries, by
  induction on them.
* `rest_readValue`: whatever is read as a value, no more than one value is taken.
* `names_readMembers`: an object that is read names settings, and each of them once, by induction on
  its members.
* `exists_spelled`, `settings_spelled`: settings files.
-/

namespace Braceline.Settings

open Json (Lexeme IsValue Token arrayOf objectOf following hear)

/-- **A setting with its value.** A width fits a machine word. -/
inductive Entry where
  | interpreter (command : String)
  | indentWidth (width : Nat) (h : width ≤ Json.Number.maxSignificand)
  | delimiter (d : Option String)
  | imports (modules : List String)
  | wildcards (modules : List String)

namespace Entry

/-- The setting that an entry is for. -/
def field : Entry → Field
  | interpreter _ => .interpreter
  | indentWidth _ _ => .indentWidth
  | delimiter _ => .delimiter
  | imports _ => .imports
  | wildcards _ => .wildcards

/-- The lexemes of its value. -/
def value : Entry → List Lexeme
  | interpreter command => [.string command]
  | indentWidth width _ => [.number (Nat.toDigits 10 width)]
  | delimiter none => [.null]
  | delimiter (some d) => [.string d]
  | imports modules => arrayOf (modules.map fun m => [.string m])
  | wildcards modules => arrayOf (modules.map fun m => [.string m])

/-- Its name and its value, as an object has them. -/
def member (e : Entry) : String × List Lexeme := (e.field.key, e.value)

/-- Do the settings hold what the entry says? -/
def HeldBy (e : Entry) (s : Settings) : Prop :=
  match e with
  | interpreter command => s.interpreter = command
  | indentWidth width _ => s.indentWidth = width
  | delimiter d => s.delimiter = d
  | imports modules => s.imports = modules
  | wildcards modules => s.wildcards = modules

/-- Settings with the entry put in. -/
def put (s : Settings) : Entry → Settings
  | interpreter command => { s with interpreter := command }
  | indentWidth width _ => { s with indentWidth := width }
  | delimiter d => { s with delimiter := d }
  | imports modules => { s with imports := modules }
  | wildcards modules => { s with wildcards := modules }

end Entry

/-- Are two settings alike in a field? -/
def Field.Agrees (f : Field) (s t : Settings) : Prop :=
  match f with
  | interpreter => s.interpreter = t.interpreter
  | indentWidth => s.indentWidth = t.indentWidth
  | delimiter => s.delimiter = t.delimiter
  | imports => s.imports = t.imports
  | wildcards => s.wildcards = t.wildcards

/-- **The settings that entries make:** they hold what the entries say, and what these leave out is
as by default. -/
structure Made (es : List Entry) (s : Settings) : Prop where
  given : ∀ e ∈ es, e.HeldBy s
  default : ∀ f, f ∉ es.map Entry.field → f.Agrees s Settings.default

/-- The file at `path` is a text with the given lexemes, however it is written. -/
def Spelled (files : Files) (path : String) (ls : List Lexeme) : Prop :=
  ∃ text, Reads files path (.ok text) ∧ Json.Spells ls text.toList

variable {files : Files} {path : String} {s s' t : Settings} {f : Field} {e : Entry}
  {es es' : List Entry} {v ls : List Lexeme} {vs : List (List Lexeme)} {missing fields : List Field}
  {ms : List (String × List Lexeme)} {ts : List Token} {key : String}

/-! ### The settings that entries make -/

theorem agrees_refl (f : Field) (s : Settings) : f.Agrees s s := by
  cases f <;> rfl

theorem agrees_put (h : f ≠ e.field) (s : Settings) : f.Agrees (e.put s) s := by
  cases e <;> cases f <;> first
    | rfl
    | exact absurd rfl h

theorem heldBy_put (e : Entry) (s : Settings) : e.HeldBy (e.put s) := by
  cases e <;> rfl

theorem Field.Agrees.trans {u : Settings} (h : f.Agrees s t) (h' : f.Agrees t u) :
    f.Agrees s u := by
  cases f <;> exact Eq.trans h h'

theorem Field.Agrees.symm (h : f.Agrees s t) : f.Agrees t s := by
  cases f <;> exact Eq.symm h

/-- What an entry says is a matter of its field. -/
theorem Entry.HeldBy.congr (h : e.HeldBy t) (ha : e.field.Agrees s t) : e.HeldBy s := by
  cases e <;> exact Eq.trans ha h

theorem Entry.HeldBy.agrees (h : e.HeldBy s) (h' : e.HeldBy t) : e.field.Agrees s t := by
  cases e <;> exact Eq.trans h (Eq.symm h')

/-- Entries leave the fields alone that they are not for. -/
theorem agrees_foldl (h : f ∉ es.map Entry.field) (s : Settings) :
    f.Agrees (es.foldl Entry.put s) s := by
  induction es generalizing s with
  | nil => exact agrees_refl f s
  | cons e es ih =>
    rw [List.map_cons, List.mem_cons, not_or] at h
    exact (ih h.2 (e.put s)).trans (agrees_put h.1 s)

/-- **Entries for different fields make settings.** -/
theorem made_foldl (h : (es.map Entry.field).Nodup) :
    Made es (es.foldl Entry.put Settings.default) where
  default _ hf := agrees_foldl hf _
  given := by
    generalize Settings.default = s
    -- what an entry says stays, since those after it are for other fields
    induction es generalizing s with
    | nil => exact fun e he => by cases he
    | cons e es ih =>
      rw [List.map_cons, List.nodup_cons] at h
      intro e' he'
      rcases List.mem_cons.1 he' with rfl | he'
      · exact (heldBy_put e' s).congr (agrees_foldl h.1 _)
      · exact ih h.2 (e.put s) e' he'

/-- The order of the entries does not matter. -/
theorem Made.perm (h : Made es' s) (hperm : es'.Perm es) : Made es s where
  given e he := h.given e (hperm.mem_iff.2 he)
  default f hf := h.default f fun hmem => hf ((hperm.map _).mem_iff.1 hmem)

/-- They make no other settings. -/
theorem Made.unique (h : Made es s) (h' : Made es t) : s = t := by
  have hagrees (f : Field) : f.Agrees s t := by
    by_cases hf : f ∈ es.map Entry.field
    · obtain ⟨e, he, rfl⟩ := List.mem_map.1 hf
      exact (h.given e he).agrees (h'.given e he)
    · exact (h.default f hf).trans (h'.default f hf).symm
  -- there is nothing else to settings but these five
  have hinterpreter := hagrees .interpreter
  have hwidth := hagrees .indentWidth
  have hdelimiter := hagrees .delimiter
  have himports := hagrees .imports
  have hwildcards := hagrees .wildcards
  cases s
  cases t
  simp only [Field.Agrees] at hinterpreter hwidth hdelimiter himports hwildcards
  rw [hinterpreter, hwidth, hdelimiter, himports, hwildcards]

/-! ### Entries are read -/

theorem readMore_texts (texts : List String) (ls : List Lexeme) :
    readMore (hear ((texts.map fun m => [Lexeme.string m]).flatMap (.comma :: ·) ++
      .endArray :: ls)) = .ok (texts, hear ls) := by
  induction texts with
  | nil => rfl
  | cons m texts ih =>
    simp only [List.map_cons, List.flatMap_cons, List.cons_append, List.nil_append, Json.hear_comma,
      Json.hear_string, readMore, ih]
    rfl

/-- The first text of a list is read as if a comma stood before it. -/
theorem readList_eq_readMore {t : Token} (h : t ≠ .endArray) (ts : List Token) :
    readList (.beginArray :: t :: ts) = readMore (.comma :: t :: ts) := by
  cases t <;> first
    | rfl
    | exact absurd rfl h

/-- A list of texts is read. -/
theorem readList_texts (texts : List String) (ls : List Lexeme) :
    readList (hear (arrayOf (texts.map fun m => [Lexeme.string m]) ++ ls)) =
      .ok (texts, hear ls) := by
  cases texts with
  | nil => rfl
  | cons m texts =>
    have hmore := readMore_texts (m :: texts) ls
    simp only [List.map_cons, List.flatMap_cons, List.cons_append, List.nil_append, Json.hear_comma,
      Json.hear_string] at hmore
    simp only [List.map_cons, Json.arrayOf_cons, List.cons_append, List.nil_append,
      List.append_assoc, Json.hear_beginArray, Json.hear_string]
    rw [readList_eq_readMore (by nofun), hmore]

theorem hear_width {width : Nat} (h : width ≤ Json.Number.maxSignificand) (ls : List Lexeme) :
    hear (.number (Nat.toDigits 10 width) :: ls) = .number (.natural width) :: hear ls := by
  have hread : Json.Number.read (Nat.toDigits 10 width) = .ok (.natural width, []) := by
    have hends : ∀ c ∈ ([] : List Char).head?, Json.goesOn c = false := fun c hc => by cases hc
    have := Json.Number.read_toDigits h hends
    rwa [List.append_nil] at this
  rw [hear, Lexeme.token, hread]

/-- **The value of an entry is read**, and put in. -/
theorem readValue_entry (e : Entry) (s : Settings) (ls : List Lexeme) :
    readValue s e.field (hear (e.value ++ ls)) = .ok (e.put s, hear ls) := by
  cases e with
  | interpreter command => rfl
  | indentWidth width h =>
    rw [Entry.value, List.singleton_append, hear_width h]
    rfl
  | delimiter d => cases d <;> rfl
  | imports modules =>
    rw [Entry.value, Entry.field, readValue, readList_texts]
    rfl
  | wildcards modules =>
    rw [Entry.value, Entry.field, readValue, readList_texts]
    rfl

/-- Members that follow one another are read on at the next name. -/
theorem readNextKey_following (m : String × List Lexeme) (ms : List (String × List Lexeme))
    (ls : List Lexeme) :
    readNextKey (hear (following (m :: ms) ++ ls)) =
      .ok (some m.1, hear (.colon :: (m.2 ++ (following ms ++ ls)))) := by
  rw [following, List.flatMap_cons, List.append_assoc]
  rfl

/-- **One member** that is an entry is put in, and what follows it is read on. -/
theorem readMembers_entry {next : Option String} (h : e.field ∈ missing) (s : Settings)
    (hnext : readNextKey (hear ls) = .ok (next, ts)) :
    readMembers missing s e.field.key (hear (.colon :: (e.value ++ ls))) =
      next.elim (.ok (e.put s, ts)) (readMembers (missing.erase e.field) (e.put s) · ts) := by
  rw [readMembers, Field.ofKey?_key]
  simp only [dif_pos h, Json.hear_colon, readValue_entry, hnext]
  cases next <;> rfl

/-- **The members of an object** that are entries for different settings are read one by one. -/
theorem readMembers_entries (hnodup : ((e :: es).map Entry.field).Nodup)
    (hmissing : ∀ e' ∈ e :: es, e'.field ∈ missing) (s : Settings) (ls : List Lexeme) :
    readMembers missing s e.field.key
        (hear (.colon :: (e.value ++ (following (es.map Entry.member) ++ .endObject :: ls)))) =
      .ok ((e :: es).foldl Entry.put s, hear ls) := by
  have hmem := hmissing e List.mem_cons_self
  induction es generalizing e missing s with
  | nil =>
    have hend : readNextKey (hear (following [] ++ .endObject :: ls)) = .ok (none, hear ls) := rfl
    exact readMembers_entry hmem s hend
  | cons e' es ih =>
    rw [List.map_cons, List.nodup_cons] at hnodup
    -- what is still missing are the fields of the entries that follow
    have herase : ∀ e'' ∈ e' :: es, e''.field ∈ missing.erase e.field := fun e'' he'' =>
      (List.mem_erase_of_ne fun h => hnodup.1 (List.mem_map.2 ⟨e'', he'', h⟩)).2
        (hmissing e'' (List.mem_cons_of_mem e he''))
    have hrest := ih hnodup.2 herase (e.put s) (herase e' List.mem_cons_self)
    exact (readMembers_entry hmem s (readNextKey_following e'.member _ _)).trans hrest

theorem Field.mem_all (f : Field) : f ∈ Field.all := by
  cases f <;> decide

/-- **An object of entries** for different settings is read as the settings that they make. -/
theorem readSettings_object (h : (es.map Entry.field).Nodup) :
    readSettings (hear (objectOf (es.map Entry.member))) =
      .ok (es.foldl Entry.put Settings.default, []) := by
  cases es with
  | nil => rfl
  | cons e es =>
    have hmembers := readMembers_entries h (fun e' _ => e'.field.mem_all) Settings.default []
    rw [List.map_cons, Json.objectOf_cons, Json.hear_beginObject, Json.hear_string]
    exact hmembers

/-- Where a value is read, there is one. -/
theorem exists_of_readValue {r : Settings × List Token} (h : readValue s f ts = .ok r) :
    ∃ t ts', ts = t :: ts' ∧ t ≠ .endArray := by
  cases ts with
  | nil => cases f <;> cases h
  | cons t ts =>
    refine ⟨t, ts, rfl, ?_⟩
    rintro rfl
    cases f <;> cases h

theorem readValues_comma {ts' : List Token} (h : readValue s f ts = .ok (s', ts')) :
    readValues s (f :: fields) (.comma :: ts) = readValues s' fields ts' := by
  obtain ⟨t, ts, rfl, ht⟩ := exists_of_readValue h
  rw [readValues, h]
  · exact fun h => by cases h
  · exact fun ts' h => by cases h; exact ht rfl

/-- **The values of an array** are read one by one, for the first fields. -/
theorem readValues_entries (h : es.map Entry.field = fields.take es.length) (s : Settings)
    (ls : List Lexeme) :
    readValues s fields (hear ((es.map Entry.value).flatMap (.comma :: ·) ++ .endArray :: ls)) =
      .ok (es.foldl Entry.put s, hear ls) := by
  induction es generalizing fields s with
  | nil => cases fields <;> rfl
  | cons e es ih =>
    cases fields with
    | nil => cases h
    | cons f fields =>
      rw [List.map_cons, List.length_cons, List.take_succ_cons] at h
      obtain ⟨rfl, hrest⟩ := List.cons.inj h
      rw [List.map_cons, List.flatMap_cons, List.append_assoc, List.cons_append, Json.hear_comma,
        readValues_comma (readValue_entry e s _), ih hrest]
      rfl

/-- The first value of an array is read as if a comma stood before it. -/
theorem readArray_of_readValue {r : Settings × List Token} (h : readValue s f ts = .ok r) :
    readArray ts = readValues Settings.default Field.all (.comma :: ts) := by
  obtain ⟨t, ts, rfl, ht⟩ := exists_of_readValue h
  rw [readArray]
  · exact fun ts' h => by cases h; exact ht rfl
  · exact fun h => by cases h

/-- **An array of the values of the first settings** is read as the settings that they make. -/
theorem readSettings_array (h : es.map Entry.field = Field.all.take es.length) :
    readSettings (hear (arrayOf (es.map Entry.value))) =
      .ok (es.foldl Entry.put Settings.default, []) := by
  cases es with
  | nil => rfl
  | cons e es =>
    have hvalues := readValues_entries h Settings.default []
    rw [List.map_cons, List.flatMap_cons, List.append_assoc, List.cons_append,
      Json.hear_comma] at hvalues
    rw [List.map_cons, Json.arrayOf_cons, Json.hear_beginArray, readSettings,
      readArray_of_readValue, hvalues]
    · rfl
    · exact readValue_entry e Settings.default _

/-! ### What is read as a value -/

/-- Where more texts are read, there are texts only. -/
theorem texts_of_readMore {r : List String × List Token} (hvs : ∀ v ∈ vs, IsValue v)
    (h : readMore (hear (vs.flatMap (.comma :: ·) ++ .endArray :: ls)) = .ok r) :
    ∃ texts : List String, vs = texts.map fun m => [Lexeme.string m] := by
  induction vs generalizing r with
  | nil => exact ⟨[], rfl⟩
  | cons v vs ih =>
    rw [List.flatMap_cons, List.append_assoc, List.cons_append, Json.hear_comma] at h
    rcases (hvs v List.mem_cons_self).text_or_opens
      (vs.flatMap (.comma :: ·) ++ .endArray :: ls) with ⟨m, rfl⟩ | ⟨t, ts, hts, harray, htext⟩
    · rw [List.singleton_append, Json.hear_string, readMore] at h
      obtain ⟨_, hmore, -⟩ := Json.exists_of_map_eq_ok h
      obtain ⟨texts, rfl⟩ := ih (fun v' hv' => hvs v' (List.mem_cons_of_mem _ hv')) hmore
      exact ⟨m :: texts, rfl⟩
    · rw [hts] at h
      cases t <;> first
        | exact absurd rfl harray
        | exact absurd rfl (htext _)
        | cases h

/-- A list that is read is a list of texts. -/
theorem texts_of_readList {r : List String × List Token} (hvs : ∀ v ∈ vs, IsValue v)
    (h : readList (hear (arrayOf vs ++ ls)) = .ok r) :
    ∃ texts : List String, vs = texts.map fun m => [Lexeme.string m] := by
  cases vs with
  | nil => exact ⟨[], rfl⟩
  | cons v vs =>
    obtain ⟨t, ts, hts, ht⟩ :=
      (hvs v List.mem_cons_self).exists_token (vs.flatMap (.comma :: ·) ++ .endArray :: ls)
    rw [Json.arrayOf_cons, List.cons_append, List.append_assoc, List.append_assoc,
      Json.hear_beginArray, List.singleton_append, hts, readList_eq_readMore ht, ← hts,
      ← Json.hear_comma, ← List.cons_append, ← List.append_assoc, ← List.flatMap_cons] at h
    exact texts_of_readMore hvs h

/-- **No more than one value is taken**, whatever is read as a value. -/
theorem rest_readValue (hv : IsValue v) (h : readValue s f (hear (v ++ ls)) = .ok (s', ts)) :
    ts = hear ls := by
  cases hv with
  | null => cases f <;> cases h; rfl
  | bool b => cases f <;> cases h
  | string text => cases f <;> cases h <;> rfl
  | object hms => cases f <;> cases h
  | number numeral =>
    rw [List.singleton_append, hear, Lexeme.token] at h
    cases hread : Json.Number.read numeral with
    | error fault =>
      rw [hread] at h
      cases f <;> cases h
    | ok r =>
      obtain ⟨n, _⟩ := r
      rw [hread] at h
      -- a natural number may be a width
      cases n <;> cases f <;> cases h
      rfl
  | @array vs hvs =>
    have hlist {put : List String × List Token → Settings × List Token}
        (hput : ∀ r, (put r).2 = r.2)
        (hr : (readList (hear (arrayOf vs ++ ls))).map put = .ok (s', ts)) : ts = hear ls := by
      obtain ⟨r, hr, hr'⟩ := Json.exists_of_map_eq_ok hr
      -- since it is read it is a list of texts, and of these it is known what is left
      obtain ⟨texts, rfl⟩ := texts_of_readList hvs hr
      rw [readList_texts] at hr
      cases hr
      have hrest := hput (texts, hear ls)
      rwa [hr'] at hrest
    cases f with
    | interpreter => cases h
    | indentWidth => cases h
    | delimiter => cases h
    | imports => exact hlist (fun _ => rfl) h
    | wildcards => exact hlist (fun _ => rfl) h

/-! ### The names in an object -/

theorem Field.key_of_ofKey? (h : Field.ofKey? key = some f) : f.key = key := by
  have hfound := List.find?_some h
  exact eq_of_beq hfound

theorem Field.key_injective : Function.Injective Field.key := fun f g h => by
  have hf := Field.ofKey?_key f
  rw [h, Field.ofKey?_key] at hf
  exact (Option.some.inj hf).symm

/-- A member that is read names a setting that is still missing, and what follows its value is read
on. -/
theorem exists_of_readMembers {r : Settings × List Token} (hv : IsValue v)
    (h : readMembers missing s key (hear (.colon :: (v ++ ls))) = .ok r) :
    ∃ f ∈ missing, f.key = key ∧ ∀ key' ts, readNextKey (hear ls) = .ok (some key', ts) →
      ∃ s', readMembers (missing.erase f) s' key' ts = .ok r := by
  rw [readMembers] at h
  cases hf : Field.ofKey? key with
  | none => rw [hf] at h; cases h
  | some f =>
    simp only [hf, Json.hear_colon] at h
    split at h
    · next hmem =>
      refine ⟨f, hmem, Field.key_of_ofKey? hf, fun key' ts hnext => ?_⟩
      cases hvalue : readValue s f (hear (v ++ ls)) with
      | error e => rw [hvalue] at h; cases h
      | ok r' =>
        obtain ⟨s', ts'⟩ := r'
        obtain rfl := rest_readValue hv hvalue
        simp only [hvalue, hnext] at h
        exact ⟨s', h⟩
    · cases h

/-- **Members that are read** name settings that are missing, and each of them once. -/
theorem names_readMembers {r : Settings × List Token} (hv : IsValue v)
    (hms : ∀ m ∈ ms, IsValue m.2) (hmissing : missing.Nodup)
    (h : readMembers missing s key (hear (.colon :: (v ++ (following ms ++ .endObject :: ls)))) =
      .ok r) :
    ∃ fs : List Field, key :: ms.map Prod.fst = fs.map Field.key ∧ fs.Nodup ∧
      ∀ f ∈ fs, f ∈ missing := by
  induction ms generalizing key v missing s with
  | nil =>
    obtain ⟨f, hf, rfl, -⟩ := exists_of_readMembers hv h
    exact ⟨[f], rfl, List.pairwise_singleton _ f, fun f' hf' => List.mem_singleton.1 hf' ▸ hf⟩
  | cons m ms ih =>
    obtain ⟨f, hf, rfl, hmore⟩ := exists_of_readMembers hv h
    obtain ⟨s', hmore⟩ := hmore _ _ (readNextKey_following m ms (.endObject :: ls))
    obtain ⟨fs, hnames, hnodup, hmem⟩ := ih (hms m List.mem_cons_self)
      (fun m' hm' => hms m' (List.mem_cons_of_mem m hm')) (hmissing.erase f) hmore
    refine ⟨f :: fs, congrArg (f.key :: ·) hnames, List.nodup_cons.2 ⟨fun hfs => ?_, hnodup⟩, ?_⟩
    · exact hmissing.not_mem_erase (hmem f hfs)
    · intro f' hf'
      rcases List.mem_cons.1 hf' with rfl | hf'
      · exact hf
      · exact List.mem_of_mem_erase (hmem f' hf')

/-- **An object that is read** names settings, and each of them once. -/
theorem names_readSettings {r : Settings × List Token} (hms : ∀ m ∈ ms, IsValue m.2)
    (h : readSettings (hear (objectOf ms)) = .ok r) :
    ∃ fs : List Field, ms.map Prod.fst = fs.map Field.key ∧ fs.Nodup := by
  cases ms with
  | nil => exact ⟨[], rfl, List.nodup_nil⟩
  | cons m ms =>
    rw [Json.objectOf_cons, Json.hear_beginObject, Json.hear_string] at h
    obtain ⟨fs, hnames, hnodup, -⟩ := names_readMembers (hms m List.mem_cons_self)
      (fun m' hm' => hms m' (List.mem_cons_of_mem m hm')) (by decide : Field.all.Nodup) h
    exact ⟨fs, hnames, hnodup⟩

/-! ### Settings files -/

/-- A file with a text in it is read. -/
theorem reads_toUTF8 {text : String} (hp : '\x00' ∉ path.toList)
    (hr : files.read path = .ok text.toUTF8) : Reads files path (.ok text) :=
  .text hp hr (dif_pos text.isValidUTF8)

theorem Entry.numeral_of_mem {numeral : List Char} (h : .number numeral ∈ e.value) :
    Json.Numeral numeral := by
  have hnone {modules : List String}
      (h : .number numeral ∈ arrayOf (modules.map fun m => [.string m])) : False := by
    obtain ⟨v, hv, hmem⟩ := Json.mem_of_mem_arrayOf h
    obtain ⟨m, -, rfl⟩ := List.mem_map.1 hv
    cases List.mem_singleton.1 hmem
  cases e with
  | interpreter command => cases List.mem_singleton.1 h
  | indentWidth width hw =>
    cases List.mem_singleton.1 h
    exact Json.Number.numeral_toDigits width
  | delimiter d => cases d <;> cases List.mem_singleton.1 h
  | imports modules => exact (hnone h).elim
  | wildcards modules => exact (hnone h).elim

/-- Any entries can be written to a file. -/
theorem exists_spelled (es : List Entry) (hp : '\x00' ∉ path.toList) :
    ∃ files, Spelled files path (objectOf (es.map Entry.member)) := by
  have hnumerals (numeral : List Char)
      (h : .number numeral ∈ objectOf (es.map Entry.member)) : Json.Numeral numeral := by
    obtain ⟨m, hm, hmem⟩ := Json.mem_of_mem_objectOf h
    obtain ⟨e, -, rfl⟩ := List.mem_map.1 hm
    exact e.numeral_of_mem hmem
  obtain ⟨text, hspells⟩ := Json.exists_spells hnumerals
  refine ⟨⟨fun _ => .ok (String.ofList text).toUTF8, fun _ => true⟩, String.ofList text,
    reads_toUTF8 hp rfl, ?_⟩
  rwa [String.toList_ofList]

theorem Spelled.fromPath_eq (h : Spelled files path ls)
    (hs : readSettings (hear ls) = .ok (s, [])) : fromPath files path = s.accept := by
  obtain ⟨text, hreads, hspells⟩ := h
  have htext : ofText text = .ok s := by rw [ofText, hspells.tokens_eq, hs]
  rw [hreads.fromPath_eq, Except.bind, htext]

theorem Spelled.exists_fault (h : Spelled files path ls)
    (hs : ∀ r, readSettings (hear ls) ≠ .ok r) :
    ∃ fault, fromPath files path = .error (.unusable path fault) := by
  obtain ⟨text, hreads, hspells⟩ := h
  cases hread : readSettings (hear ls) with
  | ok r => exact absurd hread (hs r)
  | error fault =>
    have htext : ofText text = .error fault := by rw [ofText, hspells.tokens_eq, hread]
    exact ⟨fault, by rw [hreads.fromPath_eq, Except.bind, htext]⟩

/-- A name that is unknown, or that another member has, is not read. -/
theorem readSettings_ne_ok {before after : List (String × List Lexeme)}
    (hms : ∀ m ∈ before ++ after, IsValue m.2) (hv : IsValue v)
    (hkey : (∀ f : Field, f.key ≠ key) ∨ key ∈ (before ++ after).map Prod.fst)
    (r : Settings × List Token) :
    readSettings (hear (objectOf (before ++ (key, v) :: after))) ≠ .ok r := by
  intro h
  have hvalues : ∀ m ∈ before ++ (key, v) :: after, IsValue m.2 := by
    intro m hm
    rcases List.mem_append.1 hm with hm | hm
    · exact hms m (List.mem_append_left after hm)
    · rcases List.mem_cons.1 hm with rfl | hm
      · exact hv
      · exact hms m (List.mem_append_right before hm)
  obtain ⟨fs, hnames, hnodup⟩ := names_readSettings hvalues h
  rw [List.map_append, List.map_cons] at hnames
  rcases hkey with hunknown | hagain
  · -- all names are names of settings
    have hmem : key ∈ fs.map Field.key :=
      hnames ▸ List.mem_append_right _ List.mem_cons_self
    obtain ⟨f, -, hf⟩ := List.mem_map.1 hmem
    exact hunknown f hf
  · -- and settings of different names are different
    have hdistinct : (fs.map Field.key).Nodup :=
      List.Pairwise.map Field.key (fun f g hne hkeys => hne (Field.key_injective hkeys)) hnodup
    rw [← hnames] at hdistinct
    rw [List.map_append] at hagain
    exact (List.nodup_cons.1 (List.perm_middle.nodup_iff.1 hdistinct)).1 hagain

/-- **A settings file means the same however it is written.** Entries for different settings make
settings, and only those. Whether the file has them as an object, in any order, or as an array, if
they are for the first settings: it holds the settings that they make, if the checks accept these.
White space does not count, nor how a string is written. An object that has another member with a
name that is unknown, or that is there already, is of no use. -/
theorem settings_spelled (files : Files) (path : String) :
    (∀ es : List Entry, (es.map Entry.field).Nodup →
      ∃ s, (∀ t, Made es t ↔ t = s) ∧
        (Spelled files path (objectOf (es.map Entry.member)) → fromPath files path = s.accept) ∧
        ∀ es' : List Entry, es'.Perm es → es'.map Entry.field = Field.all.take es'.length →
          Spelled files path (arrayOf (es'.map Entry.value)) → fromPath files path = s.accept) ∧
    ∀ (before after : List (String × List Lexeme)) (key : String) (value : List Lexeme),
      (∀ m ∈ before ++ after, IsValue m.2) → IsValue value →
      ((∀ f : Field, f.key ≠ key) ∨ key ∈ (before ++ after).map Prod.fst) →
      Spelled files path (objectOf (before ++ (key, value) :: after)) →
      ∃ fault, fromPath files path = .error (.unusable path fault) := by
  refine ⟨fun es hnodup => ?_, fun before after key value hms hv hkey h =>
    h.exists_fault (readSettings_ne_ok hms hv hkey)⟩
  have hmade := made_foldl hnodup
  refine ⟨es.foldl Entry.put Settings.default, fun t => ⟨fun ht => ht.unique hmade, ?_⟩,
    fun h => h.fromPath_eq (readSettings_object hnodup), fun es' hperm hfields h => ?_⟩
  · rintro rfl
    exact hmade
  · -- the array makes the same settings
    have hnodup' := (hperm.map Entry.field).nodup_iff.2 hnodup
    rw [hmade.unique ((made_foldl hnodup').perm hperm)]
    exact h.fromPath_eq (readSettings_array hfields)

/-- Some of the settings, not in their order, with white space and an escape. -/
theorem settings_spelled_escaped :
    fromPath
        { read _ := .ok "\x7b\"indent_width\" : 2,\n \"python\":\"\\u0070y\"\x7d".toUTF8
          isFile _ := true } "s" =
      .ok { Settings.default with indentWidth := 2, interpreter := "py" } := by
  have hwidth : Json.Inside "indent_width".toList "indent_width".toList := .plain rfl
  have hname : Json.Inside "python".toList "python".toList := .plain rfl
  have hvalue : Json.Inside ['\\', 'u', '0', '0', '7', '0', 'y'] ['p', 'y'] :=
    @Json.Inside.cons ['\\', 'u', '0', '0', '7', '0'] ['y'] ['y'] 'p'
      (.code (@Json.Hex.digits '0' '0' '7' '0' 0 0 7 0 rfl rfl rfl rfl)) (.plain rfl)
  have hcomma : ∀ numeral, Lexeme.number ['2'] = .number numeral →
      ∀ c ∈ some ',', Json.goesOn c = false := fun _ _ c hc => by
    obtain rfl := Option.some.inj hc
    decide
  have htext : "\x7b\"indent_width\" : 2,\n \"python\":\"\\u0070y\"\x7d".toList =
        ['{', '"', 'i', 'n', 'd', 'e', 'n', 't', '_', 'w', 'i', 'd', 't', 'h', '"', ' ', ':', ' ',
          '2', ',', '\n', ' ', '"', 'p', 'y', 't', 'h', 'o', 'n', '"', ':', '"', '\\', 'u', '0',
          '0', '7', '0', 'y', '"', '}'] := by
    decide
  have hspells : Json.Spells
      (objectOf ([.indentWidth 2 (by decide), .interpreter "py"].map Entry.member))
      "\x7b\"indent_width\" : 2,\n \"python\":\"\\u0070y\"\x7d".toList := by
    rw [htext]
    exact
      @Json.Spells.cons [] ['{'] _ _ _ rfl .beginObject nofun <|
      @Json.Spells.cons [] _ _ _ _ rfl (.string hwidth) nofun <|
      @Json.Spells.cons [' '] [':'] _ _ _ rfl .colon nofun <|
      @Json.Spells.cons [' '] ['2'] _ _ _ rfl (.number (Json.Number.numeral_toDigits 2)) hcomma <|
      @Json.Spells.cons [] [','] _ _ _ rfl .comma nofun <|
      @Json.Spells.cons ['\n', ' '] _ _ _ _ rfl (.string hname) nofun <|
      @Json.Spells.cons [] [':'] _ _ _ rfl .colon nofun <|
      @Json.Spells.cons [] _ _ _ _ rfl (.string hvalue) nofun <|
      @Json.Spells.cons [] ['}'] _ _ _ rfl .endObject nofun (.nil rfl)
  obtain ⟨s, hmade, hobject, -⟩ := (settings_spelled _ "s").1
    [.indentWidth 2 (by decide), .interpreter "py"] (by decide)
  rw [hobject ⟨_, reads_toUTF8 (by decide) rfl, hspells⟩]
  obtain rfl := (hmade { Settings.default with indentWidth := 2, interpreter := "py" }).1
    ⟨List.forall_mem_cons.2 ⟨rfl, List.forall_mem_cons.2 ⟨rfl, nofun⟩⟩, fun f hf => by
      cases f <;> first
        | rfl
        | exact absurd (by decide) hf⟩
  exact Usable.accept_eq ⟨by decide, by decide, "py", [], rfl⟩

end Braceline.Settings
