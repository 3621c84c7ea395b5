import Braceline.Loader
import Braceline.Text.Pieces
import Braceline.Text.WordChar

/-!
# What the loader carries

The loader is one text, and the interpreter reads each value back from it: the value that was put
into a slot, exactly, and then what the template has after the slot. Nothing that is put in is taken
for a slot, ends its literal early or adds a line.

* `fillFrom_eq`, `flatMap_marked`: what one pass makes of any template, by induction on it.
* `pieces_fill`: values without line breaks are put in line by line.
* `carries_carried?`: what is put in is what the slot is to carry.
* `readValue?_written`: a value is read back, whatever comes after it.
* `exists_slot_cut`: a mark in a template is a slot, by induction on the pieces.
* `carried?_eq_of_flatMap_eq`: so equal texts carry equal values, by induction on the pieces.
* `text_carries`: the loader.
-/

namespace Braceline.Loader

/-- A piece of a template: a character that is copied, or a slot. -/
inductive Piece where
  | char (c : Char)
  | slot (s : Slot)
  deriving DecidableEq, Repr

namespace Piece

/-- The piece as it stands in the template. -/
def marked : Piece → List Char
  | char c => [c]
  | slot s => s.mark.toList

/-- The piece with its slot filled. -/
def filled (value : Slot → String) : Piece → List Char
  | char c => [c]
  | slot s => (value s).toList

end Piece

/-- The pieces of a template that is read from its front, where the next `skip` characters belong to
the mark of a slot. -/
def layoutFrom : Nat → List Char → List Piece
  | _, [] => []
  | skip + 1, _ :: cs => layoutFrom skip cs
  | 0, c :: cs =>
    match Slot.at? (c :: cs) with
    | some s => .slot s :: layoutFrom (s.mark.length - 1) cs
    | none => .char c :: layoutFrom 0 cs

/-- The pieces of the loader's template. -/
def layout : List Piece := layoutFrom 0 template

/-- **What a slot is to carry.** The delimiter may be missing. -/
inductive Carries (v : Values) : Slot → Option String → Prop where
  | delimiter : Carries v .delimiter v.delimiter
  | script : Carries v .script (some v.script)
  /-- The lines of the header, with line breaks between them. -/
  | header : Carries v .header (some ("\n".intercalate v.listing.header))
  /-- The lines of the body, with line breaks between them and one after them. -/
  | body : Carries v .body (some ("\n".intercalate v.listing.body ++ "\n"))
  | name : Carries v .name (some "<script>")
  /-- A body whose value is echoed. -/
  | single (h : v.listing.kind = .expression) : Carries v .mode (some "single")
  | exec (h : v.listing.kind = .script) : Carries v .mode (some "exec")

/-- Reads a value as the interpreter does: the bare word for no value, which ends before a character
that no name may hold, or a literal. Three quotes would begin a literal of another kind. -/
def readValue? : List Char → Option (Option String × List Char)
  | 'N' :: 'o' :: 'n' :: 'e' :: rest =>
    if rest.head?.any Text.isWordChar then none else some (none, rest)
  | '"' :: '"' :: '"' :: _ => none
  | cs => (Text.Quoted.decode cs).map fun r => (some (String.ofList r.1), r.2)

/-- May a value end before the text? -/
def endsValue (rest : List Char) : Bool :=
  !rest.head?.any fun c => c == '"' || Text.isWordChar c

/-- Is each slot followed by a character before which a value ends, and is no character that begins
a mark copied? -/
def guarded : List Piece → Bool
  | [] => true
  | .char c :: ps => c != '@' && guarded ps
  | .slot _ :: ps =>
    guarded ps && match ps with
      | .char c :: _ => endsValue [c]
      | _ => false

variable {value : Slot → String} {v v' : Values} {s : Slot} {ps : List Piece}
  {before after rest t : List Char} {c : Char} {n : Nat}

/-! ### One pass over a template -/

/-- The slot that a text begins with is one whose mark it begins with. -/
theorem isPrefix_of_at? (h : Slot.at? t = some s) : s.mark.toList <+: t := by
  cases t with
  | nil => cases h
  | cons c t =>
    by_cases hc : c = '@'
    · rw [Slot.at?, if_pos hc] at h
      have hfound := List.find?_some h
      exact List.isPrefixOf_iff_prefix.1 hfound
    · rw [Slot.at?, if_neg hc] at h
      cases h

theorem at?_cons_of_ne (h : c ≠ '@') (t : List Char) : Slot.at? (c :: t) = none := if_neg h

/-- **Filling a template** is filling its slots: what is put in does not change what follows. -/
theorem fillFrom_eq (value : Slot → String) (n : Nat) (t : List Char) :
    fillFrom value n t = (layoutFrom n t).flatMap (Piece.filled value) := by
  induction t generalizing n with
  | nil => cases n <;> rfl
  | cons c t ih =>
    cases n with
    | succ n => exact ih n
    | zero =>
      cases hs : Slot.at? (c :: t) with
      | some s => simp only [fillFrom, layoutFrom, hs, ih, List.flatMap_cons, Piece.filled]
      | none => simp only [fillFrom, layoutFrom, hs, ih, List.flatMap_cons, Piece.filled,
          List.singleton_append]

/-- The pieces of a template make it up. -/
theorem flatMap_marked (n : Nat) (t : List Char) :
    (layoutFrom n t).flatMap Piece.marked = t.drop n := by
  induction t generalizing n with
  | nil => cases n <;> rfl
  | cons c t ih =>
    cases n with
    | succ n => exact ih n
    | zero =>
      cases hs : Slot.at? (c :: t) with
      | some s =>
        -- what is skipped is the rest of the mark
        obtain ⟨rest, hrest⟩ := isPrefix_of_at? hs
        have hmark : 0 < s.mark.length := by cases s <;> decide
        have hdrop : (c :: t).drop s.mark.length = rest := by
          rw [← hrest, ← String.length_toList, List.drop_left]
        have hdrop' : t.drop (s.mark.length - 1) = rest := by
          rwa [← Nat.sub_add_cancel hmark, List.drop_succ_cons] at hdrop
        simp only [layoutFrom, hs, ih, List.flatMap_cons, Piece.marked, hdrop', hrest,
          List.drop_zero]
      | none => simp only [layoutFrom, hs, ih, List.flatMap_cons, Piece.marked,
          List.singleton_append, List.drop_zero]

/-! ### Lines -/

/-- What a filled template holds is held by the template or by a value. -/
theorem mem_fillFrom (h : c ∈ fillFrom value n t) : c ∈ t ∨ ∃ s, c ∈ (value s).toList := by
  induction t generalizing n with
  | nil => cases n <;> cases h
  | cons a t ih =>
    cases n with
    | succ n => exact (ih h).imp_left (List.mem_cons_of_mem a)
    | zero =>
      cases hs : Slot.at? (a :: t) with
      | some s =>
        simp only [fillFrom, hs] at h
        rcases List.mem_append.1 h with h | h
        · exact .inr ⟨s, h⟩
        · exact (ih h).imp_left (List.mem_cons_of_mem a)
      | none =>
        simp only [fillFrom, hs] at h
        rcases List.mem_cons.1 h with rfl | h
        · exact .inl List.mem_cons_self
        · exact (ih h).imp_left (List.mem_cons_of_mem a)

/-- A template without marks stays as it is. -/
theorem fill_of_not_mem (value : Slot → String) (h : '@' ∉ t) : fill value t = t := by
  induction t with
  | nil => rfl
  | cons c t ih =>
    obtain ⟨hc, ht⟩ := List.ne_and_not_mem_of_not_mem_cons h
    rw [fill]
    simp only [fillFrom, at?_cons_of_ne hc.symm]
    exact congrArg _ (ih ht)

/-- A text that begins with one without a line break does so before its first. -/
theorem prefix_append_newline_iff (h : '\n' ∉ t) :
    t <+: before ++ '\n' :: rest ↔ t <+: before := by
  refine ⟨fun hbegins => ?_, fun hle => hle.trans (List.prefix_append _ _)⟩
  rcases List.prefix_or_prefix_of_prefix hbegins (List.prefix_append before ('\n' :: rest)) with
    hle | ⟨more, rfl⟩
  · exact hle
  · rw [List.prefix_append_right_inj] at hbegins
    cases more with
    | nil => simp
    | cons c more =>
      obtain rfl : c = '\n' := (List.cons_prefix_cons.1 hbegins).1
      exact absurd (List.mem_append_right _ List.mem_cons_self) h

/-- No mark of a slot goes on after a line break. -/
theorem at?_append_newline (c : Char) (t rest : List Char) :
    Slot.at? (c :: (t ++ '\n' :: rest)) = Slot.at? (c :: t) := by
  have hmark (s : Slot) : s.mark.toList.isPrefixOf (c :: (t ++ '\n' :: rest)) =
      s.mark.toList.isPrefixOf (c :: t) := by
    have hnone : '\n' ∉ s.mark.toList := by cases s <;> decide +kernel
    rw [Bool.eq_iff_iff, List.isPrefixOf_iff_prefix, List.isPrefixOf_iff_prefix,
      ← List.cons_append, prefix_append_newline_iff hnone]
  simp only [Slot.at?, hmark]

/-- A line break cuts a template. -/
theorem fillFrom_append_newline (value : Slot → String) (h : n ≤ t.length) (rest : List Char) :
    fillFrom value n (t ++ '\n' :: rest) = fillFrom value n t ++ '\n' :: fill value rest := by
  induction t generalizing n with
  | nil =>
    obtain rfl : n = 0 := Nat.le_zero.1 h
    rw [List.nil_append]
    simp only [fillFrom, at?_cons_of_ne (show '\n' ≠ '@' by decide), fill, List.nil_append]
  | cons c t ih =>
    cases n with
    | succ n => exact ih (Nat.le_of_succ_le_succ h)
    | zero =>
      have hat := at?_append_newline c t rest
      rw [List.cons_append]
      cases hs : Slot.at? (c :: t) with
      | some s =>
        have hle : s.mark.length - 1 ≤ t.length := by
          have := (isPrefix_of_at? hs).length_le
          rw [String.length_toList, List.length_cons] at this
          omega
        simp only [fillFrom, hat, hs, ih hle, List.append_assoc]
      | none => simp only [fillFrom, hat, hs, ih (Nat.zero_le _), List.cons_append]

/-- **Values without line breaks are put in line by line.** -/
theorem pieces_fill (h : ∀ s, '\n' ∉ (value s).toList) (t : List Char) :
    Text.pieces '\n' (fill value t) = (Text.pieces '\n' t).map (fill value) := by
  have hone (line : List Char) (hline : '\n' ∉ line) : '\n' ∉ fill value line := fun hmem =>
    (mem_fillFrom hmem).elim hline fun ⟨s, hs⟩ => h s hs
  induction hn : t.length using Nat.strongRecOn generalizing t with
  | ind n ih =>
    by_cases hmem : '\n' ∈ t
    · obtain ⟨line, rest, rfl, hline⟩ := List.eq_append_cons_of_mem hmem
      have hrest : rest.length < n := by
        rw [← hn, List.length_append, List.length_cons]
        omega
      rw [fill, fillFrom_append_newline value (Nat.zero_le _), ← fill, Text.pieces_append_cons,
        Text.pieces_append_cons, List.map_append, ih _ hrest rest rfl,
        Text.pieces_of_not_mem hline, Text.pieces_of_not_mem (hone line hline)]
      rfl
    · rw [Text.pieces_of_not_mem hmem, Text.pieces_of_not_mem (hone t hmem)]
      rfl

/-! ### Values -/

theorem toList_written_of_some {text : String} (h : v.carried? s = some text) :
    (v.written s).toList = Text.Quoted.encode text.toList := by
  rw [Values.written, h]
  exact String.toList_ofList

theorem toList_written_of_none (h : v.carried? s = none) :
    (v.written s).toList = ['N', 'o', 'n', 'e'] := by
  rw [Values.written, h]
  rfl

/-- **A value is written without control characters.** -/
theorem le_toNat_of_mem_written (h : c ∈ (v.written s).toList) : 0x20 ≤ c.toNat := by
  cases hs : v.carried? s with
  | some text =>
    rw [toList_written_of_some hs] at h
    exact Text.Quoted.le_toNat_of_mem_encode h
  | none =>
    rw [toList_written_of_none hs] at h
    simp only [List.mem_cons, List.not_mem_nil, or_false] at h
    rcases h with rfl | rfl | rfl | rfl
    all_goals decide

theorem newline_not_mem_written (v : Values) (s : Slot) : '\n' ∉ (v.written s).toList := fun h =>
  absurd (le_toNat_of_mem_written h) (by decide)

/-- The word for no value ends before a character that no name may hold. -/
theorem readValue?_none (h : endsValue rest = true) :
    readValue? ('N' :: 'o' :: 'n' :: 'e' :: rest) = some (none, rest) := by
  have hword : ¬ rest.head?.any Text.isWordChar = true := by
    cases rest with
    | nil => exact Bool.noConfusion
    | cons c rest =>
      intro hc
      have hc : Text.isWordChar c = true := hc
      simp [endsValue, hc] at h
  rw [readValue?, if_neg hword]

/-- A literal is read to its end, if no quote follows it. -/
theorem readValue?_encode (cs : List Char) (h : endsValue rest = true) :
    readValue? (Text.Quoted.encode cs ++ rest) = some (some (String.ofList cs), rest) := by
  have htext : Text.Quoted.encode cs ++ rest = '"' :: (Text.Quoted.body cs ++ '"' :: rest) := by
    simp [Text.Quoted.encode]
  have htriple (more : List Char) : Text.Quoted.body cs ++ '"' :: rest ≠ '"' :: '"' :: more := by
    intro heq
    have hhead := Text.Quoted.head?_body_ne_quote cs
    cases hbody : Text.Quoted.body cs with
    | nil =>
      -- the empty literal, which what follows would have to go on
      rw [hbody] at heq
      have hrest : rest = '"' :: more := (List.cons.inj heq).2
      rw [hrest] at h
      cases h
    | cons c body =>
      rw [hbody] at heq hhead
      exact hhead c rfl (List.cons.inj heq).1
  have hdecode := Text.Quoted.decode_encode cs rest
  rw [htext] at hdecode ⊢
  rw [readValue?]
  · rw [hdecode]
    rfl
  · rintro more ⟨⟩
  · intro more heq
    exact htriple more (List.cons.inj heq).2

/-- **A value is read back**, and then what comes after it. -/
theorem readValue?_written (v : Values) (s : Slot) (h : endsValue rest = true) :
    readValue? ((v.written s).toList ++ rest) = some (v.carried? s, rest) := by
  cases hs : v.carried? s with
  | none =>
    rw [toList_written_of_none hs]
    exact readValue?_none h
  | some text =>
    rw [toList_written_of_some hs, readValue?_encode _ h, String.ofList_toList]

/-- A quote and a mark inside a literal are part of its text. -/
example : readValue? "\"\\\"@BODY@\\n\", 1".toList = some (some "\"@BODY@\n", ", 1".toList) := by
  decide +kernel

/-! ### The loader's template -/

/-- The slot is followed by a character before which a value ends. -/
theorem endsValue_of_guarded (h : guarded (.slot s :: ps) = true) :
    ∃ c rest, ps = .char c :: rest ∧ endsValue [c] = true := by
  cases ps with
  | nil => cases h
  | cons p ps =>
    cases p with
    | char c => exact ⟨c, ps, rfl, (Bool.and_eq_true_iff.1 h).2⟩
    | slot s => exact absurd (Bool.and_eq_true_iff.1 h).2 Bool.noConfusion

theorem endsValue_filled (h : guarded (.slot s :: ps) = true) (value : Slot → String) :
    endsValue (ps.flatMap (Piece.filled value)) = true := by
  obtain ⟨c, rest, rfl, hc⟩ := endsValue_of_guarded h
  exact hc

theorem guarded_of_cons {p : Piece} (h : guarded (p :: ps) = true) : guarded ps = true := by
  cases p with
  | char c => exact (Bool.and_eq_true_iff.1 h).2
  | slot s => exact (Bool.and_eq_true_iff.1 h).1

theorem guarded_of_append {front : List Piece} (h : guarded (front ++ ps) = true) :
    guarded ps = true := by
  induction front with
  | nil => exact h
  | cons p front ih => exact ih (guarded_of_cons h)

/-- A mark is a word between two signs that it does not hold. -/
theorem exists_mark_eq (s : Slot) : ∃ c u, s.mark.toList = '@' :: c :: u ++ ['@'] ∧
    Text.isWordChar c = true ∧ '@' ∉ c :: u := by
  have hword (c : Char) (h : c.isAlphanum = true) := Text.isWordChar_of_isAlphanum h
  cases s
  · exact ⟨'D', ['E', 'L', 'I', 'M'], rfl, hword _ (by decide), by decide⟩
  · exact ⟨'S', ['C', 'R', 'I', 'P', 'T'], rfl, hword _ (by decide), by decide⟩
  · exact ⟨'H', ['E', 'A', 'D', 'E', 'R'], rfl, hword _ (by decide), by decide⟩
  · exact ⟨'B', ['O', 'D', 'Y'], rfl, hword _ (by decide), by decide⟩
  · exact ⟨'N', ['A', 'M', 'E'], rfl, hword _ (by decide), by decide⟩
  · exact ⟨'M', ['O', 'D', 'E'], rfl, hword _ (by decide), by decide⟩

/-- A text begins with one mark at most. -/
theorem mark_unique {s s' : Slot} (h : s.mark.toList <+: t) (h' : s'.mark.toList <+: t) :
    s = s' := by
  have hmarks : ∀ s ∈ Slot.all, ∀ s' ∈ Slot.all,
      s.mark.toList.isPrefixOf s'.mark.toList = true → s = s' := by decide +kernel
  have hmem (s : Slot) : s ∈ Slot.all := by cases s <;> decide
  rcases List.prefix_or_prefix_of_prefix h h' with hle | hle
  · exact hmarks s (hmem s) s' (hmem s') (List.isPrefixOf_iff_prefix.2 hle)
  · exact (hmarks s' (hmem s') s (hmem s) (List.isPrefixOf_iff_prefix.2 hle)).symm

/-- A sign at the end of a text that does not hold it is the only one. -/
theorem eq_nil_of_concat_eq {u bs : List Char} (h : c ∉ u)
    (heq : u ++ [c] = before ++ c :: bs) : bs = [] := by
  rcases List.append_eq_append_iff.1 heq with ⟨as, -, hrest⟩ | ⟨as, rfl, hrest⟩
  · cases as with
    | nil => exact (List.cons.inj hrest).2.symm
    | cons a as => simp at hrest
  · cases as with
    | nil => exact (List.cons.inj hrest).2
    | cons a as =>
      obtain rfl : c = a := (List.cons.inj hrest).1
      exact absurd (List.mem_append_right _ List.mem_cons_self) h

/-- **No mark begins inside another.** It would begin with the last sign of that one, so what
follows a slot would go on with a word. -/
theorem not_mark_inside {s' : Slot} {b : Char} {bs : List Char}
    (hg : guarded (.slot s' :: ps) = true) (hp : s'.mark.toList = b :: before ++ '@' :: bs)
    (h : s.mark.toList ++ after = '@' :: bs ++ ps.flatMap Piece.marked) : False := by
  obtain ⟨c, u, hmark, hword, -⟩ := exists_mark_eq s
  obtain ⟨c', u', hmark', -, hnone⟩ := exists_mark_eq s'
  have hlast : bs = [] := by
    rw [hmark'] at hp
    exact eq_nil_of_concat_eq hnone (List.cons.inj hp).2
  obtain ⟨d, rest, rfl, hd⟩ := endsValue_of_guarded hg
  rw [hlast, hmark] at h
  obtain rfl : c = d := (List.cons.inj (List.cons.inj h).2).1
  rw [endsValue, List.head?_cons, Option.any_some, hword, Bool.or_true] at hd
  cases hd

/-- **A mark in a guarded template is a slot**: no other mark reaches into it. -/
theorem exists_slot_cut (hg : guarded ps = true)
    (h : ps.flatMap Piece.marked = before ++ (s.mark.toList ++ after)) :
    ∃ front back, ps = front ++ .slot s :: back ∧ front.flatMap Piece.marked = before ∧
      back.flatMap Piece.marked = after := by
  obtain ⟨c, u, hmark, -⟩ := exists_mark_eq s
  induction ps generalizing before with
  | nil =>
    rw [hmark] at h
    simp at h
  | cons p ps ih =>
    have hrest := guarded_of_cons hg
    rw [List.flatMap_cons] at h
    rcases List.append_eq_append_iff.1 h with ⟨before', rfl, h'⟩ | ⟨bs, hp, h'⟩
    · obtain ⟨front, back, rfl, rfl, rfl⟩ := ih hrest h'
      exact ⟨p :: front, back, rfl, List.flatMap_cons, rfl⟩
    cases bs with
    | nil =>
      -- the mark begins where the piece ends
      have hnext : ps.flatMap Piece.marked = [] ++ (s.mark.toList ++ after) := h'.symm
      obtain ⟨front, back, rfl, hfront, rfl⟩ := ih hrest hnext
      rw [List.append_nil] at hp
      exact ⟨p :: front, back, rfl, by rw [List.flatMap_cons, hp, hfront, List.append_nil], rfl⟩
    | cons a bs =>
      obtain rfl : '@' = a := by
        rw [hmark] at h'
        exact (List.cons.inj h').1
      cases p with
      | char d =>
        have hd := (Bool.and_eq_true_iff.1 hg).1
        have hmem : '@' ∈ Piece.marked (.char d) := by rw [hp]; simp
        rw [← List.mem_singleton.1 hmem] at hd
        cases hd
      | slot s' =>
        cases before with
        | nil =>
          -- the mark is that of the piece
          have hstart : s'.mark.toList = '@' :: bs := hp
          rw [← hstart] at h'
          obtain rfl : s = s' :=
            mark_unique (List.prefix_append _ after) (h' ▸ List.prefix_append _ _)
          exact ⟨[], ps, rfl, rfl, (List.append_cancel_left h').symm⟩
        | cons b before => exact (not_mark_inside hg hp h').elim

/-- **Equal texts carry equal values**: at each slot the same is read, and the same is left. -/
theorem carried?_eq_of_flatMap_eq (hg : guarded ps = true)
    (h : ps.flatMap (Piece.filled v.written) = ps.flatMap (Piece.filled v'.written)) :
    ∀ s, .slot s ∈ ps → v.carried? s = v'.carried? s := by
  induction ps with
  | nil => exact fun s hs => absurd hs List.not_mem_nil
  | cons p ps ih =>
    rw [List.flatMap_cons, List.flatMap_cons] at h
    have hrest := guarded_of_cons hg
    intro s hs
    cases p with
    | char c =>
      have hs : .slot s ∈ ps := by simpa using hs
      exact ih hrest (List.cons.inj h).2 s hs
    | slot s₀ =>
      -- reading is a function, so value and rest are the same on both sides
      have hread := readValue?_written v s₀ (endsValue_filled hg v.written)
      have hread' := readValue?_written v' s₀ (endsValue_filled hg v'.written)
      simp only [Piece.filled] at h
      rw [h, hread'] at hread
      obtain ⟨hvalue, hleft⟩ := Prod.mk.inj (Option.some.inj hread)
      rcases List.mem_cons.1 hs with hs | hs
      · cases hs
        exact hvalue.symm
      · exact ih hrest hleft.symm s hs

/-- The slots of the loader. -/
theorem guarded_layout : guarded layout = true ∧ ∀ s ∈ Slot.all, .slot s ∈ layout := by
  decide +kernel

theorem toList_text (v : Values) :
    (text v).toList = layout.flatMap (Piece.filled v.written) := by
  rw [text, String.toList_ofList, fill, fillFrom_eq]
  rfl

theorem compileMode_injective {k k' : Listing.Kind} (h : k.compileMode = k'.compileMode) :
    k = k' := by
  cases k <;> cases k' <;> first | rfl | exact absurd h (by decide)

/-- **A slot carries what it is to carry.** -/
theorem carries_carried? (v : Values) (s : Slot) : Carries v s (v.carried? s) := by
  cases s with
  | delimiter => exact .delimiter
  | script => exact .script
  | header => exact .header
  | body => exact .body
  | name => exact .name
  | mode =>
    rw [Values.carried?]
    cases hk : v.listing.kind with
    | expression => exact .single hk
    | script => exact .exec hk

/-- What the slots carry is the text of the listing, and what else a loader is made for. -/
theorem carried?_eq_iff : (∀ s, v.carried? s = v'.carried? s) ↔
    "\n".intercalate v.listing.header = "\n".intercalate v'.listing.header ∧
      "\n".intercalate v.listing.body = "\n".intercalate v'.listing.body ∧
        v.listing.kind = v'.listing.kind ∧ v.script = v'.script ∧ v.delimiter = v'.delimiter := by
  constructor
  · intro h
    have hbody : v.listing.bodyText ++ "\n" = v'.listing.bodyText ++ "\n" :=
      Option.some.inj (h .body)
    exact ⟨Option.some.inj (h .header), (String.append_left_inj _).1 hbody,
      compileMode_injective (Option.some.inj (h .mode)), Option.some.inj (h .script), h .delimiter⟩
  · rintro ⟨hheader, hbody, hkind, hscript, hdelimiter⟩ s
    cases s <;> simp only [Values.carried?, Listing.headerText, Listing.bodyText, hheader, hbody,
      hkind, hscript, hdelimiter]

/-- **The loader carries its values.** It is the template with each slot filled and nothing else
changed, line by line, and each mark in the template is a slot. There the interpreter reads the
value of that slot, and goes on where the template does. So two loaders are the same only if all
they carry is. -/
theorem text_carries (v : Values) :
    (template = layout.flatMap Piece.marked ∧
      (text v).toList = layout.flatMap (Piece.filled v.written)) ∧
    (∀ before s after, template = before ++ (s.mark.toList ++ after) →
      ∃ front back, layout = front ++ .slot s :: back ∧ front.flatMap Piece.marked = before ∧
        back.flatMap Piece.marked = after) ∧
    (∀ front s back, layout = front ++ .slot s :: back →
      ∃ value, Carries v s value ∧
        readValue? ((v.written s).toList ++ back.flatMap (Piece.filled v.written)) =
          some (value, back.flatMap (Piece.filled v.written))) ∧
    (Text.pieces '\n' (text v).toList = (Text.pieces '\n' template).map (fill v.written) ∧
      ∀ line ∈ Text.pieces '\n' template, '@' ∉ line → fill v.written line = line) ∧
    ∀ v', text v = text v' ↔
      "\n".intercalate v.listing.header = "\n".intercalate v'.listing.header ∧
        "\n".intercalate v.listing.body = "\n".intercalate v'.listing.body ∧
          v.listing.kind = v'.listing.kind ∧ v.script = v'.script ∧
            v.delimiter = v'.delimiter := by
  obtain ⟨hguarded, hslots⟩ := guarded_layout
  have htemplate : layout.flatMap Piece.marked = template := flatMap_marked 0 template
  refine ⟨⟨htemplate.symm, toList_text v⟩, fun before s after h => ?_,
    fun front s back h => ?_, ⟨?_, fun line _ hline => fill_of_not_mem v.written hline⟩,
    fun v' => ?_⟩
  · exact exists_slot_cut hguarded (htemplate.trans h)
  · rw [h] at hguarded
    have hends := endsValue_filled (guarded_of_append hguarded) v.written
    exact ⟨v.carried? s, carries_carried? v s, readValue?_written v s hends⟩
  · rw [text, String.toList_ofList]
    exact pieces_fill (newline_not_mem_written v) template
  · rw [← carried?_eq_iff]
    constructor
    · intro h s
      have hfill : layout.flatMap (Piece.filled v.written) =
          layout.flatMap (Piece.filled v'.written) := by
        rw [← toList_text, ← toList_text, h]
      exact carried?_eq_of_flatMap_eq hguarded hfill s (hslots s (by cases s <;> decide))
    · intro h
      have hwritten : v.written = v'.written := funext fun s => by
        rw [Values.written, Values.written, h s]
      rw [text, text, hwritten]

end Braceline.Loader
