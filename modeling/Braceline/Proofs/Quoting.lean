import Braceline.Proofs.Loading

/-!
# Words and their spellings

A word of a command line is spelled as a run of parts: bare characters, escaped ones, and texts in
quotes of either kind. Whatever the parts and whatever white space stands between the words, the
words are read back as they were meant, and they are what the interpreter is started with. A quote
or a backslash that is left open at the end makes the whole unreadable.

* `Inside.read`, `Part.read`, `Parts.read`: what is spelled is read, each by induction on the
  spelling.
* `Spells.split_eq`: a command line, by induction on its words.
* `Open.read_bare`, `Spells.split_open`: what is left open.
* `interpreter_recovered`: the interpreter of the settings.
-/

namespace Braceline

namespace Words

/-- **What stands between double quotes**, and the text that is meant by it. A backslash escapes
some characters, makes a line feed vanish, and stays in front of any other character. -/
inductive Inside : List Char → List Char → Prop where
  | nil : Inside [] []
  | plain {c : Char} {text value : List Char} (hq : c ≠ '"') (hb : c ≠ '\\')
    (h : Inside text value) : Inside (c :: text) (c :: value)
  | escaped {c : Char} {text value : List Char} (hc : isEscapable c = true)
    (h : Inside text value) : Inside ('\\' :: c :: text) (c :: value)
  | kept {c : Char} {text value : List Char} (hc : isEscapable c = false) (hn : c ≠ '\n')
    (h : Inside text value) : Inside ('\\' :: c :: text) ('\\' :: c :: value)
  | vanished {text value : List Char} (h : Inside text value) :
    Inside ('\\' :: '\n' :: text) value

/-- Does a character stand for itself in a word? -/
def isBare (c : Char) : Bool := !isSeparator c && c != '"' && c != '\'' && c != '\\'

/-- **A part of a word**, and the text that is meant by it. -/
inductive Part : List Char → List Char → Prop where
  | bare {c : Char} (hc : isBare c = true) : Part [c] [c]
  | escaped {c : Char} (hn : c ≠ '\n') : Part ['\\', c] [c]
  | single {value : List Char} (hq : '\'' ∉ value) : Part ('\'' :: value ++ ['\'']) value
  | double {text value : List Char} (h : Inside text value) : Part ('"' :: text ++ ['"']) value

/-- One part or more. -/
inductive Parts : List Char → List Char → Prop where
  | one {text value : List Char} (h : Part text value) : Parts text value
  | more {text value rest others : List Char} (h : Part text value) (hs : Parts rest others) :
    Parts (text ++ rest) (value ++ others)

/-- **A word** is spelled in parts. A hash sign in front of it would begin a comment. -/
structure Word (text value : List Char) : Prop where
  parts : Parts text value
  head : text.head? ≠ some '#'

/-- **A command line**, and its words. There is white space between two words, and there may be some
at either end. -/
inductive Spells : List Char → List String → Prop where
  | last {gap text value after : List Char} (hgap : gap.all isSeparator = true)
    (hw : Word text value) (hafter : after.all isSeparator = true) :
    Spells (gap ++ text ++ after) [String.ofList value]
  | more {gap text value rest : List Char} {s : Char} {ws : List String}
    (hgap : gap.all isSeparator = true) (hw : Word text value) (hs : isSeparator s = true)
    (hr : Spells rest ws) : Spells (gap ++ text ++ s :: rest) (String.ofList value :: ws)

/-- **What leaves a command line open** at its end. -/
inductive Open : List Char → Prop where
  | single {cs : List Char} (hq : '\'' ∉ cs) : Open ('\'' :: cs)
  | double {text value : List Char} (h : Inside text value) : Open ('"' :: text)
  | backslash : Open ['\\']

variable {text value rest gap tail w : List Char} {c : Char} {ws : List String}

/-! ### Words -/

/-- What stands between double quotes is read as it is meant. -/
theorem Inside.read (h : Inside text value) (w rest : List Char) :
    splitFrom (.double w) (text ++ rest) = splitFrom (.double (value.reverse ++ w)) rest := by
  induction h generalizing w with
  | nil => rfl
  | plain hq hb _ ih => simp [splitFrom, State.read, hq, hb, ih]
  | escaped hc _ ih => simp [splitFrom, State.read, hc, ih]
  | kept hc hn _ ih => simp [splitFrom, State.read, hc, hn, ih]
  | vanished _ ih => simp [splitFrom, State.read, isEscapable, ih]

/-- **A part of a word is read as it is meant.** -/
theorem Part.read (h : Part text value) (w rest : List Char) :
    splitFrom (.bare w) (text ++ rest) = splitFrom (.bare (value.reverse ++ w)) rest := by
  cases h with
  | bare hc =>
    simp only [isBare, Bool.and_eq_true, Bool.not_eq_true', bne_iff_ne, ne_eq] at hc
    obtain ⟨⟨⟨hs, hd⟩, hq⟩, hb⟩ := hc
    simp [splitFrom, State.read, State.inWord, hs, hd, hq, hb]
  | escaped hn => simp [splitFrom, State.read, State.inWord, isSeparator, hn]
  | single hq =>
    have hquote (c : Char) (hc : c ∈ value) : c ≠ '\'' := fun h => hq (h ▸ hc)
    rw [List.cons_append, List.cons_append, List.append_assoc, List.singleton_append,
      ← splitFrom_single hquote]
    rfl
  | double h =>
    rw [List.cons_append, List.cons_append, List.append_assoc, List.singleton_append]
    exact h.read w ('"' :: rest)

theorem Parts.read (h : Parts text value) (w rest : List Char) :
    splitFrom (.bare w) (text ++ rest) = splitFrom (.bare (value.reverse ++ w)) rest := by
  induction h generalizing w with
  | one h => exact h.read w rest
  | more h _ ih => rw [List.append_assoc, h.read, ih, List.reverse_append, List.append_assoc]

/-- No part begins with white space. -/
theorem Parts.exists_cons (h : Parts text value) :
    ∃ c cs, text = c :: cs ∧ isSeparator c = false := by
  have hpart {text value : List Char} (h : Part text value) :
      ∃ c cs, text = c :: cs ∧ isSeparator c = false := by
    cases h with
    | bare hc =>
      simp only [isBare, Bool.and_eq_true, Bool.not_eq_true'] at hc
      exact ⟨_, _, rfl, hc.1.1.1⟩
    | escaped _ => exact ⟨_, _, rfl, by decide⟩
    | single _ => exact ⟨_, _, rfl, by decide⟩
    | double _ => exact ⟨_, _, rfl, by decide⟩
  cases h with
  | one h => exact hpart h
  | more h _ =>
    obtain ⟨c, cs, rfl, hc⟩ := hpart h
    exact ⟨c, _, rfl, hc⟩

/-- Between words, a character that is neither white space nor a hash sign begins a word. -/
theorem splitFrom_gap_cons (hs : isSeparator c = false) (hh : c ≠ '#') (cs : List Char) :
    splitFrom .gap (c :: cs) = splitFrom (.bare []) (c :: cs) := by
  simp [splitFrom, State.read, hs, hh]

/-- White space between words does not count. -/
theorem splitFrom_gap (h : gap.all isSeparator = true) (rest : List Char) :
    splitFrom .gap (gap ++ rest) = splitFrom .gap rest := by
  induction gap with
  | nil => rfl
  | cons s gap ih =>
    rw [List.all_cons, Bool.and_eq_true] at h
    simp [splitFrom, State.read, h.1, ih h.2]

/-- **A word is read as it is meant**, after any white space. -/
theorem Word.read (h : Word text value) (hgap : gap.all isSeparator = true) (rest : List Char) :
    splitFrom .gap (gap ++ text ++ rest) = splitFrom (.bare value.reverse) rest := by
  obtain ⟨c, cs, hcs, hs⟩ := h.parts.exists_cons
  have hh : c ≠ '#' := by
    rintro rfl
    exact h.head (by rw [hcs]; rfl)
  rw [List.append_assoc, splitFrom_gap hgap, hcs, List.cons_append, splitFrom_gap_cons hs hh,
    ← List.cons_append, ← hcs, h.parts.read, List.append_nil]

theorem splitFrom_bare_separator (h : isSeparator c = true) (w rest : List Char) :
    splitFrom (.bare w) (c :: rest) = (splitFrom .gap rest).map (w.reverse :: ·) := by
  simp [splitFrom, State.read, h]

/-! ### Command lines -/

/-- **The words of a command line are read as they are meant.** -/
theorem Spells.split_eq {line : String} (h : Spells line.toList ws) : split? line = some ws := by
  rw [split?]
  generalize line.toList = text at h
  induction h with
  | @last gap text value after hgap hw hafter =>
    rw [hw.read hgap]
    cases after with
    | nil => simp [splitFrom, State.finish]
    | cons s after =>
      rw [List.all_cons, Bool.and_eq_true] at hafter
      have hend : splitFrom .gap after = some [] := by
        rw [← List.append_nil after, splitFrom_gap hafter.2]
        rfl
      simp [splitFrom_bare_separator hafter.1, hend]
  | more hgap hw hs _ ih =>
    obtain ⟨words, hwords, rfl⟩ := Option.map_eq_some_iff.1 ih
    rw [hw.read hgap, splitFrom_bare_separator hs, hwords, List.reverse_reverse]
    rfl

theorem Spells.ne_nil (h : Spells text ws) : ws ≠ [] := by
  cases h <;> exact List.cons_ne_nil _ _

/-- What is left open in a word leaves no words. -/
theorem Open.read_bare (h : Open tail) (w : List Char) : splitFrom (.bare w) tail = none := by
  cases h with
  | @single cs hq =>
    have hquote (c : Char) (hc : c ∈ cs) : c ≠ '\'' := fun h => hq (h ▸ hc)
    exact splitFrom_single_eq_none hquote w
  | @double text value h =>
    have hread := h.read w []
    rw [List.append_nil] at hread
    exact hread
  | backslash => rfl

/-- What is left open between words, too. -/
theorem Open.read_gap (h : Open tail) : splitFrom .gap tail = none := by
  obtain ⟨c, cs, rfl, hs, hh⟩ : ∃ c cs, tail = c :: cs ∧ isSeparator c = false ∧ c ≠ '#' := by
    cases h <;> exact ⟨_, _, rfl, by decide, by decide⟩
  rw [splitFrom_gap_cons hs hh, h.read_bare]

/-- **A command line that is left open has no words.** -/
theorem Spells.split_open {line tail : String} (h : Spells line.toList ws) (ho : Open tail.toList) :
    split? (line ++ tail) = none := by
  rw [split?, String.toList_append, Option.map_eq_none_iff]
  generalize line.toList = text at h
  generalize tail.toList = tail at ho
  induction h with
  | @last gap text value after hgap hw hafter =>
    rw [List.append_assoc, hw.read hgap]
    -- the last word goes on into what is open, unless white space ends it
    cases after with
    | nil => exact ho.read_bare _
    | cons s after =>
      rw [List.all_cons, Bool.and_eq_true] at hafter
      rw [List.cons_append, splitFrom_bare_separator hafter.1, splitFrom_gap hafter.2, ho.read_gap]
      rfl
  | more hgap hw hs _ ih =>
    rw [List.append_assoc, hw.read hgap, List.cons_append, splitFrom_bare_separator hs, ih]
    rfl

end Words

/-! ### The interpreter -/

variable {s s' : Settings} {ws : List String} {tail : String}

/-- A command line that is left open is a fault. -/
theorem interpreterWords_open (h : Words.Spells s.interpreter.toList ws)
    (ho : Words.Open tail.toList) (hs : s'.interpreter = s.interpreter ++ tail) :
    ∀ w ws, Words.split? s'.interpreter ≠ some (w :: ws) := by
  intro w ws' hwords
  rw [hs, h.split_open ho] at hwords
  cases hwords

/-- **The interpreter is started with the words that are meant.** However they are spelled, the
settings are not at fault for them. The first word is the program, and the others stand before the
text that it is to run and that text's arguments. If the command line is left open at its end, that
is the fault, and it names the whole command line. -/
theorem interpreter_recovered (h : Words.Spells s.interpreter.toList ws) :
    (s.interpreterWords = .ok ws ∧
      (∀ command, s.validate ≠ .error (.interpreter command)) ∧
      (1 ≤ s.indentWidth ∧ s.indentWidth ≤ 8 → s.delimiter ≠ some "" → s.validate = .ok ())) ∧
    (∃ w more, ws = w :: more ∧
      (∀ text args, (s.interpreterWords.map fun words => Command.interpret words text args) =
        .ok ⟨w, more ++ "-c" :: text :: args⟩) ∧
      ∀ (inv : Invocation) (l : Listing), inv.commandFor s l =
        (inv.loaderFor s l).map fun text => ⟨w, more ++ "-c" :: text :: inv.args⟩) ∧
    ∀ (s' : Settings) (tail : String), Words.Open tail.toList →
      s'.interpreter = s.interpreter ++ tail →
      s'.interpreterWords = .error (.interpreter (s.interpreter ++ tail)) ∧
      (1 ≤ s'.indentWidth ∧ s'.indentWidth ≤ 8 → s'.delimiter ≠ some "" →
        s'.validate = .error (.interpreter (s.interpreter ++ tail))) ∧
      ∀ (inv : Invocation) (l : Listing) (text : String), inv.loaderFor s' l = .ok text →
        inv.commandFor s' l = .error (.interpreter (s.interpreter ++ tail)) := by
  obtain ⟨w, more, rfl⟩ := List.exists_cons_of_ne_nil h.ne_nil
  have hsplit := h.split_eq
  have hwords := Settings.interpreterWords_eq_ok hsplit
  refine ⟨⟨hwords, fun command hvalidate => ?_, fun hwidth hdelimiter => ?_⟩,
    ⟨w, more, rfl, fun text args => ?_, fun inv l => ?_⟩, fun s' tail ho hs => ?_⟩
  · cases Settings.validate_eq_error_iff.1 hvalidate with
    | interpreter _ _ hnone => exact hnone w more hsplit
  · exact Settings.Usable.validate_eq ⟨hwidth, hdelimiter, w, more, hsplit⟩
  · rw [hwords]
    rfl
  · rw [Invocation.commandFor, hwords]
    cases inv.loaderFor s l <;> rfl
  · have hopen := interpreterWords_open h ho hs
    have herror := Settings.interpreterWords_eq_error hopen
    refine ⟨by rw [herror, hs], fun hwidth hdelimiter => ?_, fun inv l text htext => ?_⟩
    · rw [(Settings.Wrong.interpreter hwidth hdelimiter hopen).validate_eq, hs]
    · rw [Invocation.commandFor, htext, herror, hs]
      rfl

/-- A word in parts of several kinds, an empty word, and a quote that is left open. -/
theorem interpreter_recovered_parts :
    Words.Spells "p\\y\"3 \\$\" ''".toList ["py3 $", ""] ∧
      { Settings.default with interpreter := "p\\y\"3 \\$\" ''" }.interpreterWords =
        .ok ["py3 $", ""] ∧
      { Settings.default with interpreter := "p\\y\"3 \\$\" ''\"a" }.validate =
        .error (.interpreter "p\\y\"3 \\$\" ''\"a") := by
  have hfirst : Words.Word ['p', '\\', 'y', '"', '3', ' ', '\\', '$', '"']
      ['p', 'y', '3', ' ', '$'] :=
    ⟨.more (.bare (by decide)) (.more (.escaped (by decide)) (.one (.double
      (.plain (by decide) (by decide) (.plain (by decide) (by decide)
        (.escaped (by decide) .nil)))))), by decide⟩
  have hempty : Words.Word ['\'', '\''] [] := ⟨.one (.single List.not_mem_nil), by decide⟩
  have htext : "p\\y\"3 \\$\" ''".toList =
      [] ++ ['p', '\\', 'y', '"', '3', ' ', '\\', '$', '"'] ++
        ' ' :: ([] ++ ['\'', '\''] ++ []) := by
    decide
  have h : Words.Spells "p\\y\"3 \\$\" ''".toList ["py3 $", ""] := by
    rw [htext]
    exact .more rfl hfirst (by decide) (.last rfl hempty rfl)
  have ho : Words.Open "\"a".toList := .double (.plain (by decide) (by decide) .nil)
  have hrecovered :=
    interpreter_recovered (s := { Settings.default with interpreter := "p\\y\"3 \\$\" ''" }) h
  exact ⟨h, hrecovered.1.1, (hrecovered.2.2 { Settings.default with
    interpreter := "p\\y\"3 \\$\" ''\"a" } "\"a" ho rfl).2.1 ⟨by decide, by decide⟩ (by decide)⟩

end Braceline
