import Braceline.CommandLine.Options

/-!
# What a command line asks for

Each option may be spelled in several ways, and options may stand in any order. However they are
spelled, the invocation is made of the values that were meant, in their order, of the script and of
its arguments, none of which is taken for an option.

* `Form.read`, `read_word`: one option with its value, in each spelling.
* `setDebug_said`, `give_said`: what one more option adds to what has been said.
* `Spells.read`: options in any order, by induction on their spelling.
* `parse_spelled`: the command line.
-/

namespace Braceline.CommandLine

/-- The letter that stands for an option. -/
def Valued.letter : Valued → Char
  | imports => 'i'
  | wildcards => 'f'
  | delimiter => 'F'

/-- An option that is set. -/
inductive Setting where
  | debug
  | valued (o : Valued) (value : String)
  deriving DecidableEq, Repr

/-- The values that settings give to an option. -/
def values (o : Valued) (ss : List Setting) : List String :=
  ss.filterMap fun
    | .debug => none
    | .valued o' value => if o' = o then some value else none

/-- **How an option with a value is spelled:** the letters from its own on, and the words that
follow them. -/
inductive Form (o : Valued) (value : String) : List Char → List String → Prop where
  /-- The value stands right after the letter. -/
  | attached (hne : value ≠ "") (he : value.toList.head? ≠ some '=') :
    Form o value (o.letter :: value.toList) []
  /-- It stands after an equals sign. -/
  | equals : Form o value (o.letter :: '=' :: value.toList) []
  /-- It is the next word. -/
  | next (hh : value.toList.head? ≠ some '-') : Form o value [o.letter] [value]

/-- **How options are spelled.** The letter without a value may stand alone, or in front of another
one. -/
inductive Spells : List Setting → List String → Prop where
  | nil : Spells [] []
  | debug {ss : List Setting} {ws : List String} (hs : Spells ss ws) :
    Spells (.debug :: ss) ("-d" :: ws)
  | valued {ss : List Setting} {ws next : List String} {o : Valued} {value : String}
    {letters : List Char} (hf : Form o value letters next) (hs : Spells ss ws) :
    Spells (.valued o value :: ss) (String.ofList ('-' :: letters) :: next ++ ws)
  | combined {ss : List Setting} {ws next : List String} {o : Valued} {value : String}
    {letters : List Char} (hf : Form o value letters next) (hs : Spells ss ws) :
    Spells (.debug :: .valued o value :: ss) (String.ofList ('-' :: 'd' :: letters) :: next ++ ws)

/-- No more than one debug option and no more than one delimiter. -/
structure Once (ss : List Setting) : Prop where
  debug : ss.count .debug ≤ 1
  delimiter : (values .delimiter ss).length ≤ 1

/-- What settings say. -/
def said (ss : List Setting) : Draft :=
  ⟨decide (.debug ∈ ss), values .imports ss, values .wildcards ss, (values .delimiter ss).head?,
    none⟩

/-- The invocation that is meant by settings, a script and its arguments. -/
def meant (ss : List Setting) (script : String) (args : List String) : Invocation where
  script := script
  args := args
  imports := values .imports ss
  wildcards := values .wildcards ss
  delimiter := (values .delimiter ss).head?
  debug := decide (.debug ∈ ss)

variable {d d' : Draft} {o : Valued} {value script : String} {letters cs : List Char} {c : Char}
  {next ws args : List String} {ss front : List Setting}

theorem ofChar?_letter (o : Valued) : Letter.ofChar? o.letter = some (.valued o) := by
  cases o <;> rfl

theorem letter_ne_hyphen (o : Valued) : o.letter ≠ '-' := by
  cases o <;> decide

theorem Form.exists_cons (h : Form o value letters next) : ∃ cs, letters = o.letter :: cs := by
  cases h <;> exact ⟨_, rfl⟩

/-! ### One word -/

/-- A word without a hyphen in front is plain. -/
theorem shape_of_head (h : value.toList.head? ≠ some '-') : Shape.ofWord value = .plain := by
  unfold Shape.ofWord
  split
  · next hw => rw [hw] at h; exact absurd rfl h
  · next hw => rw [hw] at h; exact absurd rfl h
  · next hw => rw [hw] at h; exact absurd rfl h
  · rfl

theorem reading_plain (h : value.toList.head? ≠ some '-') : d.reading value = .itself := by
  rw [Draft.reading, shape_of_head h]

/-- A hyphen and letters are options, as long as there is no script. -/
theorem reading_cluster (hd : d.script = none) (hc : c ≠ '-') :
    d.reading (String.ofList ('-' :: c :: cs)) = .letters (c :: cs) := by
  have hshape : Shape.ofWord (String.ofList ('-' :: c :: cs)) = .cluster (c :: cs) := by
    unfold Shape.ofWord
    rw [String.toList_ofList]
    split
    · next h => simp_all
    · next h => simp_all
    · next h => simp_all
    · next h => simp_all
  rw [Draft.reading, hshape]
  simp [hd]

/-- **An option with its value**, in each spelling: the value is given, and what follows is read
without it. -/
theorem Form.read (h : Form o value letters next) (hg : d.give o value = .ok d')
    (ws : List String) : ∃ d'' awaiting, readCluster d letters = .ok (d'', awaiting) ∧
      readArgs d'' awaiting (next ++ ws) = readArgs d' none ws := by
  cases h with
  | attached hne he =>
    refine ⟨d', none, ?_, rfl⟩
    simp only [readCluster, ofChar?_letter]
    split
    · next hnil => exact absurd (String.toList_eq_nil_iff.1 hnil) hne
    · next hcs => rw [hcs] at he; exact absurd rfl he
    · rw [String.ofList_toList, hg]
      rfl
  | equals =>
    refine ⟨d', none, ?_, rfl⟩
    simp only [readCluster, ofChar?_letter, String.ofList_toList, hg]
    rfl
  | next hh =>
    refine ⟨d, some o, by simp only [readCluster, ofChar?_letter], ?_⟩
    simp only [List.singleton_append, readArgs, reading_plain hh, hg]

/-- A word of letters, which may have the letter without a value in front. -/
theorem read_word (hd : d.script = none) (hf : Form o value letters next)
    (hg : d.give o value = .ok d') (ws : List String) :
    readArgs d none (String.ofList ('-' :: letters) :: next ++ ws) = readArgs d' none ws := by
  obtain ⟨d'', awaiting, hletters, hnext⟩ := hf.read hg ws
  obtain ⟨cs, hcs⟩ := hf.exists_cons
  have hreading : d.reading (String.ofList ('-' :: letters)) = .letters letters := by
    rw [hcs, reading_cluster hd (letter_ne_hyphen o)]
  simp only [List.cons_append, readArgs, hreading, hletters, hnext]

theorem read_combined {awaiting : Option Valued} {d'' : Draft} (hd : d.script = none)
    (hset : d.setDebug = .ok d') (letters : List Char)
    (hletters : readCluster d' letters = .ok (d'', awaiting)) (ws : List String) :
    readArgs d none (String.ofList ('-' :: 'd' :: letters) :: ws) = readArgs d'' awaiting ws := by
  have hreading : d.reading (String.ofList ('-' :: 'd' :: letters)) = .letters ('d' :: letters) :=
    reading_cluster hd (by decide)
  have hdebug : readCluster d ('d' :: letters) = .ok (d'', awaiting) := by
    simp only [readCluster, Letter.ofChar?, hset, hletters]
  simp only [readArgs, hreading, hdebug]

/-! ### What has been said -/

theorem values_append (o : Valued) (ss ss' : List Setting) :
    values o (ss ++ ss') = values o ss ++ values o ss' := List.filterMap_append

theorem values_concat_debug (o : Valued) (front : List Setting) :
    values o (front ++ [.debug]) = values o front := by
  rw [values_append, values, values, List.filterMap_cons_none rfl, List.filterMap_nil,
    List.append_nil]

theorem values_concat_valued (o o' : Valued) (value : String) (front : List Setting) :
    values o (front ++ [.valued o' value]) =
      values o front ++ if o' = o then [value] else [] := by
  rw [values_append]
  by_cases h : o' = o <;> simp [values, h]

/-- One more debug option is heeded if it is the first. -/
theorem setDebug_said (h : .debug ∉ front) :
    (said front).setDebug = .ok (said (front ++ [.debug])) := by
  have hfalse : decide (.debug ∈ front) = false := decide_eq_false h
  simp [Draft.setDebug, said, hfalse, values_concat_debug]

/-- One more value is heeded unless it is a second delimiter. -/
theorem give_said (h : o = .delimiter → values .delimiter front = []) (value : String) :
    (said front).give o value = .ok (said (front ++ [.valued o value])) := by
  cases o with
  | imports => simp [Draft.give, said, values_concat_valued]
  | wildcards => simp [Draft.give, said, values_concat_valued]
  | delimiter => simp [Draft.give, said, values_concat_valued, h rfl]

theorem Once.debug_not_mem (h : Once (front ++ .debug :: ss)) : .debug ∉ front := by
  have hcount := h.debug
  rw [List.count_append, List.count_cons_self] at hcount
  rw [← List.count_eq_zero]
  omega

theorem Once.values_eq_nil (h : Once (front ++ .valued o value :: ss)) (ho : o = .delimiter) :
    values .delimiter front = [] := by
  have hlength := h.delimiter
  have hone : values .delimiter (.valued o value :: ss) = value :: values .delimiter ss := by
    rw [ho]
    rfl
  rw [values_append, hone, List.length_append, List.length_cons] at hlength
  rw [← List.length_eq_zero_iff]
  omega

/-- **Options in any order**, however they are spelled: what they say is heeded, and nothing is left
of them when the words after them are read. -/
theorem Spells.read (h : Spells ss ws) (honce : Once (front ++ ss)) (rest : List String) :
    readArgs (said front) none (ws ++ rest) = readArgs (said (front ++ ss)) none rest := by
  -- what has been said grows by each option that is read
  induction h generalizing front with
  | nil => rw [List.nil_append, List.append_nil]
  | @debug ss ws _ ih =>
    have hset := setDebug_said honce.debug_not_mem
    rw [List.append_cons] at honce ⊢
    rw [← ih honce, List.cons_append]
    exact read_combined rfl hset [] rfl _
  | @valued ss ws next o value letters hf _ ih =>
    have hgive := give_said honce.values_eq_nil value
    rw [List.append_cons] at honce ⊢
    rw [← ih honce, List.append_assoc]
    exact read_word rfl hf hgive _
  | @combined ss ws next o value letters hf _ ih =>
    have hset := setDebug_said honce.debug_not_mem
    rw [List.append_cons] at honce ⊢
    have hgive := give_said honce.values_eq_nil value
    rw [List.append_cons] at honce ⊢
    obtain ⟨d, awaiting, hletters, hnext⟩ := hf.read hgive (ws ++ rest)
    rw [← ih honce, ← hnext, List.append_assoc]
    exact read_combined rfl hset letters hletters _

/-! ### The script and its arguments -/

/-- A plain word after the options is the script. -/
theorem readArgs_script (hd : d.script = none) (hh : script.toList.head? ≠ some '-')
    (args : List String) :
    readArgs d none (script :: args) = readArgs { d with script := some script } none args := by
  simp only [readArgs, reading_plain hh, hd]

/-- From a plain word after the script on, all words are arguments. -/
theorem readArgs_args (hd : d.script = some script)
    (hh : ∀ a ∈ args.head?, a.toList.head? ≠ some '-') :
    readArgs d none args = .ok (d.finish script args) := by
  cases args with
  | nil => simp only [readArgs, hd]
  | cons a args => simp only [readArgs, reading_plain (hh a rfl), hd]

/-- **A command line asks for what it spells.** Options that are spelled in any way and stand in any
order, followed by a script and its arguments, ask for the invocation of that script with those
arguments and those settings. Without an escape, neither the script nor its first argument may begin
with a hyphen; an escape in front of either lifts that, and is no argument itself. -/
theorem parse_spelled (h : Spells ss ws) (honce : Once ss) :
    (∀ script args, script.toList.head? ≠ some '-' →
      (∀ a ∈ args.head?, a.toList.head? ≠ some '-') →
      parse (ws ++ script :: args) = .ok (meant ss script args)) ∧
    (∀ script args, parse (ws ++ "--" :: script :: args) = .ok (meant ss script args)) ∧
    ∀ script args, script.toList.head? ≠ some '-' →
      parse (ws ++ script :: "--" :: args) = .ok (meant ss script args) := by
  have honce' : Once ([] ++ ss) := honce
  have hoptions (rest : List String) : parse (ws ++ rest) = readArgs (said ss) none rest :=
    h.read honce' rest
  refine ⟨fun script args hscript hargs => ?_, fun script args => ?_, fun script args hscript => ?_⟩
  · rw [hoptions, readArgs_script rfl hscript, readArgs_args rfl hargs]
    rfl
  · rw [hoptions, readArgs_escape]
    rfl
  · rw [hoptions, readArgs_script rfl hscript, readArgs_escape]
    rfl

/-- Each spelling once, a delimiter that is empty, and arguments that look like options. -/
theorem parse_spelled_mixed :
    (Spells [.debug, .valued .imports "os", .valued .delimiter "", .valued .wildcards "re,math"]
        ["-di", "os", "-F=", "-fre,math"] ∧
      Once [.debug, .valued .imports "os", .valued .delimiter "", .valued .wildcards "re,math"]) ∧
    parse ["-di", "os", "-F=", "-fre,math", "x", "a", "--", "-d"] = .ok
      { script := "x", args := ["a", "--", "-d"], imports := ["os"], wildcards := ["re,math"],
        delimiter := some "", debug := true } := by
  have hspells : Spells
      [.debug, .valued .imports "os", .valued .delimiter "", .valued .wildcards "re,math"]
      ["-di", "os", "-F=", "-fre,math"] :=
    .combined (.next (by decide))
      (.valued .equals (.valued (.attached (by decide) (by decide)) .nil))
  have honce : Once
      [.debug, .valued .imports "os", .valued .delimiter "", .valued .wildcards "re,math"] :=
    ⟨by decide, by decide⟩
  refine ⟨⟨hspells, honce⟩, ?_⟩
  exact (parse_spelled hspells honce).1 "x" ["a", "--", "-d"] (by decide) fun a ha => by
    obtain rfl := Option.some.inj ha
    decide

end Braceline.CommandLine
