import Braceline.Proofs.Skeleton
import Mathlib.Data.List.Forall2

/-!
# Scripts with one skeleton

Two scripts may differ in what their literals and comments say and still have one skeleton. Their
braces then open and close the same blocks at the same levels, their segments end at the same
places and make lines of the same kinds, and a fault at a place of one is the same fault at the
place of the other that has the same skeleton before it.

* `Written.side_by_side`: two scripts with one skeleton can be gone through together.
* `openBlocks_congr`, `livePlaces_congr`: their open blocks and their live places are twins.
* `Twins.fault?_eq`, `Twins.outline_eq`: twins make one fault and lines of one outline.
* `firstFault?_congr`, `outlineAfter_congr`: what the scripts have in common.
* `expand_of_skeleton_eq`: either both expand, to programs of one outline, or both have one fault.
-/

namespace Braceline

/-- The same fault at another offset. -/
def ScriptError.moved (o : Nat) : ScriptError → ScriptError
  | unterminatedLiteral _ f => unterminatedLiteral o f
  | unbalancedBrace _ => unbalancedBrace o
  | unclosedBrace _ => unclosedBrace o
  | nestingTooDeep _ => nestingTooDeep o
  | missingBlockHeader _ => missingBlockHeader o
  | repeatedEachLine _ => repeatedEachLine o

/-- Places of one live character with one skeleton before them. -/
structure Place.Alike (p p' : Place) : Prop where
  live : p.mark.live = true ∧ p'.mark.live = true
  char : p.mark.char = p'.mark.char
  before : skeleton p.before = skeleton p'.before

/-- Two faults of one kind, found at braces of the two scripts that are alike. -/
structure SameFault (ms ms' : List Mark) (e e' : ScriptError) : Prop where
  kind : e' = e.moved e'.offset
  braces : ∃ p ∈ places ms, ∃ p' ∈ places ms', (p.mark.is '{' || p.mark.is '}') = true ∧
    p.mark.offset = e.offset ∧ p'.mark.offset = e'.offset ∧ p.Alike p'

/-- Expansions that differ in nothing but the texts of their lines and the offset of their fault. -/
def SameStructure (ms ms' : List Mark) :
    Except ScriptError Program → Except ScriptError Program → Prop
  | .ok p, .ok p' => p.lines.length = p'.lines.length ∧ p.outline = p'.outline ∧
      p.structural = p'.structural ∧ p.isExpression = p'.isExpression ∧
      p.hasEachLine = p'.hasEachLine
  | .error e, .error e' => SameFault ms ms' e e'
  | _, _ => False

variable {ms ms' run b b' : List Mark} {sk : List (Option Char)} {p p' : Place} {m : Mark}
  {o o' : Nat} {c : Char}

/-- Live places of scans with one skeleton before them. -/
inductive Place.Twins : Place → Place → Prop where
  | intro {b b' : List Mark} {sk : List (Option Char)} {c : Char} (o o' : Nat) (h : Written b sk)
    (h' : Written b' sk) (hc : c ≠ '\n' → Settled b ∧ Settled b') :
    Twins ⟨b.reverse, ⟨o, c, true⟩⟩ ⟨b'.reverse, ⟨o', c, true⟩⟩

/-- The places of a script that are live. -/
def livePlaces (ms : List Mark) : List Place := (places ms).filter fun p => p.mark.live

theorem ScriptError.offset_moved (e : ScriptError) (o : Nat) : (e.moved o).offset = o := by
  cases e <;> rfl

/-! ### Inert marks -/

theorem is_of_not_live (h : m.live = false) : m.is c = false := by
  rw [Mark.is, h, Bool.false_and]

/-- Inert marks open and close no block. -/
theorem openBlocks_append_inert (ms : List Mark) (h : ∀ m ∈ run, m.live = false) :
    openBlocks (ms ++ run) = openBlocks ms := by
  induction run using List.reverseRecOn with
  | nil => rw [List.append_nil]
  | append_singleton run m ih =>
    have hm : m.live = false := h m (by simp)
    rw [← List.append_assoc, openBlocks_concat_other _ (is_of_not_live hm) (is_of_not_live hm)]
    exact ih fun m hm => h m (List.mem_append_left _ hm)

theorem livePlaces_append_inert (ms : List Mark) (h : ∀ m ∈ run, m.live = false) :
    livePlaces (ms ++ run) = livePlaces ms := by
  induction run using List.reverseRecOn with
  | nil => rw [List.append_nil]
  | append_singleton run m ih =>
    have hm : m.live = false := h m (by simp)
    rw [← List.append_assoc, livePlaces, places_concat, List.filter_append, ← livePlaces,
      ih fun m hm => h m (List.mem_append_left _ hm)]
    simp [hm]

theorem livePlaces_concat_live (ms : List Mark) (o : Nat) (c : Char) :
    livePlaces (ms ++ [⟨o, c, true⟩]) = livePlaces ms ++ [⟨ms, ⟨o, c, true⟩⟩] := by
  rw [livePlaces, places_concat, List.filter_append]
  rfl

/-- A place that is not live opens no loop, ends no segment and makes no fault. -/
theorem Place.of_inert (h : p.mark.live = false) :
    p.isLoop = false ∧ p.outline = [] ∧ p.fault? = none := by
  have hl : p.isLoop = false := isLoop_eq_false (is_of_not_live h)
  refine ⟨hl, ?_, ?_⟩
  · simp [outline, hl, endsStatement, is_of_not_live h]
  · simp [fault?, hl, is_of_not_live h]

theorem any_isLoop_livePlaces (ms : List Mark) :
    (livePlaces ms).any Place.isLoop = (places ms).any Place.isLoop := by
  rw [livePlaces, List.any_filter]
  congr 1
  funext p
  cases hp : p.mark.live with
  | true => rfl
  | false => rw [(Place.of_inert hp).1, Bool.false_and]

theorem findSome?_livePlaces (ms : List Mark) :
    (livePlaces ms).findSome? Place.fault? = firstFault? ms := by
  rw [livePlaces, firstFault?, ← List.head?_filterMap, List.filterMap_filter,
    ← List.head?_filterMap]
  congr 2
  funext p
  cases hp : p.mark.live with
  | true => rfl
  | false => rw [(Place.of_inert hp).2.2]; rfl

theorem flatMap_outline_livePlaces (ms : List Mark) :
    (livePlaces ms).flatMap Place.outline = (places ms).flatMap Place.outline := by
  rw [livePlaces]
  induction places ms with
  | nil => rfl
  | cons p ps ih =>
    cases hp : p.mark.live with
    | true =>
      rw [List.filter_cons_of_pos (by simpa using hp), List.flatMap_cons, List.flatMap_cons, ih]
    | false =>
      rw [List.filter_cons_of_neg (by simp [hp]), List.flatMap_cons, ih, (Place.of_inert hp).2.1,
        List.nil_append]

/-! ### Places with one skeleton before them -/

theorem blank_congr (h : Written b sk) (h' : Written b' sk) :
    (segmentAfter b.reverse).all Text.isBlank = (segmentAfter b'.reverse).all Text.isBlank := by
  rw [segmentAfter, segmentAfter, List.reverse_reverse, List.reverse_reverse, List.all_reverse,
    List.all_reverse]
  exact isBlank_congr h h'

namespace Place.Twins

theorem alike (h : p.Twins p') : p.Alike p' := by
  cases h with
  | intro o o' h h' hc =>
    exact ⟨⟨rfl, rfl⟩, rfl, h.skeleton_eq.trans h'.skeleton_eq.symm⟩

theorem is_eq (h : p.Twins p') (c : Char) : p.mark.is c = p'.mark.is c := by
  cases h
  rfl

theorem isLoop_eq (h : p.Twins p') : p.isLoop = p'.isLoop := by
  cases h with
  | @intro b b' sk c o o' h h' hc =>
    by_cases ho : c = '{'
    · -- before a brace both are settled, so the skeleton tells whether the loop's word is there
      obtain ⟨hs, hs'⟩ := hc (by rw [ho]; decide)
      rw [isLoop, isLoop, segmentAfter, segmentAfter, List.reverse_reverse, List.reverse_reverse]
      congr 1
      rw [Bool.eq_iff_iff, endsInLoop_iff h hs, endsInLoop_iff h' hs']
    · rw [isLoop_eq_false (by simpa using ho), isLoop_eq_false (by simpa using ho)]

theorem step_eq (h : p.Twins p') : p.step = p'.step := by rw [step, step, h.isLoop_eq]

end Place.Twins

/-- **Two scripts with one skeleton can be gone through side by side**: a run of inert characters
against a run of inert characters, and a live character against itself. -/
theorem Written.side_by_side {P : List Mark → List Mark → Prop} (hnil : P [] [])
    (hinert : ∀ run run' b b', InertRun run → InertRun run' → P b b' → P (run ++ b) (run' ++ b'))
    (hlive : ∀ o o' c b b', Place.Twins ⟨b.reverse, ⟨o, c, true⟩⟩ ⟨b'.reverse, ⟨o', c, true⟩⟩ →
      P b b' → P (⟨o, c, true⟩ :: b) (⟨o', c, true⟩ :: b'))
    (h : Written b sk) (h' : Written b' sk) : P b b' := by
  induction sk generalizing b b' with
  | nil =>
    cases h
    cases h'
    exact hnil
  | cons x sk ih =>
    cases h with
    | inert hr h =>
      cases h' with
      | inert hr' h' => exact hinert _ _ _ _ hr hr' (ih h h')
    | live o c h hs =>
      cases h' with
      | live o' _ h' hs' =>
        have hp := Place.Twins.intro o o' h h' fun hn => ⟨hs hn, hs' hn⟩
        exact hlive o o' c _ _ hp (ih h h')

/-- **The open blocks** of one skeleton are those of braces that are twins. -/
theorem openBlocks_congr (h : Written b sk) (h' : Written b' sk) :
    List.Forall₂ Place.Twins (openBlocks b.reverse) (openBlocks b'.reverse) := by
  refine Written.side_by_side (P := fun b b' => List.Forall₂ Place.Twins (openBlocks b.reverse)
    (openBlocks b'.reverse)) .nil ?_ ?_ h h'
  · intro run run' b b' hr hr' ih
    rw [List.reverse_append, List.reverse_append, openBlocks_append_inert, openBlocks_append_inert]
    · exact ih
    · exact fun m hm => hr'.inert m (List.mem_reverse.1 hm)
    · exact fun m hm => hr.inert m (List.mem_reverse.1 hm)
  · intro o o' c b b' hp ih
    rw [List.reverse_cons, List.reverse_cons]
    by_cases ho : c = '{'
    · rw [openBlocks_concat_open _ (by simpa using ho),
        openBlocks_concat_open _ (by simpa using ho)]
      exact List.rel_append ih (.cons hp .nil)
    by_cases hc : c = '}'
    · -- both lose their innermost block, if they have one
      rw [openBlocks_concat_close _ (by simpa using hc),
        openBlocks_concat_close _ (by simpa using hc)]
      rw [List.dropLast_eq_take, List.dropLast_eq_take, ih.length_eq]
      exact List.forall₂_take _ ih
    · rw [openBlocks_concat_other _ (by simpa using ho) (by simpa using hc),
        openBlocks_concat_other _ (by simpa using ho) (by simpa using hc)]
      exact ih

/-- **The live places** of one skeleton are twins. -/
theorem livePlaces_congr (h : Written b sk) (h' : Written b' sk) :
    List.Forall₂ Place.Twins (livePlaces b.reverse) (livePlaces b'.reverse) := by
  refine Written.side_by_side (P := fun b b' => List.Forall₂ Place.Twins (livePlaces b.reverse)
    (livePlaces b'.reverse)) .nil ?_ ?_ h h'
  · intro run run' b b' hr hr' ih
    rw [List.reverse_append, List.reverse_append, livePlaces_append_inert, livePlaces_append_inert]
    · exact ih
    · exact fun m hm => hr'.inert m (List.mem_reverse.1 hm)
    · exact fun m hm => hr.inert m (List.mem_reverse.1 hm)
  · intro o o' c b b' hp ih
    rw [List.reverse_cons, List.reverse_cons, livePlaces_concat_live, livePlaces_concat_live]
    exact List.rel_append ih (.cons hp .nil)

/-- What twins have in common, lists of twins have in common one by one. -/
theorem map_eq_of_twins {α : Type} {f : Place → α} {ps ps' : List Place}
    (h : List.Forall₂ Place.Twins ps ps') (hf : ∀ p p', p.Twins p' → f p = f p') :
    ps.map f = ps'.map f := by
  induction h with
  | nil => rfl
  | cons hp _ ih => rw [List.map_cons, List.map_cons, hf _ _ hp, ih]

theorem levelAfter_congr (h : Written b sk) (h' : Written b' sk) :
    levelAfter b.reverse = levelAfter b'.reverse := by
  have hsteps := map_eq_of_twins (openBlocks_congr h h') fun _ _ hp => hp.step_eq
  rw [levelAfter, levelAfter, hsteps]

theorem isEmpty_openBlocks_congr (h : Written b sk) (h' : Written b' sk) :
    (openBlocks b.reverse).isEmpty = (openBlocks b'.reverse).isEmpty := by
  have hopen := openBlocks_congr h h'
  rw [Bool.eq_iff_iff, List.isEmpty_iff_length_eq_zero, List.isEmpty_iff_length_eq_zero,
    hopen.length_eq]

theorem any_isLoop_congr (h : Written b sk) (h' : Written b' sk) :
    (places b.reverse).any Place.isLoop = (places b'.reverse).any Place.isLoop := by
  have hloops := map_eq_of_twins (livePlaces_congr h h') fun _ _ hp => hp.isLoop_eq
  have hany := congrArg (List.any · id) hloops
  simp only [List.any_map, Function.id_comp] at hany
  rw [← any_isLoop_livePlaces, ← any_isLoop_livePlaces, hany]

namespace Place.Twins

/-- **Twins make one fault**, or none. -/
theorem fault?_eq (hp : p.Twins p') : p'.fault? = p.fault?.map (·.moved p'.mark.offset) := by
  have hloop := hp.isLoop_eq
  have hstep := hp.step_eq
  have hopen := hp.is_eq '{'
  have hclose := hp.is_eq '}'
  cases hp with
  | intro o o' h h' hc =>
    unfold fault?
    -- every test comes out alike, so both take the same branch
    rw [← hloop, ← hstep, ← hopen, ← hclose, ← isEmpty_openBlocks_congr h h',
      ← any_isLoop_congr h h', ← blank_congr h h', ← levelAfter_congr h h']
    split
    · rfl
    split
    · rfl
    split
    · rfl
    split <;> rfl

theorem endsStatement_eq (hp : p.Twins p') : p.endsStatement = p'.endsStatement := by
  have hbreak := hp.is_eq '\n'
  have hsemi := hp.is_eq ';'
  have hclose := hp.is_eq '}'
  cases hp with
  | @intro b b' sk c o o' h h' hc =>
    have hcont : Segment.continues b = Segment.continues b' := by
      rw [Bool.eq_iff_iff, continues_iff h, continues_iff h']
    unfold endsStatement
    rw [hbreak, hsemi, hclose, List.reverse_reverse, List.reverse_reverse, hcont]

end Place.Twins

theorem outlineOf_congr {l l' : Nat} {t t' : List Char} (hl : l = l')
    (ht : t.all Text.isBlank = t'.all Text.isBlank) : outlineOf l t = outlineOf l' t' := by
  rw [outlineOf, outlineOf, hl, ht]

/-- Where a segment ends in the loop's word, the skeleton tells whether anything stands before. -/
theorem blank_before_congr (h : Written b sk) (h' : Written b' sk) (hs : Settled b)
    (hloop : endsInLoop (segmentAfter b.reverse) = true) :
    (segmentAfter b.reverse).dropLast.dropLast.all Text.isBlank =
      (segmentAfter b'.reverse).dropLast.dropLast.all Text.isBlank := by
  have hL : Text.isWordChar 'L' = true := by decide +kernel
  have hE : Text.isWordChar 'E' = true := by decide +kernel
  have hdrop (o o' : Nat) (rest : List Mark) :
      (segmentAfter (⟨o, 'L', true⟩ :: ⟨o', 'E', true⟩ :: rest).reverse).dropLast.dropLast =
        (Segment.textBack rest).reverse := by
    rw [segmentAfter, List.reverse_reverse, textBack_word hL, textBack_word hE]
    simp
  rw [segmentAfter, List.reverse_reverse, endsInLoop_iff h hs] at hloop
  -- the skeleton ends in the two letters, and so do both texts
  obtain ⟨sk', rfl, -⟩ := hloop
  cases h with
  | live o _ h =>
    cases h with
    | live o₁ _ h =>
      cases h' with
      | live o' _ h' =>
        cases h' with
        | live o₁' _ h' =>
          rw [hdrop, hdrop, List.all_reverse, List.all_reverse]
          exact isBlank_congr h h'

/-- **Twins make lines of one outline.** -/
theorem Place.Twins.outline_eq (hp : p.Twins p') : p.outline = p'.outline := by
  have hloop := hp.isLoop_eq
  have hends := hp.endsStatement_eq
  have hopen := hp.is_eq '{'
  cases hp with
  | @intro b b' sk c o o' h h' hc =>
    have hlevel := levelAfter_congr h h'
    have hstatement := outlineOf_congr hlevel (blank_congr h h')
    unfold Place.outline
    rw [← hloop, ← hends, ← hopen, ← hlevel]
    simp only at hstatement ⊢
    split
    · -- the statement before the loop's word is there in both, or in none
      next hl =>
      rw [Place.isLoop, Bool.and_eq_true] at hl
      have hbrace : c = '{' := by simpa using hl.1
      have hs := (hc (by rw [hbrace]; decide)).1
      rw [outlineOf_congr rfl (blank_before_congr h h' hs hl.2)]
    · split
      · rfl
      · split
        · rw [hstatement, hlevel]
        · rfl

/-! ### Scripts with one skeleton -/

theorem outlineAfter_congr (h : Written b sk) (h' : Written b' sk) :
    outlineAfter b.reverse = outlineAfter b'.reverse := by
  have houtlines := map_eq_of_twins (livePlaces_congr h h') fun _ _ hp => hp.outline_eq
  rw [outlineAfter, outlineAfter, outlineOf_congr (levelAfter_congr h h') (blank_congr h h'),
    ← flatMap_outline_livePlaces, ← flatMap_outline_livePlaces, List.flatMap_def,
    List.flatMap_def, houtlines]

theorem mem_livePlaces : p ∈ livePlaces ms ↔ p ∈ places ms ∧ p.mark.live = true := by
  simp [livePlaces]

/-- A fault is found at a brace, and carries its offset. -/
theorem of_fault? {e : ScriptError} (h : p.fault? = some e) :
    (p.mark.is '{' || p.mark.is '}') = true ∧ p.mark.offset = e.offset := by
  unfold Place.fault? at h
  split at h
  · next hc =>
    cases h
    rw [Bool.and_eq_true] at hc
    simp [hc.1, ScriptError.offset]
  split at h
  · next hl =>
    cases h
    rw [Place.isLoop, Bool.and_eq_true, Bool.and_eq_true] at hl
    simp [hl.1.1, ScriptError.offset]
  split at h
  · next ho =>
    cases h
    rw [Bool.and_eq_true, Bool.and_eq_true] at ho
    simp [ho.1.1, ScriptError.offset]
  split at h
  · next ho =>
    cases h
    rw [Bool.and_eq_true] at ho
    simp [ho.1, ScriptError.offset]
  · cases h

/-- **The first faults** are at places that are alike. -/
theorem firstFault?_congr (h : Written b sk) (h' : Written b' sk) :
    Option.Rel (SameFault b.reverse b'.reverse) (firstFault? b.reverse)
      (firstFault? b'.reverse) := by
  have hlive := livePlaces_congr h h'
  rw [← findSome?_livePlaces, ← findSome?_livePlaces]
  have hmem : ∀ p ∈ livePlaces b.reverse, p ∈ places b.reverse :=
    fun p hp => (mem_livePlaces.1 hp).1
  have hmem' : ∀ p ∈ livePlaces b'.reverse, p ∈ places b'.reverse :=
    fun p hp => (mem_livePlaces.1 hp).1
  generalize livePlaces b.reverse = ps at *
  generalize livePlaces b'.reverse = ps' at *
  induction hlive with
  | nil => exact .none
  | @cons p p' ps ps' hp _ ih =>
    rw [List.findSome?_cons, List.findSome?_cons, hp.fault?_eq]
    cases hf : p.fault? with
    | none => exact ih (fun q hq => hmem q (by simp [hq])) fun q hq => hmem' q (by simp [hq])
    | some e =>
      obtain ⟨hbrace, hoffset⟩ := of_fault? hf
      exact .some ⟨by rw [e.offset_moved], p, hmem p (by simp), p', hmem' p' (by simp), hbrace,
        hoffset, (e.offset_moved _).symm, hp.alike⟩

/-- **The outermost open blocks** are those of places that are alike. -/
theorem unclosedBrace_congr (h : Written b sk) (h' : Written b' sk) :
    Option.Rel (fun p p' => SameFault b.reverse b'.reverse (.unclosedBrace p.mark.offset)
      (.unclosedBrace p'.mark.offset)) (openBlocks b.reverse).head?
      (openBlocks b'.reverse).head? := by
  have hopen := openBlocks_congr h h'
  have hmem : ∀ p ∈ openBlocks b.reverse, p ∈ places b.reverse ∧ p.mark.is '{' = true :=
    fun p hp => mem_places_of_mem_openBlocksFrom hp
  have hmem' : ∀ p ∈ openBlocks b'.reverse, p ∈ places b'.reverse :=
    fun p hp => (mem_places_of_mem_openBlocksFrom hp).1
  generalize openBlocks b.reverse = ps at *
  generalize openBlocks b'.reverse = ps' at *
  cases hopen with
  | nil => exact .none
  | @cons p p' ps ps' hp =>
    obtain ⟨hplace, hbrace⟩ := hmem p (by simp)
    exact .some ⟨rfl, p, hplace, p', hmem' p' (by simp), by rw [hbrace, Bool.true_or], rfl, rfl,
      hp.alike⟩

/-- Where the script has structure is told by the skeleton. -/
theorem Written.any_isStructural (h : Written b sk) :
    b.any Mark.isStructural =
      sk.any fun x => x == some ';' || x == some '{' || x == some '}' := by
  induction h with
  | nil => rfl
  | live o c h hc ih => rw [List.any_cons, List.any_cons, ih]; simp [Mark.isStructural]
  | @inert run back sk hr h hsk ih =>
    have hrun : run.any Mark.isStructural = false := by
      rw [List.any_eq_false]
      intro m hm
      simp [Mark.isStructural, is_of_not_live (hr.inert m hm)]
    rw [List.any_append, hrun, List.any_cons, ih]
    rfl

namespace Program

theorem hasEachLine_eq (p : Program) : p.hasEachLine = p.outline.any Prod.fst := by
  rw [hasEachLine, outline, List.any_map]
  rfl

theorem isExpression_eq (p : Program) :
    p.isExpression = (!p.structural && (p.outline.length == 1 && !p.outline.any Prod.fst)) := by
  obtain ⟨lines, structural⟩ := p
  rw [isExpression, outline]
  rcases lines with _ | ⟨l, _ | ⟨l', lines⟩⟩
  · rfl
  · cases l <;> rfl
  · cases l <;> simp

end Program

/-- Marks of one skeleton make programs that differ in the texts of their lines only. -/
theorem programOf_congr (h : Written b sk) (h' : Written b' sk) :
    SameStructure b.reverse b'.reverse (.ok (programOf b.reverse))
      (.ok (programOf b'.reverse)) := by
  have hout : (programOf b.reverse).outline = (programOf b'.reverse).outline := by
    rw [outline_programOf, outline_programOf, outlineAfter_congr h h']
  have hstruct : (programOf b.reverse).structural = (programOf b'.reverse).structural := by
    rw [programOf, programOf, List.any_reverse, List.any_reverse, h.any_isStructural,
      h'.any_isStructural]
  have hlen := congrArg List.length hout
  rw [Program.outline, Program.outline, List.length_map, List.length_map] at hlen
  refine ⟨hlen, hout, hstruct, ?_, ?_⟩
  · rw [Program.isExpression_eq, Program.isExpression_eq, hout, hstruct]
  · rw [Program.hasEachLine_eq, Program.hasEachLine_eq, hout]

/-- **What is written inside literals and comments is no structure.** Two scripts with one skeleton
whose scans end outside a literal either expand to programs with one outline, or fail with one kind
of fault, at places that have one skeleton before them. -/
theorem expand_of_skeleton_eq {script script' : String}
    (hsk : skeleton (Scan.marks .start 0 script.toList) =
      skeleton (Scan.marks .start 0 script'.toList))
    (hend : (Scan.endState .start 0 script.toList).finish = .ok ())
    (hend' : (Scan.endState .start 0 script'.toList).finish = .ok ()) :
    SameStructure (Scan.marks .start 0 script.toList) (Scan.marks .start 0 script'.toList)
      (expand script) (expand script') := by
  have h := written_marks script.toList
  have h' := written_marks script'.toList
  rw [← hsk] at h'
  have hfault := firstFault?_congr h h'
  have hopen := unclosedBrace_congr h h'
  have hprogram := programOf_congr h h'
  simp only [List.reverse_reverse] at hfault hopen hprogram
  -- both scans end, so what decides is alike: the first fault, the open block, the program
  rw [expand, expand, expandChars_eq_verdict, expandChars_eq_verdict, hend, hend']
  generalize firstFault? (Scan.marks .start 0 script.toList) = e at *
  generalize firstFault? (Scan.marks .start 0 script'.toList) = e' at *
  generalize (openBlocks (Scan.marks .start 0 script.toList)).head? = p at *
  generalize (openBlocks (Scan.marks .start 0 script'.toList)).head? = p' at *
  cases hfault with
  | some he => exact he
  | none =>
    cases hopen with
    | some hp => exact hp
    | none => exact hprogram

/-- A brace in a literal is not the one that is in excess. -/
theorem expand_of_skeleton_eq_excess :
    (expand "x='\x7d'; \x7d", expand "x=''; \x7d") =
        (.error (.unbalancedBrace 7), .error (.unbalancedBrace 6)) ∧
      SameStructure (Scan.marks .start 0 "x='\x7d'; \x7d".toList)
        (Scan.marks .start 0 "x=''; \x7d".toList) (expand "x='\x7d'; \x7d") (expand "x=''; \x7d") :=
  ⟨by decide, expand_of_skeleton_eq (by decide) (by decide) (by decide)⟩

end Braceline
