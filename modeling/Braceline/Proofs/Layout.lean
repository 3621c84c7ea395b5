import Braceline.Proofs.OpenBlocks
import Braceline.Proofs.SegmentText
import Mathlib

/-!
# Where a script's lines and faults come from

What the pass has made at a point of a script is a matter of the marks before that point: the open
blocks are the braces that stay open, the level is the sum of their steps, and each stop adds the
lines of its segment at that level. A fault is found at a brace, and the marks before it decide
which.

* `fault?`: the fault that a brace makes.
* `reads_start`: the pass stops at the first of these faults, and else it is where the marks say.
* `expandChars_eq_verdict`: so is the expansion of a script.
-/

namespace Braceline

/-- The segment under way after the marks, blanks included. -/
def segmentAfter (ms : List Mark) : List Char := (Segment.textBack ms.reverse).reverse

/-- Does a text end in the word `EL`? The character before it, if any, is no part of a word. -/
def endsInLoop (text : List Char) : Bool :=
  ['E', 'L'].isSuffixOf text && !text.dropLast.dropLast.getLast?.any Text.isWordChar

namespace Place

/-- Does the place open the loop over the input lines? -/
def isLoop (p : Place) : Bool := p.mark.is '{' && endsInLoop (segmentAfter p.before)

/-- The number of levels that a block adds. -/
def step (p : Place) : Nat := if p.isLoop then Line.eachLineDepth else 1

end Place

/-- The level of a line at this point: the steps of the open blocks, added up. -/
def levelAfter (ms : List Mark) : Nat := ((openBlocks ms).map Place.step).sum

/-- **The fault that a brace makes.** -/
def Place.fault? (p : Place) : Option ScriptError :=
  if p.mark.is '}' && (openBlocks p.before).isEmpty then
    some (.unbalancedBrace p.mark.offset)
  else if p.isLoop && (places p.before).any Place.isLoop then
    some (.repeatedEachLine p.mark.offset)
  else if p.mark.is '{' && !p.isLoop && (segmentAfter p.before).all Text.isBlank then
    some (.missingBlockHeader p.mark.offset)
  else if p.mark.is '{' && maxLevel < levelAfter p.before + p.step then
    some (.nestingTooDeep p.mark.offset)
  else none

/-- The fault at the first place that makes one. -/
def firstFault? (ms : List Mark) : Option ScriptError := (places ms).findSome? Place.fault?

/-- The statement that a text holds, if it is not blank. -/
def statements (level : Nat) (text : List Char) : List Line :=
  match Text.trim text with
  | [] => []
  | cs => [.statement level (String.ofList cs)]

/-- The lines that a segment makes. -/
def Segment.lines (level : Nat) (s : Segment) : List Line :=
  match s.stop with
  | .openBrace _ =>
    match beforeEachLine? s.text with
    | some before => statements level before ++ [.eachLine level]
    | none => [.statement level (String.ofList (withColon (Text.trim s.text)))]
  | _ => statements level s.text

/-- The lines that a place makes, if a segment ends there. -/
def Place.lines (p : Place) : List Line :=
  match (Segment.Draft.after p.before).read p.mark with
  | .inl _ => []
  | .inr stop => ((Segment.Draft.after p.before).close stop).lines (levelAfter p.before)

/-- The blocks of braces that are given innermost first. -/
def blocksOf : List Place → List Block
  | [] => []
  | p :: ps => ⟨((p :: ps).map Place.step).sum, p.mark.offset⟩ :: blocksOf ps

/-- What the pass has made after the marks, unless it has found a fault. -/
def Pass.after (ms : List Mark) : Pass where
  expansion := ⟨⟨blocksOf (openBlocks ms).reverse⟩, (places ms).any Place.isLoop,
    ((places ms).flatMap Place.lines).reverse⟩
  draft := .after ms

/-- The program that the marks of a script make. -/
def programOf (ms : List Mark) : Program where
  lines := (places ms).flatMap Place.lines ++
    statements (levelAfter ms) (Segment.Draft.after ms).text.reverse
  structural := ms.any Mark.isStructural

variable {ms : List Mark} {m : Mark} {p : Place} {x : Expansion} {o : Nat}

/-! ### The segment under way -/

theorem endsInLoop_reverse (t : List Char) :
    endsInLoop t.reverse = (Segment.beforeEachLine? t.reverse).isSome := by
  by_cases ht : ∃ u, t = 'L' :: 'E' :: u
  · obtain ⟨u, rfl⟩ := ht
    rw [Segment.beforeEachLine?_reverse]
    have hsuf : ['E', 'L'].isSuffixOf ('L' :: 'E' :: u).reverse = true := by
      simp [List.isSuffixOf_iff_suffix, List.suffix_append]
    simp only [endsInLoop, hsuf, Bool.true_and]
    cases h : u.head?.any Text.isWordChar <;> simp [h]
  · -- any other text does not end in the two letters
    have hsuf : ['E', 'L'].isSuffixOf t.reverse = false := by
      rw [Bool.eq_false_iff]
      intro h
      obtain ⟨u, hu⟩ := List.isSuffixOf_iff_suffix.1 h
      exact ht ⟨u.reverse, by simpa using congrArg List.reverse hu.symm⟩
    rw [Segment.beforeEachLine?_eq_none fun u hu => ht ⟨u, hu⟩]
    simp [endsInLoop, hsuf]

/-- The draft and the segment under way tell alike whether the loop is opened. -/
theorem endsInLoop_segmentAfter (ms : List Mark) :
    endsInLoop (segmentAfter ms) =
      (Segment.beforeEachLine? (Segment.Draft.after ms).text.reverse).isSome := by
  have h := Segment.beforeEachLine?_of_squeeze_eq (Segment.Draft.holds_after ms).text
  rw [segmentAfter, endsInLoop_reverse]
  have := congrArg Option.isSome h
  simpa using this.symm

/-- The draft and the segment under way tell alike whether the segment is blank. -/
theorem all_isBlank_draft (ms : List Mark) :
    (Segment.Draft.after ms).text.reverse.all Text.isBlank =
      (segmentAfter ms).all Text.isBlank := by
  have htext := (Segment.Draft.holds_after ms).text
  rw [segmentAfter, List.all_reverse, List.all_reverse, Text.all_isBlank_of_squeeze_eq htext]

/-- A brace opens the loop exactly if the draft before it ends in the loop's word. -/
theorem isLoop_open (ms : List Mark) (o : Nat) :
    (⟨ms, ⟨o, '{', true⟩⟩ : Place).isLoop =
      (Segment.beforeEachLine? (Segment.Draft.after ms).text.reverse).isSome := by
  rw [Place.isLoop, endsInLoop_segmentAfter]
  simp

theorem isLoop_eq_false (h : p.mark.is '{' = false) : p.isLoop = false := by
  simp [Place.isLoop, h]

/-- The lines that an opening brace makes. -/
theorem lines_open (ms : List Mark) (o : Nat) :
    Place.lines ⟨ms, ⟨o, '{', true⟩⟩ =
      match Segment.beforeEachLine? (Segment.Draft.after ms).text.reverse with
      | some before => statements (levelAfter ms) before ++ [.eachLine (levelAfter ms)]
      | none => [.statement (levelAfter ms)
          (String.ofList (Segment.withColon (Text.trim (Segment.Draft.after ms).text.reverse)))] :=
  rfl

/-! ### The open blocks and their levels -/

theorem level_blocksOf (ps : List Place) :
    (⟨blocksOf ps⟩ : Nesting).level = (ps.map Place.step).sum := by
  cases ps <;> rfl

/-- The outermost block is the one of the outermost brace. -/
theorem getLast?_blocksOf (ps : List Place) :
    (blocksOf ps).getLast? = ps.getLast?.map fun p => ⟨p.step, p.mark.offset⟩ := by
  induction ps with
  | nil => rfl
  | cons p ps ih =>
    cases ps with
    | nil => rfl
    | cons q ps => rw [blocksOf, List.getLast?_cons_of_ne_nil (by simp [blocksOf]), ih]; rfl

theorem sum_step_reverse (ms : List Mark) :
    ((openBlocks ms).reverse.map Place.step).sum = levelAfter ms := by
  rw [List.map_reverse, List.sum_reverse, levelAfter]

theorem level_after (ms : List Mark) : (Pass.after ms).expansion.nesting.level = levelAfter ms := by
  rw [Pass.after, level_blocksOf, sum_step_reverse]

theorem levelAfter_concat_open (ms : List Mark) (hm : m.is '{' = true) :
    levelAfter (ms ++ [m]) = levelAfter ms + Place.step ⟨ms, m⟩ := by
  rw [levelAfter, openBlocks_concat_open ms hm]
  simp [levelAfter]

theorem levelAfter_concat_close (ms : List Mark) (hm : m.is '}' = true) :
    levelAfter (ms ++ [m]) ≤ levelAfter ms := by
  rw [levelAfter, levelAfter, openBlocks_concat_close ms hm]
  rcases List.eq_nil_or_concat (openBlocks ms) with h | ⟨ps, p, h⟩
  · simp [h]
  · simp [h]

theorem levelAfter_concat_other (ms : List Mark) (ho : m.is '{' = false) (hc : m.is '}' = false) :
    levelAfter (ms ++ [m]) = levelAfter ms := by
  rw [levelAfter, openBlocks_concat_other ms ho hc, levelAfter]

theorem firstFault?_concat (ms : List Mark) (m : Mark) :
    firstFault? (ms ++ [m]) = (firstFault? ms).or (Place.fault? ⟨ms, m⟩) := by
  rw [firstFault?, places_concat, List.findSome?_append, ← firstFault?]
  simp

/-- An opening brace that makes no fault stays within the limit. -/
theorem le_maxLevel_of_fault? (hm : p.mark.is '{' = true) (h : p.fault? = none) :
    levelAfter p.before + p.step ≤ maxLevel := by
  by_contra hdeep
  have hsome : p.fault?.isSome = true := by
    unfold Place.fault?
    rw [hm, Bool.true_and, Bool.true_and, decide_eq_true (by omega)]
    -- whichever test comes out, a fault is found
    split
    · rfl
    split
    · rfl
    split <;> rfl
  simp [h] at hsome

/-- **Where no fault has been found**, the level is within the limit. -/
theorem levelAfter_le (h : firstFault? ms = none) : levelAfter ms ≤ maxLevel := by
  induction ms using List.reverseRecOn with
  | nil => exact Nat.zero_le _
  | append_singleton ms m ih =>
    rw [firstFault?_concat, Option.or_eq_none_iff] at h
    obtain ⟨hms, hm⟩ := h
    by_cases ho : m.is '{'
    · rw [levelAfter_concat_open ms ho]
      exact le_maxLevel_of_fault? ho hm
    by_cases hc : m.is '}'
    · exact (levelAfter_concat_close ms hc).trans (ih hms)
    · rw [levelAfter_concat_other ms (by simpa using ho) (by simpa using hc)]
      exact ih hms

/-! ### One step of the pass -/

theorem emit_eq (x : Expansion) (text : List Char) :
    x.emit text = { x with lines := (statements x.nesting.level text).reverse ++ x.lines } := by
  unfold Expansion.emit statements
  cases Text.trim text <;> rfl

/-- A block opens within the limit, and is refused beyond it. -/
theorem enter_eq (x : Expansion) (step o : Nat) :
    x.enter step o =
      if maxLevel < x.nesting.level + step then .error (.nestingTooDeep o)
      else .ok { x with nesting := ⟨⟨x.nesting.level + step, o⟩ :: x.nesting.blocks⟩ } := by
  rw [Expansion.enter, Nesting.deepen]
  split
  · rw [if_neg (by omega)]; rfl
  · rw [if_pos (by omega)]; rfl

theorem enterEachLine_eq (x : Expansion) (before : List Char) (o : Nat) :
    x.enterEachLine before o =
      if x.looped then .error (.repeatedEachLine o)
      else if maxLevel < x.nesting.level + Line.eachLineDepth then .error (.nestingTooDeep o)
      else .ok ⟨⟨⟨x.nesting.level + Line.eachLineDepth, o⟩ :: x.nesting.blocks⟩, true,
        (statements x.nesting.level before ++ [Line.eachLine x.nesting.level]).reverse ++
          x.lines⟩ := by
  rw [Expansion.enterEachLine]
  split
  · rfl
  · simp only [emit_eq, Expansion.push]
    rw [enter_eq]
    simp

theorem enterBlock_eq (x : Expansion) (text : List Char) (o : Nat) :
    x.enterBlock text o =
      if text.all Text.isBlank then .error (.missingBlockHeader o)
      else if maxLevel < x.nesting.level + 1 then .error (.nestingTooDeep o)
      else .ok ⟨⟨⟨x.nesting.level + 1, o⟩ :: x.nesting.blocks⟩, x.looped,
        .statement x.nesting.level (String.ofList (Segment.withColon (Text.trim text))) ::
          x.lines⟩ := by
  rw [Expansion.enterBlock]
  split
  · next h => rw [if_pos ((Text.trim_eq_nil_iff text).1 h)]
  · next h =>
    rw [if_neg fun hb => h ((Text.trim_eq_nil_iff text).2 hb), enter_eq]
    rfl

namespace Pass

theorem after_concat (ms : List Mark) (m : Mark) :
    Pass.after (ms ++ [m]) =
      ⟨⟨⟨blocksOf (openBlocks (ms ++ [m])).reverse⟩,
        (Pass.after ms).expansion.looped || Place.isLoop ⟨ms, m⟩,
        (Place.lines ⟨ms, m⟩).reverse ++ (Pass.after ms).expansion.lines⟩,
        (Segment.Draft.after ms).next m⟩ := by
  simp only [Pass.after, places_concat, Segment.Draft.after_concat, List.any_append,
    List.flatMap_append, List.reverse_append]
  simp

/-- What reading one more mark should give. -/
def Reads (ms : List Mark) (m : Mark) : Prop :=
  (Pass.after ms).read m =
    match Place.fault? ⟨ms, m⟩ with
    | some e => .error e
    | none => .ok (Pass.after (ms ++ [m]))

theorem reads_other (ho : m.is '{' = false) (hc : m.is '}' = false)
    (h : (Pass.after ms).read m = .ok ⟨{ (Pass.after ms).expansion with
      lines := (Place.lines ⟨ms, m⟩).reverse ++ (Pass.after ms).expansion.lines },
      (Segment.Draft.after ms).next m⟩) : Reads ms m := by
  have hl : Place.isLoop ⟨ms, m⟩ = false := isLoop_eq_false ho
  have hf : Place.fault? ⟨ms, m⟩ = none := by simp [Place.fault?, ho, hc, hl]
  rw [Reads, h, hf, after_concat, hl, Bool.or_false, openBlocks_concat_other ms ho hc]
  rfl

/-- A mark that stops no segment only goes into the draft. -/
theorem reads_draft {d : Segment.Draft} (ho : m.is '{' = false) (hc : m.is '}' = false)
    (hd : (Segment.Draft.after ms).read m = .inl d) : Reads ms m := by
  refine reads_other ho hc ?_
  rw [Place.lines, Segment.Draft.next, read]
  simp only [Pass.after, hd]
  rfl

/-- A semicolon or a line break ends a statement. -/
theorem reads_statement {stop : Stop} (ho : m.is '{' = false) (hc : m.is '}' = false)
    (hd : (Segment.Draft.after ms).read m = .inr stop)
    (hs : stop = .semicolon ∨ stop = .lineBreak) : Reads ms m := by
  refine reads_other ho hc ?_
  rw [Place.lines, Segment.Draft.next, read, ← level_after ms]
  rcases hs with rfl | rfl <;>
  · simp only [Pass.after, hd]
    rw [Expansion.step]
    simp only [Segment.Draft.close, emit_eq]
    rfl

/-- A closing brace ends a statement, and closes the innermost block if one is open. -/
theorem reads_close (ms : List Mark) (o : Nat) : Reads ms ⟨o, '}', true⟩ := by
  have hl : Place.isLoop ⟨ms, ⟨o, '}', true⟩⟩ = false := isLoop_eq_false rfl
  have hlines : Place.lines ⟨ms, ⟨o, '}', true⟩⟩ =
      statements (levelAfter ms) (Segment.Draft.after ms).text.reverse := rfl
  have hread : (Pass.after ms).read ⟨o, '}', true⟩ =
      (((Pass.after ms).expansion.emit (Segment.Draft.after ms).text.reverse).leave o).map
        fun x => ⟨x, .empty⟩ := rfl
  rw [Reads, hread, emit_eq, level_after, after_concat, hl, Bool.or_false, hlines,
    openBlocks_concat_close ms rfl]
  rcases List.eq_nil_or_concat (openBlocks ms) with h | ⟨ps, p, h⟩
  · -- no block is open
    have hf : Place.fault? ⟨ms, ⟨o, '}', true⟩⟩ = some (.unbalancedBrace o) := by
      simp [Place.fault?, h]
    rw [hf, Expansion.leave]
    simp only [Pass.after, h]
    rfl
  · -- the block of `p` is the innermost
    have hf : Place.fault? ⟨ms, ⟨o, '}', true⟩⟩ = none := by
      simp [Place.fault?, h, hl]
    rw [hf, Expansion.leave]
    simp only [Pass.after, h, List.concat_eq_append, List.reverse_append, List.dropLast_concat]
    rfl

/-- What an opening brace leaves, once its line has been made. -/
theorem after_concat_open (ms : List Mark) (o : Nat) :
    Pass.after (ms ++ [⟨o, '{', true⟩]) =
      ⟨⟨⟨⟨levelAfter ms + Place.step ⟨ms, ⟨o, '{', true⟩⟩, o⟩ ::
          (Pass.after ms).expansion.nesting.blocks⟩,
        (Pass.after ms).expansion.looped || Place.isLoop ⟨ms, ⟨o, '{', true⟩⟩,
        (Place.lines ⟨ms, ⟨o, '{', true⟩⟩).reverse ++ (Pass.after ms).expansion.lines⟩,
        .empty⟩ := by
  rw [after_concat, openBlocks_concat_open ms rfl, List.reverse_append]
  simp only [List.reverse_cons, List.reverse_nil, List.nil_append, List.cons_append, blocksOf,
    List.map_cons, List.sum_cons, sum_step_reverse, Nat.add_comm (Place.step _)]
  rfl

/-- What the pass does at an opening brace. -/
theorem read_open (ms : List Mark) (o : Nat) :
    (Pass.after ms).read ⟨o, '{', true⟩ =
      (match Segment.beforeEachLine? (Segment.Draft.after ms).text.reverse with
      | some before => (Pass.after ms).expansion.enterEachLine before o
      | none => (Pass.after ms).expansion.enterBlock (Segment.Draft.after ms).text.reverse o).map
        fun x => ⟨x, .empty⟩ := rfl

/-- A brace after the loop's word opens the loop, unless it is open already. -/
theorem reads_loop {before : List Char} (o : Nat)
    (h : Segment.beforeEachLine? (Segment.Draft.after ms).text.reverse = some before) :
    Reads ms ⟨o, '{', true⟩ := by
  have hl : Place.isLoop ⟨ms, ⟨o, '{', true⟩⟩ = true := by rw [isLoop_open, h]; rfl
  have hstep : Place.step ⟨ms, ⟨o, '{', true⟩⟩ = Line.eachLineDepth := by rw [Place.step, if_pos hl]
  have hlines : Place.lines ⟨ms, ⟨o, '{', true⟩⟩ =
      statements (levelAfter ms) before ++ [.eachLine (levelAfter ms)] := by
    rw [lines_open, h]
  have hread : (Pass.after ms).read ⟨o, '{', true⟩ =
      ((Pass.after ms).expansion.enterEachLine before o).map fun x => ⟨x, .empty⟩ := by
    rw [read_open, h]
  have hf : Place.fault? ⟨ms, ⟨o, '{', true⟩⟩ =
      if (places ms).any Place.isLoop then some (.repeatedEachLine o)
      else if maxLevel < levelAfter ms + Line.eachLineDepth then some (.nestingTooDeep o)
      else none := by
    simp [Place.fault?, hl, hstep]
  have hlooped : (Pass.after ms).expansion.looped = (places ms).any Place.isLoop := rfl
  rw [Reads, hread, enterEachLine_eq, level_after, hf, hlooped,
    after_concat_open, hl, hstep, hlines, Bool.or_true]
  split
  · rfl
  · split <;> rfl

/-- Any other opening brace opens a block, unless there is no header before it. -/
theorem reads_block (o : Nat)
    (h : Segment.beforeEachLine? (Segment.Draft.after ms).text.reverse = none) :
    Reads ms ⟨o, '{', true⟩ := by
  have hl : Place.isLoop ⟨ms, ⟨o, '{', true⟩⟩ = false := by rw [isLoop_open, h]; rfl
  have hstep : Place.step ⟨ms, ⟨o, '{', true⟩⟩ = 1 := by rw [Place.step, hl]; rfl
  have hlines : Place.lines ⟨ms, ⟨o, '{', true⟩⟩ = [.statement (levelAfter ms)
      (String.ofList (Segment.withColon (Text.trim (Segment.Draft.after ms).text.reverse)))] := by
    rw [lines_open, h]
  have hread : (Pass.after ms).read ⟨o, '{', true⟩ =
      ((Pass.after ms).expansion.enterBlock (Segment.Draft.after ms).text.reverse o).map
        fun x => ⟨x, .empty⟩ := by
    rw [read_open, h]
  have hf : Place.fault? ⟨ms, ⟨o, '{', true⟩⟩ =
      if (segmentAfter ms).all Text.isBlank then some (.missingBlockHeader o)
      else if maxLevel < levelAfter ms + 1 then some (.nestingTooDeep o)
      else none := by
    simp [Place.fault?, hl, hstep]
  rw [Reads, hread, enterBlock_eq, level_after, hf, all_isBlank_draft,
    after_concat_open, hl, hstep, hlines, Bool.or_false]
  split
  · rfl
  · split <;> rfl

/-- **One step of the pass:** it stops at the fault that the mark makes, and else it has made what
the marks say. -/
theorem reads_step (ms : List Mark) (m : Mark) : Reads ms m := by
  have hstep := (Segment.Draft.after ms).step_read m
  generalize hd : (Segment.Draft.after ms).read m = r at hstep
  cases hstep with
  | openBrace o =>
    cases h : Segment.beforeEachLine? (Segment.Draft.after ms).text.reverse with
    | some before => exact reads_loop o h
    | none => exact reads_block o h
  | closeBrace o => exact reads_close ms o
  | semicolon o => exact reads_statement rfl rfl hd (.inl rfl)
  | lineBreak o => exact reads_statement rfl rfl hd (.inr rfl)
  | join | joinReturn | slash | slashReturn | inert => exact reads_draft rfl rfl hd
  | skip o c hc =>
    have hs : c ≠ '{' ∧ c ≠ '}' := by
      rcases Text.isSpaceOrTab_iff.1 hc with rfl | rfl <;> decide
    exact reads_draft (by simpa using hs.1) (by simpa using hs.2) hd
  | live o c hs =>
    simp only [Mark.isStructural, Bool.or_eq_false_iff] at hs
    exact reads_draft hs.1.2 hs.2 hd

/-- **The pass stops at the first fault**, and else it has made what the marks say. -/
theorem reads_start (ms : List Mark) :
    Pass.start.reads ms =
      match firstFault? ms with
      | some e => .error e
      | none => .ok (Pass.after ms) := by
  induction ms using List.reverseRecOn with
  | nil => rfl
  | append_singleton ms m ih =>
    rw [reads_concat, ih, firstFault?_concat]
    cases hms : firstFault? ms with
    | some e => rfl
    | none =>
      have hm : Reads ms m := reads_step ms m
      rw [Reads] at hm
      exact hm

end Pass

/-- **No brace of a script makes the program panic:** the level before it is within the limit, and
its block is one or two levels deeper. -/
theorem push_of_reads {q : Pass} (h : Pass.start.reads ms = .ok q) {step : Nat}
    (hs : step ≤ Line.eachLineDepth) (o : Nat) :
    q.expansion.nesting.push step o = some (q.expansion.nesting.deepen step o) := by
  rw [Pass.reads_start] at h
  cases hms : firstFault? ms with
  | some e => rw [hms] at h; cases h
  | none =>
    rw [hms] at h
    cases h
    refine Nesting.push_of_lt ?_ o
    calc (Pass.after ms).expansion.nesting.level + step
        ≤ maxLevel + Line.eachLineDepth := by
          rw [level_after]
          exact Nat.add_le_add (levelAfter_le hms) hs
      _ < Nesting.wordSize := by decide

/-- **What an expansion comes to:** the first fault at a brace, else the literal that is open at the
end, else the outermost block that is, else a program. -/
theorem expandChars_eq_verdict (cs : List Char) :
    expandChars cs =
      match firstFault? (Scan.marks .start 0 cs) with
      | some e => .error e
      | none => (Scan.endState .start 0 cs).finish.bind fun _ =>
        match (openBlocks (Scan.marks .start 0 cs)).head? with
        | some p => .error (.unclosedBrace p.mark.offset)
        | none => .ok (programOf (Scan.marks .start 0 cs)) := by
  rw [expandChars_eq, Pass.reads_start]
  generalize Scan.marks .start 0 cs = ms
  cases firstFault? ms with
  | some e => rfl
  | none =>
    have hended : (Pass.after ms).ended.lines.reverse = (programOf ms).lines := by
      rw [Pass.ended, emit_eq, level_after]
      simp [Pass.after, programOf]
    change ((Scan.endState .start 0 cs).finish.bind fun _ =>
      (Pass.after ms).expansion.nesting.finish.bind fun _ => _) = _
    rw [hended]
    congr 1
    funext _
    rw [Nesting.finish]
    -- the blocks are given innermost first: the last one is the outermost
    have hlast : (Pass.after ms).expansion.nesting.blocks.getLast? =
        (openBlocks ms).head?.map fun p => ⟨p.step, p.mark.offset⟩ := by
      rw [← List.getLast?_reverse]
      exact getLast?_blocksOf _
    rw [hlast]
    cases (openBlocks ms).head? <;> rfl

end Braceline
