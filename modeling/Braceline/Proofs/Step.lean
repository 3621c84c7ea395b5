import Braceline.Proofs.Layout

/-!
# What one step of the pass comes to

A mark is text, or it ends a statement, closes a block, or opens a block or the loop. `Pass.Step`
says what each of these leaves, and when it is no fault. What holds along a run of the pass is
proved case by case from it.

* `step_of_read`: all that a step without a fault can do.
* `ordered_of_step`, `counted_of_step`: the levels of the open blocks grow inwards and stay within
  the limit; the heads of loops among the lines are as many as the pass says.
* `reads_induction`: what every step keeps, a run keeps.
* `expandChars_eq_ok_iff`: a script expands exactly if the pass ends with no block open and the
  scan with no literal.
-/

namespace Braceline

/-- The levels of the open blocks grow inwards, from above zero, and stay within the limit. -/
structure Nesting.Ordered (n : Nesting) : Prop where
  grows : (n.blocks.map Block.level ++ [0]).Pairwise (· > ·)
  bounded : ∀ b ∈ n.blocks, b.level ≤ maxLevel

/-- Are there as many heads of the loop among the lines as the pass says? -/
def Expansion.Counted (x : Expansion) : Prop := x.lines.countP Line.isEachLine = x.looped.toNat

@[simp]
theorem nesting_emit (x : Expansion) (text : List Char) :
    (x.emit text).nesting = x.nesting := by rw [emit_eq]

@[simp]
theorem looped_emit (x : Expansion) (text : List Char) :
    (x.emit text).looped = x.looped := by rw [emit_eq]

namespace Pass

/-- **What a step of the pass can do**, if it makes no fault. -/
inductive Step : Pass → Mark → Pass → Prop where
  /-- The mark goes into the draft, or completes a line continuation. -/
  | draft {x : Expansion} {d d' : Segment.Draft} {m : Mark} (hd : d.read m = .inl d') :
    Step ⟨x, d⟩ m ⟨x, d'⟩
  /-- A semicolon or a line break ends a statement. -/
  | statement {x : Expansion} {d : Segment.Draft} {m : Mark} {stop : Stop}
    (hd : d.read m = .inr stop) (hs : stop = .semicolon ∨ stop = .lineBreak) :
    Step ⟨x, d⟩ m ⟨x.emit d.text.reverse, .empty⟩
  /-- A brace ends a statement and closes the innermost block. -/
  | close {x : Expansion} {d : Segment.Draft} (o : Nat) {b : Block} {bs : List Block}
    (hb : x.nesting.blocks = b :: bs) :
    Step ⟨x, d⟩ ⟨o, '}', true⟩ ⟨{ x.emit d.text.reverse with nesting := ⟨bs⟩ }, .empty⟩
  /-- A brace opens a block under a header. -/
  | block {x : Expansion} {d : Segment.Draft} (o : Nat)
    (hl : Segment.beforeEachLine? d.text.reverse = none)
    (hh : d.text.reverse.all Text.isBlank = false) (hm : x.nesting.level + 1 ≤ maxLevel) :
    Step ⟨x, d⟩ ⟨o, '{', true⟩ ⟨⟨⟨⟨x.nesting.level + 1, o⟩ :: x.nesting.blocks⟩, x.looped,
      .statement x.nesting.level
        (String.ofList (Segment.withColon (Text.trim d.text.reverse))) :: x.lines⟩, .empty⟩
  /-- A brace opens the loop, after the statement before its word. -/
  | loop {x : Expansion} {d : Segment.Draft} (o : Nat) {before : List Char}
    (hl : Segment.beforeEachLine? d.text.reverse = some before) (hn : x.looped = false)
    (hm : x.nesting.level + Line.eachLineDepth ≤ maxLevel) :
    Step ⟨x, d⟩ ⟨o, '{', true⟩
      ⟨⟨⟨⟨x.nesting.level + Line.eachLineDepth, o⟩ :: x.nesting.blocks⟩, true,
        .eachLine x.nesting.level :: (x.emit before).lines⟩, .empty⟩

variable {x : Expansion} {d d' : Segment.Draft} {m : Mark} {ms ns : List Mark} {o : Nat}
  {n : Nesting} {p q : Pass}

theorem read_of_inl (hd : d.read m = .inl d') : read ⟨x, d⟩ m = .ok ⟨x, d'⟩ := by
  simp only [read, hd]

theorem read_of_statement {stop : Stop} (hd : d.read m = .inr stop)
    (hs : stop = .semicolon ∨ stop = .lineBreak) :
    read ⟨x, d⟩ m = .ok ⟨x.emit d.text.reverse, .empty⟩ := by
  simp only [read, hd]
  rcases hs with rfl | rfl <;> rfl

theorem read_close (x : Expansion) (d : Segment.Draft) (o : Nat) :
    read ⟨x, d⟩ ⟨o, '}', true⟩ =
      ((x.emit d.text.reverse).leave o).map fun y => ⟨y, .empty⟩ := rfl

/-- An opening brace makes the step of its segment. -/
theorem read_openBrace (x : Expansion) (d : Segment.Draft) (o : Nat) :
    read ⟨x, d⟩ ⟨o, '{', true⟩ =
      (x.step (d.close (.openBrace o))).map fun y => ⟨y, .empty⟩ := rfl

theorem read_block (hl : Segment.beforeEachLine? d.text.reverse = none) :
    read ⟨x, d⟩ ⟨o, '{', true⟩ =
      (x.enterBlock d.text.reverse o).map fun y => ⟨y, .empty⟩ := by
  rw [read_openBrace, Expansion.step]
  simp only [Segment.Draft.close, hl]

theorem read_loop {before : List Char} (hl : Segment.beforeEachLine? d.text.reverse = some before) :
    read ⟨x, d⟩ ⟨o, '{', true⟩ = (x.enterEachLine before o).map fun y => ⟨y, .empty⟩ := by
  rw [read_openBrace, Expansion.step]
  simp only [Segment.Draft.close, hl]

/-- Closing a block takes the innermost one away, if there is one. -/
theorem leave_emit (x : Expansion) (text : List Char) (o : Nat) :
    (x.emit text).leave o =
      match x.nesting.blocks with
      | [] => .error (.unbalancedBrace o)
      | _ :: bs => .ok { x.emit text with nesting := ⟨bs⟩ } := by
  rw [Expansion.leave, nesting_emit, Nesting.pop]
  cases x.nesting.blocks <;> rfl

/-- A closing brace ends the statement under way and closes the innermost block. -/
theorem read_close_ok {b : Block} {bs : List Block} (h : p.expansion.nesting.blocks = b :: bs)
    (o : Nat) : p.read ⟨o, '}', true⟩ = .ok ⟨{ p.ended with nesting := ⟨bs⟩ }, .empty⟩ := by
  obtain ⟨x, d⟩ := p
  rw [read_close, leave_emit, h]
  rfl

/-- **All that a step without a fault can do.** -/
theorem step_of_read (h : p.read m = .ok q) : Step p m q := by
  obtain ⟨x, d⟩ := p
  have hstep := d.step_read m
  generalize hd : d.read m = r at hstep
  -- a mark that stops nothing leaves the next draft, and the others are taken one by one
  have htext (d' : Segment.Draft) (hd : d.read m = .inl d') : Step ⟨x, d⟩ m q := by
    rw [read_of_inl hd] at h
    cases h
    exact .draft hd
  have hstatement (stop : Stop) (hd : d.read m = .inr stop)
      (hs : stop = .semicolon ∨ stop = .lineBreak) : Step ⟨x, d⟩ m q := by
    rw [read_of_statement hd hs] at h
    cases h
    exact .statement hd hs
  cases hstep with
  | join | joinReturn | slash | slashReturn | skip | live | inert => exact htext _ hd
  | semicolon => exact hstatement _ hd (.inl rfl)
  | lineBreak => exact hstatement _ hd (.inr rfl)
  | closeBrace o =>
    rw [read_close, leave_emit] at h
    cases hb : x.nesting.blocks with
    | nil =>
      rw [hb] at h
      cases h
    | cons b bs =>
      rw [hb] at h
      cases h
      exact .close o hb
  | openBrace o =>
    cases hl : Segment.beforeEachLine? d.text.reverse with
    | none =>
      rw [read_block hl, enterBlock_eq] at h
      split at h
      · cases h
      · next hh =>
        split at h
        · cases h
        · next hm =>
          cases h
          exact .block o hl (by simpa using hh) (Nat.not_lt.1 hm)
    | some before =>
      rw [read_loop hl, enterEachLine_eq] at h
      split at h
      · cases h
      · next hn =>
        split at h
        · cases h
        · next hm =>
          cases h
          have hlines : (statements x.nesting.level before ++
              [Line.eachLine x.nesting.level]).reverse ++ x.lines =
                .eachLine x.nesting.level :: (x.emit before).lines := by
            rw [emit_eq]
            simp
          rw [hlines]
          exact .loop o hl (by simpa using hn) (Nat.not_lt.1 hm)

/-! ### What every step keeps -/

theorem ordered_empty : Nesting.empty.Ordered where
  grows := by simp [Nesting.empty]
  bounded _ h := absurd h List.not_mem_nil

/-- No open block is deeper than the level of a line at this point. -/
theorem level_le_of_ordered (hn : n.Ordered) : ∀ b ∈ n.blocks, b.level ≤ n.level := by
  intro b hb
  obtain ⟨bs⟩ := n
  cases bs with
  | nil => exact absurd hb List.not_mem_nil
  | cons b' bs =>
    rcases List.mem_cons.1 hb with rfl | hb
    · exact Nat.le_refl _
    · have hgrows := List.rel_of_pairwise_cons hn.grows (List.mem_append_left _
        (List.mem_map_of_mem hb))
      exact Nat.le_of_lt hgrows

theorem level_le_maxLevel (hn : n.Ordered) : n.level ≤ maxLevel := by
  obtain ⟨bs⟩ := n
  cases bs with
  | nil => exact Nat.zero_le _
  | cons b bs => exact hn.bounded b List.mem_cons_self

/-- A block opened deeper within the limit keeps the levels in order. -/
theorem ordered_cons (hn : n.Ordered) {step : Nat} (hs : 0 < step)
    (hm : n.level + step ≤ maxLevel) (o : Nat) :
    (⟨⟨n.level + step, o⟩ :: n.blocks⟩ : Nesting).Ordered where
  grows := by
    rw [List.map_cons, List.cons_append, List.pairwise_cons]
    refine ⟨fun l hl => ?_, hn.grows⟩
    rcases List.mem_append.1 hl with hl | hl
    · obtain ⟨b, hb, rfl⟩ := List.mem_map.1 hl
      have := level_le_of_ordered hn b hb
      simp only
      omega
    · obtain rfl := List.mem_singleton.1 hl
      simp only
      omega
  bounded b hb := by
    rcases List.mem_cons.1 hb with rfl | hb
    · exact hm
    · exact hn.bounded b hb

theorem ordered_of_cons {b : Block} {bs : List Block} (hn : n.Ordered)
    (hb : n.blocks = b :: bs) : (⟨bs⟩ : Nesting).Ordered where
  grows := by
    have hgrows := hn.grows
    rw [hb, List.map_cons, List.cons_append] at hgrows
    exact (List.pairwise_cons.1 hgrows).2
  bounded b' hb' := hn.bounded b' (hb ▸ List.mem_cons_of_mem b hb')

/-- Closing a block leads to a lower level. -/
theorem level_lt_of_cons {b : Block} {bs : List Block} (hn : n.Ordered)
    (hb : n.blocks = b :: bs) : (⟨bs⟩ : Nesting).level < b.level := by
  have hgrows := hn.grows
  rw [hb, List.map_cons, List.cons_append] at hgrows
  refine List.rel_of_pairwise_cons hgrows ?_
  cases bs with
  | nil => exact List.mem_singleton_self _
  | cons c cs => exact List.mem_cons_self

/-- **The levels stay in order.** -/
theorem ordered_of_step (h : Step p m q) (hp : p.expansion.nesting.Ordered) :
    q.expansion.nesting.Ordered := by
  cases h with
  | draft => exact hp
  | statement =>
    rw [nesting_emit]
    exact hp
  | close o hb => exact ordered_of_cons hp hb
  | block o hl hh hm => exact ordered_cons hp Nat.one_pos hm o
  | loop o hl hn hm => exact ordered_cons hp (by decide) hm o

theorem countP_emit (x : Expansion) (text : List Char) :
    (x.emit text).lines.countP Line.isEachLine = x.lines.countP Line.isEachLine := by
  unfold Expansion.emit
  split
  · rfl
  · rw [Expansion.push, List.countP_cons]
    rfl

/-- **The heads of loops stay counted.** -/
theorem counted_of_step (h : Step p m q) (hp : p.expansion.Counted) : q.expansion.Counted := by
  cases h with
  | draft => exact hp
  | statement =>
    rw [Expansion.Counted, countP_emit, looped_emit]
    exact hp
  | @close x d =>
    have hcount := countP_emit x d.text.reverse
    have hlooped := looped_emit x d.text.reverse
    rw [Expansion.Counted] at hp ⊢
    exact hcount.trans (hp.trans (by rw [hlooped]))
  | block =>
    rw [Expansion.Counted, List.countP_cons]
    exact hp
  | @loop x d o before hl hn hm =>
    rw [Expansion.Counted, hn] at hp
    rw [Expansion.Counted, List.countP_cons, countP_emit, hp]
    rfl

/-- A loop once opened has been opened. -/
theorem looped_of_step (h : Step p m q) (hp : p.expansion.looped = true) :
    q.expansion.looped = true := by
  cases h with
  | draft | block => exact hp
  | statement =>
    rw [looped_emit]
    exact hp
  | @close x d => exact (looped_emit x d.text.reverse).trans hp
  | loop => rfl

/-- A step opens and closes blocks as its mark does. -/
theorem depth_of_step (h : Step p m q) :
    q.expansion.nesting.depth + [m].countP (·.is '}') =
      p.expansion.nesting.depth + [m].countP (·.is '{') := by
  have htext (d : Segment.Draft) (r : Segment.Draft ⊕ Stop) (hd : d.Step m r)
      (hr : ∀ o, r ≠ .inr (.openBrace o) ∧ r ≠ .inr (.closeBrace o)) :
      m.is '}' = false ∧ m.is '{' = false := by
    cases hd with
    | openBrace o => exact absurd rfl (hr o).1
    | closeBrace o => exact absurd rfl (hr o).2
    | live o c hs =>
      simp only [Mark.isStructural, Bool.or_eq_false_iff] at hs
      exact ⟨hs.2, hs.1.2⟩
    | skip o c hc => rcases Text.isSpaceOrTab_iff.1 hc with rfl | rfl <;> exact ⟨rfl, rfl⟩
    | semicolon | lineBreak | join | joinReturn | slash | slashReturn | inert => exact ⟨rfl, rfl⟩
  cases h with
  | @draft x d d' m hd =>
    obtain ⟨hc, ho⟩ := htext d _ (d.step_read m) (by simp [hd])
    simp [hc, ho]
  | @statement x d m stop hd hs =>
    obtain ⟨hc, ho⟩ := htext d _ (d.step_read m) (by rcases hs with rfl | rfl <;> simp [hd])
    simp [hc, ho]
  | close o hb => simp [Nesting.depth, hb]
  | block o => simp [Nesting.depth]
  | loop o => simp [Nesting.depth]

/-! ### Runs of the pass -/

theorem reads_append (p : Pass) (ms ns : List Mark) :
    p.reads (ms ++ ns) = (p.reads ms).bind fun q => q.reads ns := by
  unfold reads
  rw [List.foldlM_append]
  rfl

theorem reads_append_ok (h : p.reads ms = .ok q) (ns : List Mark) :
    p.reads (ms ++ ns) = q.reads ns := by
  rw [reads_append, h]
  rfl

/-- A run without a fault, mark by mark. -/
theorem exists_of_reads_cons (h : p.reads (m :: ms) = .ok q) :
    ∃ p', p.read m = .ok p' ∧ p'.reads ms = .ok q := by
  rw [reads_cons] at h
  cases hp : p.read m with
  | error e =>
    rw [hp] at h
    cases h
  | ok p' =>
    rw [hp] at h
    exact ⟨p', rfl, h⟩

theorem exists_of_reads_append (h : p.reads (ms ++ ns) = .ok q) :
    ∃ p', p.reads ms = .ok p' ∧ p'.reads ns = .ok q := by
  rw [reads_append] at h
  cases hp : p.reads ms with
  | error e =>
    rw [hp] at h
    cases h
  | ok p' =>
    rw [hp] at h
    exact ⟨p', rfl, h⟩

/-- **What every step keeps, a run keeps.** -/
theorem reads_induction {I : Pass → Prop} (hstep : ∀ p m q, Step p m q → I p → I q)
    (hp : p.expansion.nesting.Ordered) (hI : I p) (h : p.reads ms = .ok q) :
    q.expansion.nesting.Ordered ∧ I q := by
  induction ms generalizing p with
  | nil =>
    cases h
    exact ⟨hp, hI⟩
  | cons m ms ih =>
    obtain ⟨p', hread, hreads⟩ := exists_of_reads_cons h
    have hs := step_of_read hread
    exact ih (ordered_of_step hs hp) (hstep p m p' hs hI) hreads

theorem ordered_of_reads (hp : p.expansion.nesting.Ordered) (h : p.reads ms = .ok q) :
    q.expansion.nesting.Ordered :=
  (reads_induction (I := fun _ => True) (fun _ _ _ _ _ => trivial) hp trivial h).1

theorem looped_of_reads (hp : p.expansion.nesting.Ordered) (h : p.reads ms = .ok q)
    (hl : p.expansion.looped = true) : q.expansion.looped = true :=
  (reads_induction (I := fun p => p.expansion.looped = true)
    (fun _ _ _ hs hl => looped_of_step hs hl) hp hl h).2

/-- A run from the start keeps the levels in order and the loops counted. -/
theorem of_reads_start (h : Pass.start.reads ms = .ok q) :
    q.expansion.nesting.Ordered ∧ q.expansion.Counted := by
  have hcounted : Pass.start.expansion.Counted := rfl
  exact reads_induction (I := fun p => p.expansion.Counted)
    (fun _ _ _ hs hc => counted_of_step hs hc) ordered_empty hcounted h

/-- **A run opens and closes blocks as its marks do.** -/
theorem depth_of_reads (hp : p.expansion.nesting.Ordered) (h : p.reads ms = .ok q) :
    q.expansion.nesting.depth + ms.countP (·.is '}') =
      p.expansion.nesting.depth + ms.countP (·.is '{') := by
  induction ms generalizing p with
  | nil =>
    cases h
    rfl
  | cons m ms ih =>
    obtain ⟨p', hread, hreads⟩ := exists_of_reads_cons h
    have hs := step_of_read hread
    have hdepth := depth_of_step hs
    have hrest := ih (ordered_of_step hs hp) hreads
    rw [← List.singleton_append, List.countP_append, List.countP_append]
    omega

/-- The pass that a run from the start comes to is that of its marks. -/
theorem eq_after_of_reads (h : Pass.start.reads ms = .ok q) : q = Pass.after ms := by
  rw [reads_start] at h
  split at h
  · cases h
  · exact (Except.ok.inj h).symm

/-- The blocks that are open after a run from the start are those of its marks. -/
theorem nesting_of_reads (h : Pass.start.reads ms = .ok q) :
    q.expansion.nesting = ⟨blocksOf (openBlocks ms).reverse⟩ := by
  rw [eq_after_of_reads h]
  rfl

end Pass

/-! ### What a script expands to -/

theorem Nesting.finish_eq_ok_iff {n : Nesting} : n.finish = .ok () ↔ n = .empty := by
  obtain ⟨bs⟩ := n
  rw [Nesting.finish]
  constructor
  · intro h
    cases hb : bs.getLast? with
    | none => rw [List.getLast?_eq_none_iff.1 hb]; rfl
    | some b => simp [hb] at h
  · rintro h
    cases h
    rfl

/-- **A script expands** exactly if the pass makes no fault and ends with no block open, and the
scan ends outside a literal. -/
theorem expandChars_eq_ok_iff {cs : List Char} {p : Program} :
    expandChars cs = .ok p ↔ ∃ q, Pass.start.reads (Scan.marks .start 0 cs) = .ok q ∧
      (Scan.endState .start 0 cs).finish = .ok () ∧ q.expansion.nesting = .empty ∧
      p = ⟨q.ended.lines.reverse, (Scan.marks .start 0 cs).any Mark.isStructural⟩ := by
  rw [expandChars_eq]
  constructor
  · intro h
    cases hq : Pass.start.reads (Scan.marks .start 0 cs) with
    | error e => rw [hq] at h; cases h
    | ok q =>
      cases hfinish : (Scan.endState .start 0 cs).finish with
      | error e => rw [hq, hfinish] at h; cases h
      | ok u =>
        cases hnesting : q.expansion.nesting.finish with
        | error e => rw [hq, hfinish] at h; simp only [Except.bind, hnesting] at h; cases h
        | ok u =>
          rw [hq, hfinish] at h
          simp only [Except.bind, hnesting] at h
          exact ⟨q, rfl, rfl, Nesting.finish_eq_ok_iff.1 hnesting, (Except.ok.inj h).symm⟩
  · rintro ⟨q, hq, hfinish, hnesting, rfl⟩
    rw [hq, hfinish]
    simp only [Except.bind, Nesting.finish_eq_ok_iff.2 hnesting]

/-- A fault of the pass is the script's. -/
theorem expandChars_eq_error {cs : List Char} {e : ScriptError}
    (h : Pass.start.reads (Scan.marks .start 0 cs) = .error e) : expandChars cs = .error e := by
  rw [expandChars_eq, h]
  rfl

end Braceline
