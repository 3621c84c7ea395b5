import Braceline.Proofs.Relocation

/-!
# Two passes on different footings

The same marks may be read inside different blocks, after different lines and further on in a
script. What the pass does to what stands below is to add to it: the blocks it opens are as many
levels deeper as the footing is, and so are its lines. Two things can still go wrong on the higher
footing. A block may be too deep there, and the loop may have been opened before.

* `read_above`: one step on two footings.
* `reads_above`, `reads_tooDeep`: a run on two footings, as far as the limit of the levels allows
  it.
* `read_repeated`: the step at which the loop is opened again.
-/

namespace Braceline

/-- The line `k` levels deeper. -/
def Line.raised (k : Nat) : Line → Line
  | statement l text => statement (l + k) text
  | eachLine l => eachLine (l + k)

/-- What two passes stand on. The second stands `rise` levels deeper, and reads its marks `shift`
bytes further on. -/
structure Footing where
  rise : Nat
  shift : Nat
  /-- The blocks and the lines below the first pass, and those below the second. -/
  blocks : List Block
  blocks' : List Block
  lines : List Line
  lines' : List Line
  /-- Has the second pass opened the loop before? -/
  loops : Bool
  level_eq : (⟨blocks'⟩ : Nesting).level = (⟨blocks⟩ : Nesting).level + rise

/-- The two have made the same on their footings: the same blocks and the same lines, those of the
second as much deeper as its footing is. -/
structure Expansion.Above (f : Footing) (x x' : Expansion) : Prop where
  blocks : ∃ bs bs', x.nesting.blocks = bs ++ f.blocks ∧ x'.nesting.blocks = bs' ++ f.blocks' ∧
    bs'.map Block.level = bs.map fun b => b.level + f.rise
  lines : ∃ ls, x.lines = ls ++ f.lines ∧ x'.lines = ls.map (Line.raised f.rise) ++ f.lines'
  looped : f.loops = true → x'.looped = true
  of_looped : x'.looped = true → x.looped = true ∨ f.loops = true

/-- The passes have made the same, and read the same segment. -/
structure Pass.Above (f : Footing) (p p' : Pass) : Prop where
  expansion : Expansion.Above f p.expansion p'.expansion
  draft : p'.draft = p.draft

/-- **The deepest level** that the open blocks reach while the marks are read. -/
def Pass.deepest (p : Pass) : List Mark → Nat
  | [] => p.expansion.nesting.level
  | m :: ms =>
    match p.read m with
    | .ok q => max p.expansion.nesting.level (q.deepest ms)
    | .error _ => p.expansion.nesting.level

variable {f : Footing} {x x' : Expansion} {p p' q : Pass} {m : Mark} {ms : List Mark} {o o' : Nat}
  {text : List Char} {k : Nat}

/-! ### What two expansions have in common -/

theorem raised_zero (l : Line) : l.raised 0 = l := by cases l <;> rfl

theorem map_raised_zero (ls : List Line) : ls.map (Line.raised 0) = ls :=
  (List.map_congr_left fun l _ => raised_zero l).trans (List.map_id ls)

theorem statements_raised (level k : Nat) (text : List Char) :
    statements (level + k) text = (statements level text).map (Line.raised k) := by
  unfold statements
  cases Text.trim text <;> rfl

namespace Expansion.Above

theorem level (h : Above f x x') : x'.nesting.level = x.nesting.level + f.rise := by
  obtain ⟨bs, bs', hx, hx', hlevels⟩ := h.blocks
  obtain ⟨⟨_⟩, _, _⟩ := x
  obtain ⟨⟨_⟩, _, _⟩ := x'
  obtain rfl := hx
  obtain rfl := hx'
  cases bs with
  | nil =>
    obtain rfl : bs' = [] := by simpa using hlevels
    exact f.level_eq
  | cons b bs =>
    cases bs' with
    | nil => cases hlevels
    | cons b' bs' => exact (List.cons.inj hlevels).1

/-- Where the first is down to its footing, so is the second. -/
theorem blocks_eq (h : Above f x x') (hx : x.nesting.blocks = f.blocks) :
    x'.nesting.blocks = f.blocks' := by
  obtain ⟨bs, bs', hbs, hbs', hlevels⟩ := h.blocks
  obtain rfl : bs = [] := List.append_left_eq_self.1 (hbs.symm.trans hx)
  obtain rfl : bs' = [] := List.map_eq_nil_iff.1 hlevels
  exact hbs'

/-- On a footing without lines, the second has all the lines of the first above its own. -/
theorem lines_eq (h : Above f x x') (hf : f.lines = []) :
    x'.lines = x.lines.map (Line.raised f.rise) ++ f.lines' := by
  obtain ⟨ls, hx, hx'⟩ := h.lines
  rw [hx', hx, hf, List.append_nil]

/-- Both make the same statement. -/
theorem emit (h : Above f x x') (text : List Char) : Above f (x.emit text) (x'.emit text) := by
  obtain ⟨ls, hx, hx'⟩ := h.lines
  refine ⟨by simpa using h.blocks, ?_, by simpa using h.looped, by simpa using h.of_looped⟩
  refine ⟨(statements x.nesting.level text).reverse ++ ls, ?_, ?_⟩
  · rw [emit_eq, hx, List.append_assoc]
  · rw [emit_eq, hx', h.level, statements_raised, List.map_append, List.map_reverse,
      List.append_assoc]

/-- Both open a block under a line that they make. -/
theorem enter (h : Above f x x') (o o' step : Nat) (l : Line) {b b' : Bool}
    (hb : f.loops = true → b' = true) (hb' : b' = true → b = true ∨ f.loops = true) :
    Above f ⟨⟨⟨x.nesting.level + step, o⟩ :: x.nesting.blocks⟩, b, l :: x.lines⟩
      ⟨⟨⟨x'.nesting.level + step, o'⟩ :: x'.nesting.blocks⟩, b', l.raised f.rise :: x'.lines⟩ := by
  obtain ⟨bs, bs', hx, hx', hlevels⟩ := h.blocks
  obtain ⟨ls, hl, hl'⟩ := h.lines
  refine ⟨⟨⟨x.nesting.level + step, o⟩ :: bs, ⟨x'.nesting.level + step, o'⟩ :: bs', ?_, ?_, ?_⟩,
    ⟨l :: ls, by rw [hl]; rfl, by rw [hl']; rfl⟩, hb, hb'⟩
  · rw [hx]
    rfl
  · rw [hx']
    rfl
  · have hsum : x.nesting.level + f.rise + step = x.nesting.level + step + f.rise := by omega
    rw [List.map_cons, List.map_cons, hlevels, h.level, hsum]

/-- Both close a block, unless it belongs to the footing. -/
theorem leave (h : Above f x x') {b : Block} {bs : List Block} (hb : x.nesting.blocks = b :: bs)
    (hstay : f.blocks.length < x.nesting.depth) :
    ∃ b' bs', x'.nesting.blocks = b' :: bs' ∧
      Above f { x with nesting := ⟨bs⟩ } { x' with nesting := ⟨bs'⟩ } := by
  obtain ⟨cs, cs', hx, hx', hlevels⟩ := h.blocks
  rw [Nesting.depth, hx, List.length_append] at hstay
  cases cs with
  | nil => simp at hstay
  | cons c cs =>
    cases cs' with
    | nil => cases hlevels
    | cons c' cs' =>
      obtain ⟨-, rfl⟩ := List.cons.inj (hb.symm.trans hx)
      exact ⟨c', cs' ++ f.blocks', hx', ⟨cs, cs', rfl, rfl, (List.cons.inj hlevels).2⟩, h.lines,
        h.looped, h.of_looped⟩

/-- Both open a block under one header, unless it is too deep on the second footing. -/
theorem enterBlock (h : Above f x x')
    (hh : text.all Text.isBlank = false) (o o' : Nat) :
    if maxLevel < x.nesting.level + 1 + f.rise then
      x'.enterBlock text o' = .error (.nestingTooDeep o')
    else ∃ y', x'.enterBlock text o' = .ok y' ∧
      Above f ⟨⟨⟨x.nesting.level + 1, o⟩ :: x.nesting.blocks⟩, x.looped, .statement x.nesting.level
        (String.ofList (Segment.withColon (Text.trim text))) :: x.lines⟩ y' := by
  have hlevel := h.level
  have hopen := enterBlock_eq x' text o'
  rw [hh, if_neg (by simp)] at hopen
  split
  · rw [hopen, if_pos (by omega)]
  · rw [if_neg (by omega)] at hopen
    refine ⟨_, hopen, ?_⟩
    have habove := h.enter o o' 1 (.statement x.nesting.level
      (String.ofList (Segment.withColon (Text.trim text)))) h.looped h.of_looped
    rw [hlevel] at habove ⊢
    exact habove

/-- Both open the loop, unless it is too deep on the second footing or open below it. -/
theorem enterEachLine (h : Above f x x')
    (hn : x'.looped = false) (before : List Char) (o o' : Nat) :
    if maxLevel < x.nesting.level + Line.eachLineDepth + f.rise then
      x'.enterEachLine before o' = .error (.nestingTooDeep o')
    else ∃ y', x'.enterEachLine before o' = .ok y' ∧
      Above f ⟨⟨⟨x.nesting.level + Line.eachLineDepth, o⟩ :: x.nesting.blocks⟩, true,
        .eachLine x.nesting.level :: (x.emit before).lines⟩ y' := by
  have hlevel := h.level
  have hopen := enterEachLine_eq x' before o'
  rw [hn, if_neg (by simp)] at hopen
  split
  · rw [hopen, if_pos (by omega)]
  · rw [if_neg (by omega)] at hopen
    refine ⟨_, hopen, ?_⟩
    have hloops : f.loops = true → true = true := fun _ => rfl
    have habove := (h.emit before).enter o o' Line.eachLineDepth (.eachLine x.nesting.level)
      hloops fun _ => .inl rfl
    rw [nesting_emit, nesting_emit, hlevel] at habove
    have hlines : (statements x'.nesting.level before ++
        [Line.eachLine x'.nesting.level]).reverse ++ x'.lines =
          (Line.eachLine x.nesting.level).raised f.rise :: (x'.emit before).lines := by
      rw [emit_eq, hlevel]
      simp [Line.raised]
    rw [hlines, hlevel]
    exact habove

end Expansion.Above

/-! ### One step -/

namespace Pass

theorem read_moved_inl {d d' : Segment.Draft} (h : d.read m = .inl d') :
    d.read (m.moved k) = .inl d' := by
  rw [Mark.moved, d.read_relocated, h]
  rfl

theorem read_moved_inr {d : Segment.Draft} {stop : Stop} (h : d.read m = .inr stop)
    (hs : stop = .semicolon ∨ stop = .lineBreak) : d.read (m.moved k) = .inr stop := by
  rw [Mark.moved, d.read_relocated, h]
  rcases hs with rfl | rfl <;> rfl

/-- What a step on the second footing comes to: it goes on above the footing, or the block that is
opened is too deep there. -/
inductive Outcome (f : Footing) (m : Mark) (q p' : Pass) : Prop where
  | above (q' : Pass) (hlevel : q.expansion.nesting.level + f.rise ≤ maxLevel)
    (hread : p'.read (m.moved f.shift) = .ok q') (h : Above f q q')
  | tooDeep (hlevel : maxLevel < q.expansion.nesting.level + f.rise) (hm : m.is '{' = true)
    (hread : p'.read (m.moved f.shift) = .error (.nestingTooDeep (m.offset + f.shift)))

/-- **One step on two footings.** -/
theorem read_above (h : Above f p p') (hs : Step p m q) (hp : p.expansion.nesting.Ordered)
    (hlevel : p.expansion.nesting.level + f.rise ≤ maxLevel)
    (hstay : m.is '}' = true → f.blocks.length < p.expansion.nesting.depth)
    (hloop : f.loops = true → q.expansion.looped = false) : Outcome f m q p' := by
  obtain ⟨hx, hdraft⟩ := h
  obtain ⟨x', d'⟩ := p'
  obtain rfl : d' = p.draft := hdraft
  cases hs with
  | draft hd => exact .above _ hlevel (read_of_inl (read_moved_inl hd)) ⟨hx, rfl⟩
  | @statement x d m stop hd hs =>
    refine .above _ ?_ (read_of_statement (read_moved_inr hd hs) hs) ⟨hx.emit _, rfl⟩
    rw [nesting_emit]
    exact hlevel
  | @close x d o b bs hb =>
    have hb' : (x.emit d.text.reverse).nesting.blocks = b :: bs := by rw [nesting_emit]; exact hb
    have hdepth : f.blocks.length < (x.emit d.text.reverse).nesting.depth := by
      rw [nesting_emit]
      exact hstay rfl
    obtain ⟨b', bs', hx', habove⟩ := (hx.emit d.text.reverse).leave hb' hdepth
    rw [nesting_emit] at hx'
    have hread : read ⟨x', d⟩ ⟨o + f.shift, '}', true⟩ =
        .ok ⟨{ x'.emit d.text.reverse with nesting := ⟨bs'⟩ }, .empty⟩ := by
      rw [read_close, leave_emit, hx']
      rfl
    refine .above _ ?_ hread ⟨habove, rfl⟩
    -- closing a block leads to no deeper level
    have hlower := level_lt_of_cons hp hb
    have hb' : b.level ≤ x.nesting.level := level_le_of_ordered hp b (hb ▸ List.mem_cons_self)
    exact (Nat.add_le_add_right (hlower.le.trans hb') _).trans hlevel
  | @block x d o hl hh hm =>
    have hopen := hx.enterBlock hh o (o + f.shift)
    have hread : read ⟨x', d⟩ ⟨o + f.shift, '{', true⟩ =
        (x'.enterBlock d.text.reverse (o + f.shift)).map fun y => ⟨y, .empty⟩ := read_block hl
    split at hopen
    · next hdeep =>
      rw [hopen] at hread
      exact .tooDeep hdeep rfl hread
    · next hdeep =>
      obtain ⟨y', hy', habove⟩ := hopen
      rw [hy'] at hread
      exact .above _ (Nat.not_lt.1 hdeep) hread ⟨habove, rfl⟩
  | @loop x d o before hl hn hm =>
    have hn' : x'.looped = false := by
      cases hlooped : x'.looped with
      | false => rfl
      | true =>
        rcases hx.of_looped hlooped with h | h
        · exact absurd h (by simp [hn])
        · exact absurd (hloop h) (by simp)
    have hopen := hx.enterEachLine hn' before o (o + f.shift)
    have hread : read ⟨x', d⟩ ⟨o + f.shift, '{', true⟩ =
        (x'.enterEachLine before (o + f.shift)).map fun y => ⟨y, .empty⟩ := read_loop hl
    split at hopen
    · next hdeep =>
      rw [hopen] at hread
      exact .tooDeep hdeep rfl hread
    · next hdeep =>
      obtain ⟨y', hy', habove⟩ := hopen
      rw [hy'] at hread
      exact .above _ (Nat.not_lt.1 hdeep) hread ⟨habove, rfl⟩

/-- **The loop cannot be opened again** on a footing that has opened it. -/
theorem read_repeated (h : Above f p p') (hs : Step p m q) (hf : f.loops = true)
    (hlevel : p.expansion.nesting.level + f.rise ≤ maxLevel)
    (hp : p.expansion.looped = false) (hq : q.expansion.looped = true) :
    p'.read (m.moved f.shift) = .error (.repeatedEachLine (m.offset + f.shift)) := by
  obtain ⟨hx, hdraft⟩ := h
  obtain ⟨x', d'⟩ := p'
  obtain rfl : d' = p.draft := hdraft
  cases hs with
  | draft | block => exact absurd (hp.symm.trans hq) (by simp)
  | statement =>
    rw [looped_emit] at hq
    exact absurd (hp.symm.trans hq) (by simp)
  | @close x d =>
    have hlooped := looped_emit x d.text.reverse
    exact absurd (hp.symm.trans (hlooped.symm.trans hq)) (by simp)
  | @loop x d o before hl hn hm =>
    have hread : read ⟨x', d⟩ ⟨o + f.shift, '{', true⟩ =
        .error (.repeatedEachLine (o + f.shift)) := by
      rw [read_loop hl, enterEachLine_eq, hx.looped hf, if_pos rfl]
      rfl
    exact hread

/-! ### Runs -/

theorem deepest_cons (h : p.read m = .ok q) (ms : List Mark) :
    p.deepest (m :: ms) = max p.expansion.nesting.level (q.deepest ms) := by
  rw [deepest, h]

theorem level_le_deepest (p : Pass) (ms : List Mark) :
    p.expansion.nesting.level ≤ p.deepest ms := by
  cases ms with
  | nil => exact Nat.le_refl _
  | cons m ms =>
    rw [deepest]
    split
    · exact Nat.le_max_left _ _
    · exact Nat.le_refl _

/-- No block of a run without a fault is deeper than the limit. -/
theorem deepest_le (hp : p.expansion.nesting.Ordered) (h : p.reads ms = .ok q) :
    p.deepest ms ≤ maxLevel := by
  induction ms generalizing p with
  | nil => exact level_le_maxLevel hp
  | cons m ms ih =>
    obtain ⟨p₁, hread, hreads⟩ := exists_of_reads_cons h
    have hs := step_of_read hread
    rw [deepest_cons hread]
    exact Nat.max_le.2 ⟨level_le_maxLevel hp, ih (ordered_of_step hs hp) hreads⟩

/-- A run closes no more blocks than are open when it starts. -/
theorem surplus_le_depth (hp : p.expansion.nesting.Ordered) (h : p.reads ms = .ok q) :
    surplus ms ≤ p.expansion.nesting.depth := by
  rw [surplus_le_iff]
  rintro l ⟨ns, rfl⟩
  obtain ⟨p₁, hl, -⟩ := exists_of_reads_append h
  have := depth_of_reads hp hl
  omega

/-- Marks that stay above a footing do so from the first of them on. -/
theorem stays_cons (hs : Step p m q) {n : Nat}
    (hstay : surplus (m :: ms) + n ≤ p.expansion.nesting.depth) :
    (m.is '}' = true → n < p.expansion.nesting.depth) ∧
      surplus ms + n ≤ q.expansion.nesting.depth := by
  have hdepth := depth_of_step hs
  rw [surplus] at hstay
  by_cases ho : m.is '{'
  · have hc : m.is '}' = false := not_is_of_is (by decide) ho
    simp only [List.countP_cons, List.countP_nil, ho, hc, if_true, Bool.false_eq_true,
      if_false] at hstay hdepth ⊢
    exact ⟨fun h => absurd h (by simp), by omega⟩
  by_cases hc : m.is '}'
  · simp only [List.countP_cons, List.countP_nil, ho, hc, if_true, Bool.false_eq_true,
      if_false] at hstay hdepth ⊢
    exact ⟨fun _ => by omega, by omega⟩
  · simp only [List.countP_cons, List.countP_nil, ho, hc, Bool.false_eq_true,
      if_false] at hstay hdepth ⊢
    exact ⟨fun h => absurd h (by simp), by omega⟩

/-- A run that opens no loop opens none at its first mark. -/
theorem looped_cons (hs : Step p m q) (hp : p.expansion.nesting.Ordered) {r : Pass}
    (h : q.reads ms = .ok r) (hr : r.expansion.looped = false) : q.expansion.looped = false := by
  cases hq : q.expansion.looped with
  | false => rfl
  | true =>
    rw [looped_of_reads (ordered_of_step hs hp) h hq] at hr
    cases hr

/-- **A run on two footings** makes the same, if no block is too deep on the second one. -/
theorem reads_above (h : Above f p p') (hp : p.expansion.nesting.Ordered)
    (hq : p.reads ms = .ok q) (hdeep : p.deepest ms + f.rise ≤ maxLevel)
    (hstay : surplus ms + f.blocks.length ≤ p.expansion.nesting.depth)
    (hloop : f.loops = true → q.expansion.looped = false) :
    ∃ q', p'.reads (ms.map (Mark.moved f.shift)) = .ok q' ∧ Above f q q' := by
  induction ms generalizing p p' with
  | nil =>
    cases hq
    exact ⟨p', rfl, h⟩
  | cons m ms ih =>
    obtain ⟨p₁, hread, hreads⟩ := exists_of_reads_cons hq
    have hs := step_of_read hread
    obtain ⟨hclose, hrest⟩ := stays_cons hs hstay
    rw [deepest_cons hread] at hdeep
    have hlevel := level_le_deepest p₁ ms
    have hfirst := read_above h hs hp (by omega) hclose
      fun hf => looped_cons hs hp hreads (hloop hf)
    cases hfirst with
    | tooDeep htoo => omega
    | above p₁' _ hread' habove =>
      obtain ⟨q', hreads', habove'⟩ := ih habove (ordered_of_step hs hp) hreads (by omega) hrest
      refine ⟨q', ?_, habove'⟩
      rw [List.map_cons, reads_cons, hread']
      exact hreads'

/-- **A run that goes too deep** on the second footing stops at a brace that opens a block. -/
theorem reads_tooDeep (h : Above f p p') (hp : p.expansion.nesting.Ordered)
    (hq : p.reads ms = .ok q) (hlevel : p.expansion.nesting.level + f.rise ≤ maxLevel)
    (hdeep : maxLevel < p.deepest ms + f.rise)
    (hstay : surplus ms + f.blocks.length ≤ p.expansion.nesting.depth)
    (hloop : f.loops = true → q.expansion.looped = false) :
    ∃ m ∈ ms, m.is '{' = true ∧ p'.reads (ms.map (Mark.moved f.shift)) =
      .error (.nestingTooDeep (m.offset + f.shift)) := by
  induction ms generalizing p p' with
  | nil =>
    rw [deepest] at hdeep
    omega
  | cons m ms ih =>
    obtain ⟨p₁, hread, hreads⟩ := exists_of_reads_cons hq
    have hs := step_of_read hread
    obtain ⟨hclose, hrest⟩ := stays_cons hs hstay
    rw [deepest_cons hread] at hdeep
    have hfirst := read_above h hs hp hlevel hclose fun hf => looped_cons hs hp hreads (hloop hf)
    cases hfirst with
    | tooDeep _ hm hread' =>
      refine ⟨m, List.mem_cons_self, hm, ?_⟩
      rw [List.map_cons, reads_cons, hread']
      rfl
    | above p₁' hlevel' hread' habove =>
      obtain ⟨m', hm', hbrace, hreads'⟩ :=
        ih habove (ordered_of_step hs hp) hreads hlevel' (by omega) hrest
      refine ⟨m', List.mem_cons_of_mem m hm', hbrace, ?_⟩
      rw [List.map_cons, reads_cons, hread']
      exact hreads'

end Pass

end Braceline
