import Braceline.Expand

/-!
# One pass over the marks

A script is cut into segments first, and the segments are read after that. Both can be done in one
pass: a mark either goes into the draft of the segment under way or stops that segment, which is
then read at once. What holds along a script is proved along this pass.

* `Draft.step_read`: all that reading a mark can do to a draft.
* `steps_ofMarksFrom`: the pass makes what the segments make.
* `expandChars_eq`: so a script expands to what the pass leaves at its end.
-/

namespace Braceline

namespace Mark

/-- Is the mark a live `c`? -/
def is (m : Mark) (c : Char) : Bool := m.live && m.char == c

/-- Does the mark write structure: a live semicolon or brace? -/
def isStructural (m : Mark) : Bool := m.is ';' || m.is '{' || m.is '}'

variable {o : Nat} {c d : Char}

@[simp]
theorem is_live : is ⟨o, c, true⟩ d = (c == d) := rfl

theorem eq_of_is {m : Mark} (h : m.is c = true) : m = ⟨m.offset, c, true⟩ := by
  obtain ⟨o, a, live⟩ := m
  obtain ⟨hlive, ha⟩ := Bool.and_eq_true_iff.1 h
  obtain rfl : live = true := hlive
  obtain rfl : a = c := beq_iff_eq.1 ha
  rfl

end Mark

namespace Segment.Draft

/-- What a mark does to a draft: it stops the segment, completes a line continuation, or is text. -/
inductive Step (d : Draft) : Mark → Draft ⊕ Stop → Prop where
  | openBrace (o : Nat) : Step d ⟨o, '{', true⟩ (.inr (.openBrace o))
  | closeBrace (o : Nat) : Step d ⟨o, '}', true⟩ (.inr (.closeBrace o))
  | semicolon (o : Nat) : Step d ⟨o, ';', true⟩ (.inr .semicolon)
  | lineBreak (o : Nat) (h₁ : d.tail ≠ .slash) (h₂ : d.tail ≠ .slashReturn) :
    Step d ⟨o, '\n', true⟩ (.inr .lineBreak)
  | join (o : Nat) (h : d.tail = .slash) : Step d ⟨o, '\n', true⟩ (.inl (d.join 1))
  | joinReturn (o : Nat) (h : d.tail = .slashReturn) : Step d ⟨o, '\n', true⟩ (.inl (d.join 2))
  | slash (o : Nat) : Step d ⟨o, '\\', true⟩ (.inl (d.push '\\' .slash))
  | slashReturn (o : Nat) (h : d.tail = .slash) :
    Step d ⟨o, '\r', true⟩ (.inl (d.push '\r' .slashReturn))
  | skip (o : Nat) (c : Char) (hc : Text.isSpaceOrTab c = true) (h : d.tail = .joined) :
    Step d ⟨o, c, true⟩ (.inl d)
  | live (o : Nat) (c : Char) (hs : Mark.isStructural ⟨o, c, true⟩ = false) (hn : c ≠ '\n')
    (hb : c ≠ '\\') (hr : c = '\r' → d.tail ≠ .slash)
    (hj : Text.isSpaceOrTab c = true → d.tail ≠ .joined) :
    Step d ⟨o, c, true⟩ (.inl (d.push c .plain))
  | inert (o : Nat) (c : Char) : Step d ⟨o, c, false⟩ (.inl (d.push c .plain))

/-- **All that reading a mark can do to a draft.** -/
theorem step_read (d : Draft) (m : Mark) : d.Step m (d.read m) := by
  obtain ⟨o, c, live⟩ := m
  cases live with
  | false => exact .inert o c
  | true =>
    simp only [read, if_true, readLive]
    by_cases h₁ : c = '{'
    · subst h₁; exact .openBrace o
    by_cases h₂ : c = '}'
    · subst h₂; exact .closeBrace o
    by_cases h₃ : c = ';'
    · subst h₃; exact .semicolon o
    by_cases h₄ : c = '\n'
    · subst h₄
      cases ht : d.tail with
      | plain => exact .lineBreak o (by simp [ht]) (by simp [ht])
      | joined => exact .lineBreak o (by simp [ht]) (by simp [ht])
      | slash => exact .join o ht
      | slashReturn => exact .joinReturn o ht
    by_cases h₅ : c = '\\'
    · subst h₅; exact .slash o
    simp only [if_neg h₁, if_neg h₂, if_neg h₃, if_neg h₄, if_neg h₅]
    split
    · next h => obtain ⟨rfl, h⟩ := h; exact .slashReturn o h
    · next hr =>
      split
      · next h => exact .skip o c h.1 h.2
      · next hj =>
        refine .live o c (by simp [Mark.isStructural, h₁, h₂, h₃]) h₄ h₅ ?_ ?_
        · exact fun hc ht => hr ⟨hc, ht⟩
        · exact fun hc ht => hj ⟨hc, ht⟩

end Segment.Draft

/-- Where the pass stands: what the segments before made, and the segment under way. -/
structure Pass where
  expansion : Expansion
  draft : Segment.Draft
  deriving DecidableEq, Repr

namespace Pass

/-- Nothing has been read. -/
def start : Pass := ⟨.start, .empty⟩

/-- **One step of the pass.** -/
def read (p : Pass) (m : Mark) : Except ScriptError Pass :=
  match p.draft.read m with
  | .inl d => .ok ⟨p.expansion, d⟩
  | .inr stop => (p.expansion.step (p.draft.close stop)).map fun x => ⟨x, .empty⟩

/-- The pass over a stretch of marks, up to the first fault. -/
def reads (p : Pass) (ms : List Mark) : Except ScriptError Pass := ms.foldlM read p

/-- What the pass has made once the segment under way has ended with the script. -/
def ended (p : Pass) : Expansion := p.expansion.emit p.draft.text.reverse

variable {p : Pass} {m : Mark} {ms : List Mark}

theorem reads_cons : p.reads (m :: ms) = (p.read m).bind fun q => q.reads ms := rfl

/-- The pass over one more mark. -/
theorem reads_concat : p.reads (ms ++ [m]) = (p.reads ms).bind fun q => q.read m := by
  unfold reads
  rw [List.foldlM_append]
  cases List.foldlM read p ms with
  | error e => rfl
  | ok q => exact (by simp : [m].foldlM read q = q.read m)

/-- **The pass makes what the segments make.** -/
theorem steps_ofMarksFrom (x : Expansion) (d : Segment.Draft) (ms : List Mark) :
    x.steps (Segment.ofMarksFrom d ms) = (reads ⟨x, d⟩ ms).map ended := by
  induction ms generalizing x d with
  | nil => rfl
  | cons m ms ih =>
    rw [Segment.ofMarksFrom, reads_cons, read]
    cases hm : d.read m with
    | inl d' => simpa [Except.bind] using ih x d'
    | inr stop =>
      simp only [Expansion.steps, List.foldlM_cons]
      cases hs : x.step (d.close stop) with
      | error e => rfl
      | ok y => exact ih y .empty

@[simp]
theorem nesting_ended (p : Pass) : p.ended.nesting = p.expansion.nesting := by
  unfold ended Expansion.emit
  split <;> rfl

end Pass

/-- A segment ends at structure exactly where the script has it. -/
theorem Segment.any_isStructural_ofMarksFrom (d : Draft) (ms : List Mark) :
    ((ofMarksFrom d ms).any fun s => s.stop.isStructural) = ms.any Mark.isStructural := by
  induction ms generalizing d with
  | nil => rfl
  | cons m ms ih =>
    rw [ofMarksFrom, List.any_cons]
    have hstep := d.step_read m
    generalize d.read m = r at hstep
    cases hstep with
    | live o c hs => simp only [hs, Bool.false_or]; exact ih _
    | skip o c hc =>
      have hs : Mark.isStructural ⟨o, c, true⟩ = false := by
        have : c = ' ' ∨ c = '\t' := by simpa [Text.isSpaceOrTab] using hc
        rcases this with rfl | rfl <;> rfl
      simp only [hs, Bool.false_or]; exact ih _
    | lineBreak | openBrace | closeBrace | semicolon => rw [List.any_cons, ih]; rfl
    | join | joinReturn | slash | slashReturn | inert => exact ih _

/-- **A script expands to what one pass over its marks leaves.** -/
theorem expandChars_eq (cs : List Char) :
    expandChars cs =
      (Pass.start.reads (Scan.marks .start 0 cs)).bind fun p =>
        (Scan.endState .start 0 cs).finish.bind fun _ =>
          p.expansion.nesting.finish.bind fun _ =>
            .ok ⟨p.ended.lines.reverse, (Scan.marks .start 0 cs).any Mark.isStructural⟩ := by
  have hopen : expandChars cs =
      (Expansion.start.steps (Segment.ofMarksFrom .empty (Scan.marks .start 0 cs))).bind fun x =>
        (Scan.endState .start 0 cs).finish.bind fun _ =>
          x.nesting.finish.bind fun _ =>
            .ok ⟨x.lines.reverse, (Segment.ofMarksFrom .empty (Scan.marks .start 0 cs)).any
              fun s => s.stop.isStructural⟩ := rfl
  rw [hopen, Segment.any_isStructural_ofMarksFrom, Pass.steps_ofMarksFrom]
  change ((Pass.start.reads _).map Pass.ended).bind _ = _
  cases Pass.start.reads (Scan.marks .start 0 cs) with
  | error e => rfl
  | ok p => simp [Except.map, Except.bind]

end Braceline
