import Braceline.Proofs.Layout

/-!
# The outline of a program

What is seen of the lines of a program without their texts: which of them is the head of the loop,
and the level of each. It can be told from the segments under way, before any blank is trimmed.

* `outline_lines`: the outline of the lines that a place makes.
* `outline_programOf`: the outline of a program.
-/

namespace Braceline

/-- A line without its text: is it the head of the loop, and its level. -/
def Line.outline (l : Line) : Bool × Nat := (l.isEachLine, l.level)

/-- The outline of a program. -/
def Program.outline (p : Program) : List (Bool × Nat) := p.lines.map Line.outline

/-- A statement at this level, if the text is not blank. -/
def outlineOf (level : Nat) (text : List Char) : List (Bool × Nat) :=
  if text.all Text.isBlank then [] else [(false, level)]

namespace Place

/-- Does a statement end here? A line break ends one unless it continues the line. -/
def endsStatement (p : Place) : Bool :=
  p.mark.is ';' || p.mark.is '}' || p.mark.is '\n' && !Segment.continues p.before.reverse

/-- The outline of the lines that a place makes. The head of the loop comes after the statement
that stands before its word. -/
def outline (p : Place) : List (Bool × Nat) :=
  if p.isLoop then
    outlineOf (levelAfter p.before) (segmentAfter p.before).dropLast.dropLast ++
      [(true, levelAfter p.before)]
  else if p.mark.is '{' then [(false, levelAfter p.before)]
  else if p.endsStatement then outlineOf (levelAfter p.before) (segmentAfter p.before)
  else []

end Place

/-- The outline of the program that the marks of a script make. -/
def outlineAfter (ms : List Mark) : List (Bool × Nat) :=
  (places ms).flatMap Place.outline ++ outlineOf (levelAfter ms) (segmentAfter ms)

variable {ms : List Mark} {level : Nat} {o : Nat}

theorem outline_statements (level : Nat) (text : List Char) :
    (statements level text).map Line.outline = outlineOf level text := by
  unfold statements outlineOf
  cases h : Text.trim text with
  | nil => rw [if_pos ((Text.trim_eq_nil_iff text).1 h)]; rfl
  | cons c cs =>
    have hb : ¬ text.all Text.isBlank = true := by
      rw [← Text.trim_eq_nil_iff, h]
      exact List.cons_ne_nil c cs
    rw [if_neg hb]
    rfl

/-- The draft and the segment under way have one outline. -/
theorem outlineOf_draft (level : Nat) (ms : List Mark) :
    outlineOf level (Segment.Draft.after ms).text.reverse = outlineOf level (segmentAfter ms) := by
  rw [outlineOf, outlineOf, all_isBlank_draft]

/-- What stands before the loop's word is blank in the draft exactly if it is in the segment. -/
theorem outlineOf_before {before : List Char}
    (h : Segment.beforeEachLine? (Segment.Draft.after ms).text.reverse = some before) :
    outlineOf level before = outlineOf level (segmentAfter ms).dropLast.dropLast := by
  have hsq := Segment.beforeEachLine?_of_squeeze_eq (Segment.Draft.holds_after ms).text
  rw [h] at hsq
  obtain ⟨back, hback, heq⟩ := Option.map_eq_some_iff.1 hsq.symm
  have hword := Segment.eq_cons_of_beforeEachLine? hback
  have hdrop : (segmentAfter ms).dropLast.dropLast = back := by
    rw [segmentAfter, hword]
    simp
  have hblank := Text.all_isBlank_of_squeeze_eq heq
  rw [List.all_reverse, List.all_reverse] at hblank
  rw [hdrop, outlineOf, outlineOf, hblank]

namespace Place

variable {m : Mark}

theorem outline_of_stop (ho : m.is '{' = false) (h : endsStatement ⟨ms, m⟩ = true) :
    outline ⟨ms, m⟩ = outlineOf (levelAfter ms) (segmentAfter ms) := by
  simp [outline, isLoop_eq_false, ho, h]

theorem outline_of_draft (ho : m.is '{' = false) (h : endsStatement ⟨ms, m⟩ = false) :
    outline ⟨ms, m⟩ = [] := by
  simp [outline, isLoop_eq_false, ho, h]

/-- The outline of what an opening brace makes. -/
theorem outline_open (ms : List Mark) (o : Nat) :
    (Place.lines ⟨ms, ⟨o, '{', true⟩⟩).map Line.outline = outline ⟨ms, ⟨o, '{', true⟩⟩ := by
  rw [outline, isLoop_open, lines_open]
  cases h : Segment.beforeEachLine? (Segment.Draft.after ms).text.reverse with
  | none => rfl
  | some before =>
    rw [List.map_append, outline_statements, outlineOf_before h]
    rfl

/-- **The lines that a place makes** have the outline that the segment before it gives. -/
theorem outline_lines (p : Place) : p.lines.map Line.outline = p.outline := by
  obtain ⟨ms, m⟩ := p
  rw [Place.lines]
  have hstep := (Segment.Draft.after ms).step_read m
  generalize (Segment.Draft.after ms).read m = r at hstep
  -- any stop but an opening brace makes the statement of its segment, if that is not blank
  have hstop (stop : Stop) (hs : ∀ o, stop ≠ .openBrace o) :
      (((Segment.Draft.after ms).close stop).lines (levelAfter ms)).map Line.outline =
        outlineOf (levelAfter ms) (segmentAfter ms) := by
    rw [← outlineOf_draft, ← outline_statements, Segment.lines]
    cases stop with
    | openBrace o => exact absurd rfl (hs o)
    | closeBrace | semicolon | lineBreak | endOfScript => rfl
  cases hstep with
  | openBrace o => exact outline_open ms o
  | closeBrace o => exact (hstop _ fun _ => Stop.noConfusion).trans (outline_of_stop rfl rfl).symm
  | semicolon o => exact (hstop _ fun _ => Stop.noConfusion).trans (outline_of_stop rfl rfl).symm
  | lineBreak o h₁ h₂ =>
    have hc : Segment.continues ms.reverse = false := by
      rw [Bool.eq_false_iff, ne_eq, Segment.Draft.continues_iff_tail]
      exact fun h => h.elim h₁ h₂
    have hend : endsStatement ⟨ms, ⟨o, '\n', true⟩⟩ = true := by simp [endsStatement, hc]
    exact (hstop _ fun _ => Stop.noConfusion).trans (outline_of_stop rfl hend).symm
  | join o h =>
    have hc := (Segment.Draft.continues_iff_tail ms).2 (.inl h)
    exact (outline_of_draft rfl (by simp [endsStatement, hc])).symm
  | joinReturn o h =>
    have hc := (Segment.Draft.continues_iff_tail ms).2 (.inr h)
    exact (outline_of_draft rfl (by simp [endsStatement, hc])).symm
  | slash | slashReturn | inert => exact (outline_of_draft rfl rfl).symm
  | skip o c hc =>
    rcases Text.isSpaceOrTab_iff.1 hc with rfl | rfl <;> exact (outline_of_draft rfl rfl).symm
  | live o c hs hn =>
    simp only [Mark.isStructural, Bool.or_eq_false_iff] at hs
    have hend : endsStatement ⟨ms, ⟨o, c, true⟩⟩ = false := by
      simp [endsStatement, hs.1.1, hs.2, hn]
    exact (outline_of_draft hs.1.2 hend).symm

end Place

theorem outline_programOf (ms : List Mark) : (programOf ms).outline = outlineAfter ms := by
  rw [Program.outline, programOf, outlineAfter, List.map_append, List.map_flatMap,
    outline_statements, outlineOf_draft]
  simp only [Place.outline_lines]

end Braceline
