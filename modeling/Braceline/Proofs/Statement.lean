import Braceline.Proofs.Footing

/-!
# Reading one statement

A text without a live stop stands in one segment, wherever it is written. The pass reads it into
its draft as it is; what stands after it then decides whether it becomes a statement or the header
of a block.

* `reads_text`: what such a text leaves in the draft.
* `reads_semicolon`, `reads_newline`: it becomes a statement.
* `reads_header`: it becomes the header of a block.
* `reads_closeBrace`, `reads_loopWord_ok`: a brace on its own, and the word of the loop with its
  brace.
-/

namespace Braceline

/-- Could the mark end a segment? A line break may also continue a line. -/
def Mark.isStop (m : Mark) : Bool := m.isStructural || m.is '\n'

/-- A text that stands in one segment: no live character of it could end one, and its scan ends
outside a literal. -/
structure Unbroken (t : List Char) : Prop where
  noStop : ∀ m ∈ Scan.marks .start 0 t, m.isStop = false
  closed : (Scan.endState .start 0 t).finish = .ok ()

variable {t rest : List Char} {x : Expansion} {d : Segment.Draft} {m : Mark} {ms : List Mark}
  {o : Nat} {c : Char}

/-! ### Texts without a stop -/

theorem finish_moved (k : Nat) (s : Scan.State) (h : s.finish = .ok ()) :
    (s.moved k).finish = .ok () := by
  rw [Scan.finish_moved_eq, h]
  rfl

/-- It has no stop wherever it stands. -/
theorem Unbroken.noStop_at (h : Unbroken t) (o : Nat) :
    ∀ m ∈ Scan.marks .start o t, m.isStop = false := by
  intro m hm
  rw [Scan.marks_start_at] at hm
  obtain ⟨m', hm', rfl⟩ := List.mem_map.1 hm
  exact h.noStop m' hm'

theorem Unbroken.closed_at (h : Unbroken t) (o : Nat) :
    (Scan.endState .start o t).finish = .ok () := by
  rw [Scan.endState_start_at]
  exact finish_moved o _ h.closed

/-- If it does not end in a comment, the scan stands as it starts after it. -/
theorem Unbroken.endState (h : Unbroken t) (hc : (Scan.endState .start 0 t).mode ≠ .comment)
    (o : Nat) : Scan.endState .start o t = .start :=
  Scan.endState_start_of (Scan.endState_eq_start h.closed hc) o

/-- A text that is trimmed is a statement as it is. -/
theorem statements_of_trim {s : String} (htrim : Text.trim s.toList = s.toList)
    (hne : s.toList ≠ []) (k : Nat) : statements k s.toList = [.statement k s] := by
  rw [statements, htrim]
  split
  · next h => exact absurd h hne
  · rw [String.ofList_toList]

namespace Segment.Draft

/-- A line break ends the segment unless it continues a line. -/
theorem read_lineBreak (h : continues ms.reverse = false) (o : Nat) :
    (after ms).read ⟨o, '\n', true⟩ = .inr .lineBreak := by
  have htail : ¬ ((after ms).tail = .slash ∨ (after ms).tail = .slashReturn) := by
    rw [← continues_iff_tail, h]
    simp
  have hstep := (after ms).step_read ⟨o, '\n', true⟩
  generalize (after ms).read ⟨o, '\n', true⟩ = r at hstep
  cases hstep with
  | lineBreak => rfl
  | join _ h => exact absurd (.inl h) htail
  | joinReturn _ h => exact absurd (.inr h) htail
  | skip _ _ hc => cases hc
  | live _ _ _ hn => exact absurd rfl hn

/-- The draft does not depend on where its marks stand. -/
theorem after_moved (k : Nat) (ms : List Mark) : after (ms.map (Mark.moved k)) = after ms := by
  induction ms using List.reverseRecOn with
  | nil => rfl
  | append_singleton ms m ih =>
    rw [List.map_append, List.map_singleton, after_concat, ih, after_concat, next, next,
      Mark.moved, read_relocated]
    cases (after ms).read m <;> rfl

/-- A mark that stops nothing is text, unless a continuation has just left its space. -/
theorem read_of_isStop (hm : m.isStop = false) (ht : d.tail ≠ .joined) :
    ∃ tail, tail ≠ .joined ∧ d.read m = .inl (d.push m.char tail) := by
  have hstep := d.step_read m
  generalize d.read m = r at hstep
  cases hstep with
  | openBrace | closeBrace | semicolon | lineBreak | join | joinReturn => cases hm
  | slash => exact ⟨.slash, by simp, rfl⟩
  | slashReturn => exact ⟨.slashReturn, by simp, rfl⟩
  | skip o c hc h => exact absurd h ht
  | live | inert => exact ⟨.plain, by simp, rfl⟩

end Segment.Draft

namespace Pass

/-- **A text without a stop** goes into the draft as it is. -/
theorem reads_text (x : Expansion) (h : ∀ m ∈ ms, m.isStop = false) :
    reads ⟨x, .empty⟩ ms = .ok ⟨x, .after ms⟩ ∧
      (Segment.Draft.after ms).text = (ms.map Mark.char).reverse ∧
      (Segment.Draft.after ms).tail ≠ .joined := by
  induction ms using List.reverseRecOn with
  | nil => exact ⟨rfl, rfl, by decide⟩
  | append_singleton ms m ih =>
    obtain ⟨hreads, htext, htail⟩ := ih fun m hm => h m (List.mem_append_left _ hm)
    obtain ⟨tail, hne, hread⟩ :=
      Segment.Draft.read_of_isStop (h m (List.mem_append_right _ (List.mem_singleton_self m))) htail
    have hafter : Segment.Draft.after (ms ++ [m]) = (Segment.Draft.after ms).push m.char tail := by
      rw [Segment.Draft.after_concat, Segment.Draft.next, hread]
    refine ⟨?_, ?_, ?_⟩
    · rw [reads_concat, hreads, hafter]
      exact read_of_inl hread
    · rw [hafter, Segment.Draft.push, htext, List.map_append, List.reverse_append]
      rfl
    · rw [hafter]
      exact hne

/-- The pass over a text and the live character at which it is cut. -/
theorem reads_cut (p : Pass) {s : Scan.State} {cs : List Char}
    (h : ((Scan.endState s o cs).step (o + Text.byteSize cs) c rest).2 = true) :
    p.reads (Scan.marks s o (cs ++ c :: rest)) = (p.reads (Scan.marks s o cs)).bind fun q =>
      (q.read ⟨o + Text.byteSize cs, c, true⟩).bind fun r =>
        r.reads (Scan.marks .start (o + Text.byteSize cs + c.utf8Size) rest) := by
  rw [Scan.marks_cut h, reads_append]
  rfl

/-- An unbroken text, and then the character after it. -/
theorem reads_unbroken (ht : Unbroken t) (x : Expansion)
    (h : ((Scan.endState .start o t).step (o + Text.byteSize t) c rest).2 = true) :
    reads ⟨x, .empty⟩ (Scan.marks .start o (t ++ c :: rest)) =
      (read ⟨x, .after (Scan.marks .start o t)⟩ ⟨o + Text.byteSize t, c, true⟩).bind fun r =>
        r.reads (Scan.marks .start (o + Text.byteSize t + c.utf8Size) rest) := by
  rw [reads_cut _ h, (reads_text x (ht.noStop_at o)).1]
  rfl

theorem text_after_unbroken (ht : Unbroken t) (o : Nat) :
    (Segment.Draft.after (Scan.marks .start o t)).text.reverse = t := by
  rw [(reads_text .start (ht.noStop_at o)).2.1, Scan.marks_char, List.reverse_reverse]

/-- **Before a semicolon** a text is a statement. -/
theorem reads_semicolon (ht : Unbroken t) (hc : (Scan.endState .start 0 t).mode ≠ .comment)
    (x : Expansion) (o : Nat) (rest : List Char) :
    reads ⟨x, .empty⟩ (Scan.marks .start o (t ++ ';' :: rest)) =
      reads ⟨x.emit t, .empty⟩ (Scan.marks .start (o + Text.byteSize t + 1) rest) := by
  have hlive : ((Scan.endState .start o t).step (o + Text.byteSize t) ';' rest).2 = true := by
    rw [ht.endState hc]
    rfl
  have hstop : (Segment.Draft.after (Scan.marks .start o t)).read
      ⟨o + Text.byteSize t, ';', true⟩ = .inr .semicolon := rfl
  have hread := read_of_statement (x := x) hstop (.inl rfl)
  rw [reads_unbroken ht x hlive, hread, text_after_unbroken ht]
  rfl

/-- **So it is before a line break** that continues no line. -/
theorem reads_newline (ht : Unbroken t)
    (hc : Segment.continues (Scan.marks .start 0 t).reverse = false)
    (x : Expansion) (o : Nat) (rest : List Char) :
    reads ⟨x, .empty⟩ (Scan.marks .start o (t ++ '\n' :: rest)) =
      reads ⟨x.emit t, .empty⟩ (Scan.marks .start (o + Text.byteSize t + 1) rest) := by
  have hlive : ((Scan.endState .start o t).step (o + Text.byteSize t) '\n' rest).2 = true := by
    rw [Scan.step_newline (ht.closed_at o)]
  have hstop : (Segment.Draft.after (Scan.marks .start o t)).read
      ⟨o + Text.byteSize t, '\n', true⟩ = .inr .lineBreak := by
    rw [Scan.marks_start_at, Segment.Draft.after_moved]
    exact Segment.Draft.read_lineBreak hc _
  have hread := read_of_statement (x := x) hstop (.inr rfl)
  rw [reads_unbroken ht x hlive, hread, text_after_unbroken ht]
  rfl

/-- **Before an opening brace** it is the header of a block. -/
theorem reads_header (ht : Unbroken t) (hc : (Scan.endState .start 0 t).mode ≠ .comment)
    (hl : endsInLoop t = false) (x : Expansion) (o : Nat) (rest : List Char) :
    reads ⟨x, .empty⟩ (Scan.marks .start o (t ++ '{' :: rest)) =
      (x.enterBlock t (o + Text.byteSize t)).bind fun y =>
        reads ⟨y, .empty⟩ (Scan.marks .start (o + Text.byteSize t + 1) rest) := by
  have hlive : ((Scan.endState .start o t).step (o + Text.byteSize t) '{' rest).2 = true := by
    rw [ht.endState hc]
    rfl
  have hl' : Segment.beforeEachLine? (Segment.Draft.after (Scan.marks .start o t)).text.reverse =
      none := by
    have hreverse := endsInLoop_reverse (Segment.Draft.after (Scan.marks .start o t)).text
    rw [text_after_unbroken ht, hl] at hreverse
    rw [text_after_unbroken ht]
    exact Option.isNone_iff_eq_none.1 (by simpa using hreverse.symm)
  rw [reads_unbroken ht x hlive, read_block hl', text_after_unbroken ht]
  cases x.enterBlock t (o + Text.byteSize t) <;> rfl

/-- A header within the limit opens its block under its line. -/
theorem reads_header_ok (ht : Unbroken t) (hc : (Scan.endState .start 0 t).mode ≠ .comment)
    (hl : endsInLoop t = false) (hb : t.all Text.isBlank = false)
    (hx : x.nesting.level + 1 ≤ maxLevel) (o : Nat) (rest : List Char) :
    reads ⟨x, .empty⟩ (Scan.marks .start o (t ++ '{' :: rest)) =
      reads ⟨⟨⟨⟨x.nesting.level + 1, o + Text.byteSize t⟩ :: x.nesting.blocks⟩, x.looped,
        .statement x.nesting.level (String.ofList (Segment.withColon (Text.trim t))) :: x.lines⟩,
        .empty⟩ (Scan.marks .start (o + Text.byteSize t + 1) rest) := by
  have hopen := enterBlock_eq x t (o + Text.byteSize t)
  rw [hb, if_neg (by simp), if_neg (by omega)] at hopen
  rw [reads_header ht hc hl, hopen]
  rfl

/-- A closing brace at the start of a segment closes a block. -/
theorem reads_closeBrace (x : Expansion) (o : Nat) (rest : List Char) :
    reads ⟨x, .empty⟩ (Scan.marks .start o ('}' :: rest)) =
      (x.leave o).bind fun y => reads ⟨y, .empty⟩ (Scan.marks .start (o + 1) rest) := by
  have hread : read ⟨x, .empty⟩ ⟨o, '}', true⟩ = (x.leave o).map fun y => ⟨y, .empty⟩ := rfl
  rw [Scan.marks_cons, reads_cons]
  change (read ⟨x, .empty⟩ ⟨o, '}', true⟩).bind _ = _
  rw [hread]
  cases x.leave o <;> rfl

/-- The word of the loop and its brace open the loop. -/
theorem reads_loopWord (x : Expansion) (o : Nat) (rest : List Char) :
    reads ⟨x, .empty⟩ (Scan.marks .start o ('E' :: 'L' :: '{' :: rest)) =
      (x.enterEachLine [] (o + 2)).bind fun y =>
        reads ⟨y, .empty⟩ (Scan.marks .start (o + 3) rest) := by
  have hread : read ⟨x, ⟨['L', 'E'], .plain⟩⟩ ⟨o + 2, '{', true⟩ =
      (x.enterEachLine [] (o + 2)).map fun y => ⟨y, .empty⟩ := rfl
  have hmarks : Scan.marks .start o ('E' :: 'L' :: '{' :: rest) =
      ⟨o, 'E', true⟩ :: ⟨o + 1, 'L', true⟩ :: ⟨o + 2, '{', true⟩ ::
        Scan.marks .start (o + 3) rest := rfl
  rw [hmarks]
  change (read ⟨x, ⟨['L', 'E'], .plain⟩⟩ ⟨o + 2, '{', true⟩).bind _ = _
  rw [hread]
  cases x.enterEachLine [] (o + 2) <;> rfl

/-- Within the limit, the first loop opens its block under its line. -/
theorem reads_loopWord_ok (hl : x.looped = false)
    (hx : x.nesting.level + Line.eachLineDepth ≤ maxLevel) (o : Nat) (rest : List Char) :
    reads ⟨x, .empty⟩ (Scan.marks .start o ('E' :: 'L' :: '{' :: rest)) =
      reads ⟨⟨⟨⟨x.nesting.level + Line.eachLineDepth, o + 2⟩ :: x.nesting.blocks⟩, true,
        .eachLine x.nesting.level :: x.lines⟩, .empty⟩ (Scan.marks .start (o + 3) rest) := by
  have hopen := enterEachLine_eq x [] (o + 2)
  rw [hl, if_neg Bool.false_ne_true, if_neg (Nat.not_lt.2 hx)] at hopen
  rw [reads_loopWord, hopen]
  rfl

end Pass

end Braceline
