import Braceline.Proofs.Relocation

/-!
# Carriage returns before line breaks

A script may end its lines with a line feed, or with a carriage return and a line feed. Where the
line break is live, the two read alike: in code, the carriage return ends a segment as a blank that
is trimmed away, or belongs to a line continuation; in a comment, it is a blank at the end of the
comment, which is the end of its segment. Everything after it stands one byte further on.

* `Returned`: the marks of a script, and those that it has with carriage returns.
* `returned_marks`: the scan of the script with carriage returns.
* `Returned.reads`: the pass over it.
* `expand_withReturns`: what it expands to.
-/

namespace Braceline

/-- The text of marks, with a carriage return before each live line break. -/
def returned (ms : List Mark) : List Char :=
  ms.flatMap fun m => if m.is '\n' then ['\r', '\n'] else [m.char]

/-- **The script with a carriage return before each live line break.** -/
def withReturns (script : String) : String :=
  String.ofList (returned (Scan.marks .start 0 script.toList))

/-- The number of live line breaks before an offset. -/
def breaksBefore (ms : List Mark) (o : Nat) : Nat :=
  ms.countP fun m => m.is '\n' && decide (m.offset < o)

/-- **The marks of a script with carriage returns**, against those without. Each mark has come to
stand where `f` says. A carriage return may be live or not, but right after a live backslash, which
`slash` tells, it is live. -/
inductive Returned (f : Nat → Nat) : (slash : Bool) → List Mark → List Mark → Prop where
  | nil {slash : Bool} : Returned f slash [] []
  | mark {slash : Bool} {m : Mark} {ms ns : List Mark} (hm : m.is '\n' = false)
    (h : Returned f (m.is '\\') ms ns) : Returned f slash (m :: ms) (m.relocated f :: ns)
  | lineBreak {slash live : Bool} {o o₁ o₂ : Nat} {ms ns : List Mark}
    (hslash : slash = true → live = true) (h : Returned f false ms ns) :
    Returned f slash (⟨o, '\n', true⟩ :: ms) (⟨o₁, '\r', live⟩ :: ⟨o₂, '\n', true⟩ :: ns)

/-- The marks come to stand where `f` says, if `k` carriage returns stand before them: each line
break moves what follows it by one byte more. -/
def Shifts (f : Nat → Nat) : Nat → List Mark → Prop
  | _, [] => True
  | k, m :: ms => f m.offset = m.offset + k ∧ Shifts f (if m.is '\n' then k + 1 else k) ms

variable {f : Nat → Nat} {k : Nat} {m : Mark} {ms ns : List Mark} {slash : Bool}

theorem Shifts.mark (h : Shifts f k (m :: ms)) (hm : m.is '\n' = false) : Shifts f k ms := by
  have hrest := h.2
  rw [hm, if_neg Bool.false_ne_true] at hrest
  exact hrest

theorem Shifts.lineBreak (h : Shifts f k (m :: ms)) (hm : m.is '\n' = true) :
    Shifts f (k + 1) ms := by
  have hrest := h.2
  rw [if_pos hm] at hrest
  exact hrest

theorem returned_cons_mark (hm : m.is '\n' = false) (ms : List Mark) :
    returned (m :: ms) = m.char :: returned ms := by
  rw [returned, List.flatMap_cons, hm]
  rfl

theorem returned_cons_lineBreak (hm : m.is '\n' = true) (ms : List Mark) :
    returned (m :: ms) = '\r' :: '\n' :: returned ms := by
  rw [returned, List.flatMap_cons, hm]
  rfl

/-! ### The scan -/

/-- A text with carriage returns that begins with neither end of a line begins with a mark. -/
theorem exists_of_returned_eq_cons {c : Char} {t : List Char} (hreturn : c ≠ '\r')
    (h : returned ms = c :: t) : ∃ m ms', ms = m :: ms' ∧ m.char = c ∧ returned ms' = t := by
  cases ms with
  | nil => cases h
  | cons m ms =>
    cases hm : m.is '\n' with
    | true =>
      rw [returned_cons_lineBreak hm] at h
      exact absurd (List.cons.inj h).1.symm hreturn
    | false =>
      rw [returned_cons_mark hm] at h
      obtain ⟨hc, ht⟩ := List.cons.inj h
      exact ⟨m, ms, rfl, hc, ht⟩

/-- Carriage returns do not come between quotes. -/
theorem repeats_returned (q : Quote) (ms : List Mark) :
    Scan.repeats q.char (returned ms) = Scan.repeats q.char (ms.map Mark.char) := by
  have hreturn : q.char ≠ '\r' := by cases q <;> decide
  have hbreak (m : Mark) (hm : m.char = q.char) : m.is '\n' = false := by
    have hne : q.char ≠ '\n' := by cases q <;> decide
    simp [Mark.is, hm, hne]
  rw [Bool.eq_iff_iff, Scan.repeats_iff, Scan.repeats_iff]
  constructor
  · rintro ⟨t, ht⟩
    obtain ⟨m, ms, rfl, hm, ht⟩ := exists_of_returned_eq_cons hreturn ht
    obtain ⟨m', ms, rfl, hm', -⟩ := exists_of_returned_eq_cons hreturn ht
    exact ⟨ms.map Mark.char, by rw [List.map_cons, List.map_cons, hm, hm']⟩
  · rintro ⟨t, ht⟩
    obtain ⟨m, ms, rfl, hm, ht⟩ := List.map_eq_cons_iff.1 ht
    obtain ⟨m', ms, rfl, hm', -⟩ := List.map_eq_cons_iff.1 ht
    exact ⟨returned ms, by
      rw [returned_cons_mark (hbreak m hm), returned_cons_mark (hbreak m' hm'), hm, hm']⟩

namespace Scan

variable {s : State} {o : Nat} {c : Char} {cs : List Char}

/-- A live line break is read in code or in a comment. -/
theorem eq_of_live_newline (h : (s.step o '\n' cs).2 = true) : s = .start ∨ s = ⟨.comment, 0⟩ := by
  obtain ⟨r, owed⟩ := s
  cases owed with
  | succ n => cases h
  | zero =>
    cases r with
    | code => exact .inl rfl
    | comment => exact .inr rfl
    | literal => cases h

/-- **A carriage return before a live line break** is live in code, and leaves the scan as it is in
a comment. -/
theorem marks_return (h : (s.step o '\n' cs).2 = true) (o' : Nat) (rest : List Char) :
    ∃ live, (s = .start → live = true) ∧
      marks s o' ('\r' :: '\n' :: rest) =
        ⟨o', '\r', live⟩ :: ⟨o' + 1, '\n', true⟩ :: marks .start (o' + 2) rest ∧
      endState s o' ('\r' :: '\n' :: rest) = endState .start (o' + 2) rest := by
  rcases eq_of_live_newline h with rfl | rfl
  · refine ⟨true, fun _ => rfl, rfl, ?_⟩
    rw [endState_cons, endState_cons]
    rfl
  · refine ⟨false, fun h => (by cases h), rfl, ?_⟩
    rw [endState_cons, endState_cons]
    rfl

/-- **The scan of a text with carriage returns**, from a place that `k` of them stand before. -/
theorem returned_marks (hf : Shifts f k (marks s o cs)) (hslash : slash = true → s = .start) :
    Returned f slash (marks s o cs) (marks (s.relocated f) (o + k) (returned (marks s o cs))) ∧
      endState (s.relocated f) (o + k) (returned (marks s o cs)) =
        (endState s o cs).relocated f := by
  induction cs generalizing s o k slash with
  | nil => exact ⟨.nil, rfl⟩
  | cons c cs ih =>
    rw [marks_cons] at hf ⊢
    have ho : f o = o + k := hf.1
    cases hm : Mark.is ⟨o, c, (s.step o c cs).2⟩ '\n' with
    | false =>
      -- the step sees the same quotes ahead
      have hstep : (s.relocated f).step (o + k) c
          (returned (marks (s.step o c cs).1 (o + c.utf8Size) cs)) =
            ((s.step o c cs).1.relocated f, (s.step o c cs).2) := by
        rw [← ho, ← step_relocated]
        refine step_congr (fun q hq => ?_) _ _
        rw [repeats_returned, marks_char]
      have hslash' : Mark.is ⟨o, c, (s.step o c cs).2⟩ '\\' = true →
          (s.step o c cs).1 = .start := by
        intro h
        have hlive : (s.step o c cs).2 = true := (Bool.and_eq_true_iff.1 h).1
        exact congrArg Prod.fst (step_of_live hlive).1
      obtain ⟨hmarks, hend⟩ := ih (hf.mark hm) hslash'
      rw [Nat.add_right_comm, ← ho] at hmarks hend
      rw [returned_cons_mark hm, marks_cons, endState_cons, endState_cons, hstep, ← ho]
      exact ⟨.mark hm hmarks, hend⟩
    | true =>
      obtain rfl : c = '\n' := congrArg Mark.char (Mark.eq_of_is hm)
      have hlive : (s.step o '\n' cs).2 = true := congrArg Mark.live (Mark.eq_of_is hm)
      have hstart : (s.step o '\n' cs).1 = .start := congrArg Prod.fst (step_of_live hlive).1
      have hlive' : ((s.relocated f).step (f o) '\n' cs).2 = true := by
        rw [step_relocated]
        exact hlive
      have hrest := hf.lineBreak hm
      rw [hstart] at hrest
      obtain ⟨live, hcode, hmarks, hend⟩ := marks_return hlive' (o + k)
        (returned (marks .start (o + '\n'.utf8Size) cs))
      obtain ⟨hmarks', hend'⟩ := ih hrest fun h : false = true => by cases h
      -- two bytes are read here, where there was one
      have hoffset : o + k + 2 = o + '\n'.utf8Size + (k + 1) := by
        rw [show '\n'.utf8Size = 1 from rfl]
        omega
      rw [returned_cons_lineBreak hm, endState_cons '\n' cs, hlive, hstart, hmarks, hend, hoffset]
      refine ⟨.lineBreak (fun h => hcode ?_) hmarks', hend'⟩
      rw [hslash h]
      rfl

end Scan

/-! ### The pass -/

/-- A blank at the end of a text does not come into its statement. -/
theorem Expansion.emit_concat {c : Char} (hc : Text.isBlank c = true) (x : Expansion)
    (text : List Char) : x.emit (text ++ [c]) = x.emit text := by
  rw [Expansion.emit, Expansion.emit, Text.trim_concat hc]

namespace Pass

variable {p q : Pass}

/-- What a mark other than a carriage return leaves at the end of the draft. -/
theorem tail_of_read (h : p.read m = .ok q) (hm : m.char ≠ '\r') :
    q.draft.tail ≠ .slashReturn ∧ (q.draft.tail = .slash → m.is '\\' = true) := by
  obtain ⟨x, d⟩ := p
  have hstep := d.step_read m
  rw [read] at h
  generalize d.read m = r at h hstep
  cases r with
  | inr stop =>
    -- a new draft is empty
    cases hs : x.step (d.close stop) with
    | error e => simp [hs, Except.map] at h
    | ok y =>
      simp only [hs, Except.map, Except.ok.injEq] at h
      subst h
      constructor <;> intro ht <;> cases ht
  | inl d' =>
    obtain rfl := Except.ok.inj h
    cases hstep with
    | slash =>
      refine ⟨?_, fun _ => rfl⟩
      intro ht
      cases ht
    | slashReturn => exact absurd rfl hm
    | skip o c hc ht => exact ⟨by simp [ht], by simp [ht]⟩
    | join | joinReturn | live | inert => constructor <;> intro ht <;> cases ht

/-- **A carriage return and a line break** come to what the line break does alone. -/
theorem reads_return {live : Bool} (hreturn : p.draft.tail ≠ .slashReturn)
    (hslash : p.draft.tail = .slash → live = true) (o o₁ o₂ : Nat) :
    ((p.read ⟨o₁, '\r', live⟩).bind fun q => q.read ⟨o₂, '\n', true⟩) =
      p.read ⟨o, '\n', true⟩ := by
  obtain ⟨x, d⟩ := p
  -- the carriage return is text, and a blank at the end of its segment
  have htext (hplain : d.read ⟨o₁, '\r', live⟩ = .inl (d.push '\r' .plain))
      (hbreak : d.read ⟨o, '\n', true⟩ = .inr .lineBreak) :
      ((read ⟨x, d⟩ ⟨o₁, '\r', live⟩).bind fun q => q.read ⟨o₂, '\n', true⟩) =
        read ⟨x, d⟩ ⟨o, '\n', true⟩ := by
    have hbreak' : (d.push '\r' .plain).read ⟨o₂, '\n', true⟩ = .inr .lineBreak := rfl
    have hblank : x.emit (d.push '\r' .plain).text.reverse = x.emit d.text.reverse := by
      rw [Segment.Draft.push, List.reverse_cons]
      exact Expansion.emit_concat (by decide) x _
    rw [read_of_inl hplain, Except.bind, read_of_statement hbreak' (.inr rfl), hblank,
      read_of_statement hbreak (.inr rfl)]
  cases ht : d.tail with
  | plain | joined =>
    refine htext ?_ (by simp [Segment.Draft.read, Segment.Draft.readLive, ht])
    cases live with
    | false => rfl
    | true => simp [Segment.Draft.read, Segment.Draft.readLive, ht, Text.isSpaceOrTab]
  | slashReturn => exact absurd ht hreturn
  | slash =>
    obtain rfl := hslash ht
    have hpush : d.read ⟨o₁, '\r', true⟩ = .inl (d.push '\r' .slashReturn) := by
      simp [Segment.Draft.read, Segment.Draft.readLive, ht]
    have hjoin : d.read ⟨o, '\n', true⟩ = .inl (d.join 1) := by
      simp [Segment.Draft.read, Segment.Draft.readLive, ht]
    rw [read_of_inl hpush, read_of_inl hjoin]
    -- the continuation takes one character more back
    rfl

end Pass

namespace Returned

/-- **The pass** over the marks of a script with carriage returns. -/
theorem reads (h : Returned f slash ms ns) {p : Pass} (hms : ∀ m ∈ ms, m.char ≠ '\r')
    (hreturn : p.draft.tail ≠ .slashReturn) (hslash : p.draft.tail = .slash → slash = true) :
    (p.relocated f).reads ns = relocatedResult f (Pass.relocated f) (p.reads ms) := by
  induction h generalizing p with
  | nil => rfl
  | @mark slash m ms ns hm h ih =>
    rw [Pass.reads_cons, Pass.reads_cons, Pass.read_relocated]
    have hrest : ∀ m' ∈ ms, m'.char ≠ '\r' := fun m' hm' => hms m' (List.mem_cons_of_mem _ hm')
    cases hread : p.read m with
    | error e => rfl
    | ok q =>
      obtain ⟨hreturn', hslash'⟩ := Pass.tail_of_read hread (hms m List.mem_cons_self)
      exact ih hrest hreturn' hslash'
  | @lineBreak slash live o o₁ o₂ ms ns hlive h ih =>
    have hrest : ∀ m' ∈ ms, m'.char ≠ '\r' := fun m' hm' => hms m' (List.mem_cons_of_mem _ hm')
    have hboth := Pass.reads_return (p := p.relocated f) hreturn (fun ht => hlive (hslash ht))
      (f o) o₁ o₂
    have hbreak : (p.relocated f).read ⟨f o, '\n', true⟩ =
        relocatedResult f (Pass.relocated f) (p.read ⟨o, '\n', true⟩) :=
      Pass.read_relocated f p ⟨o, '\n', true⟩
    have happend : (p.relocated f).reads (⟨o₁, '\r', live⟩ :: ⟨o₂, '\n', true⟩ :: ns) =
        (((p.relocated f).read ⟨o₁, '\r', live⟩).bind fun q => q.read ⟨o₂, '\n', true⟩).bind
          fun q => q.reads ns := by
      rw [Pass.reads_cons]
      cases (p.relocated f).read ⟨o₁, '\r', live⟩ <;> rfl
    rw [happend, hboth, hbreak, Pass.reads_cons]
    cases hread : p.read ⟨o, '\n', true⟩ with
    | error e => rfl
    | ok q =>
      obtain ⟨hreturn', hslash'⟩ := Pass.tail_of_read hread (by simp)
      exact ih hrest hreturn' fun ht => absurd (hslash' ht) (by simp)

theorem any_isStructural (h : Returned f slash ms ns) :
    ns.any Mark.isStructural = ms.any Mark.isStructural := by
  induction h with
  | nil => rfl
  | mark hm h ih =>
    rw [List.any_cons, List.any_cons, ih]
    rfl
  | @lineBreak slash live o o₁ o₂ ms ns hlive h ih =>
    rw [List.any_cons, List.any_cons, List.any_cons, ih]
    cases live <;> rfl

end Returned

/-! ### Scripts -/

theorem breaksBefore_append (ms ns : List Mark) (o : Nat) :
    breaksBefore (ms ++ ns) o = breaksBefore ms o + breaksBefore ns o := List.countP_append

/-- Marks at ever larger offsets come to stand as many bytes further on as line breaks stand before
them. -/
theorem shifts_breaksBefore (ms ns : List Mark)
    (hms : (ms ++ ns).Pairwise fun m m' => m.offset < m'.offset) :
    Shifts (fun o => o + breaksBefore (ms ++ ns) o) (ms.countP (·.is '\n')) ns := by
  induction ns generalizing ms with
  | nil => trivial
  | cons m ns ih =>
    obtain ⟨-, hns, hbefore⟩ := List.pairwise_append.1 hms
    have hfront : breaksBefore ms m.offset = ms.countP (·.is '\n') := by
      refine List.countP_congr fun m' hm' => ?_
      simp [hbefore m' hm' m List.mem_cons_self]
    have hback : breaksBefore (m :: ns) m.offset = 0 := by
      refine List.countP_eq_zero.2 fun m' hm' => ?_
      have hle : m.offset ≤ m'.offset := by
        rcases List.mem_cons.1 hm' with rfl | hm'
        · exact Nat.le_refl _
        · exact Nat.le_of_lt (List.rel_of_pairwise_cons hns hm')
      simp [Nat.not_lt.2 hle]
    have hrest := ih (ms ++ [m]) (by rw [List.append_assoc]; exact hms)
    rw [List.append_assoc, List.countP_append, List.countP_singleton] at hrest
    refine ⟨?_, ?_⟩
    · simp only
      rw [breaksBefore_append, hfront, hback, Nat.add_zero]
    · cases hm : m.is '\n' with
      | true =>
        rw [if_pos rfl]
        rw [if_pos hm] at hrest
        exact hrest
      | false =>
        rw [if_neg Bool.false_ne_true]
        rw [hm, if_neg Bool.false_ne_true] at hrest
        exact hrest

/-- **A script with carriage returns** comes to what it does without them. -/
theorem expand_withReturns_eq {script : String} (h : '\r' ∉ script.toList) :
    expand (withReturns script) =
      relocatedResult (fun o => o + breaksBefore (Scan.marks .start 0 script.toList) o) id
        (expand script) := by
  set f := fun o => o + breaksBefore (Scan.marks .start 0 script.toList) o
  have hshifts : Shifts f 0 (Scan.marks .start 0 script.toList) :=
    shifts_breaksBefore [] _ (Scan.pairwise_offset .start 0 script.toList)
  obtain ⟨hmarks, hend⟩ := Scan.returned_marks hshifts fun h : false = true => by cases h
  have hchars : ∀ m ∈ Scan.marks .start 0 script.toList, m.char ≠ '\r' := by
    intro m hm hr
    have hmem := List.mem_map_of_mem (f := Mark.char) hm
    rw [Scan.marks_char, hr] at hmem
    exact h hmem
  have hreads := hmarks.reads (p := .start) hchars nofun nofun
  have hstart : Scan.State.start.relocated f = .start := rfl
  rw [hstart] at hend hmarks hreads
  rw [expand, expand, expandChars_eq_concludes, expandChars_eq_concludes, withReturns,
    String.toList_ofList, hend, hmarks.any_isStructural, Scan.finish_relocated]
  exact Pass.concludes_of_reads hreads _ _

/-- **The style of line endings does not matter** outside literals. A script without carriage
returns expands with them to the same lines, or has the same fault, as many bytes further on as
carriage returns stand before it. -/
theorem expand_withReturns {script : String} (h : '\r' ∉ script.toList) :
    (∀ p, expand (withReturns script) = .ok p ↔ expand script = .ok p) ∧
      ∀ e, expand script = .error e →
        expand (withReturns script) = .error
          (e.moved (e.offset + breaksBefore (Scan.marks .start 0 script.toList) e.offset)) := by
  rw [expand_withReturns_eq h]
  cases hs : expand script with
  | ok p => exact ⟨fun _ => Iff.rfl, nofun⟩
  | error e =>
    refine ⟨fun p => ⟨nofun, nofun⟩, fun e' he => ?_⟩
    obtain rfl := Except.error.inj he
    rfl

/-- A comment, a line continuation and a literal over two lines; and a script with a fault after two
line breaks. -/
theorem expand_withReturns_of_lines :
    withReturns "a # b\nc \\\n d; '\n'" = "a # b\r\nc \\\r\n d; '\n'" ∧
      expand "a # b\r\nc \\\r\n d; '\n'" =
        .ok ⟨[.statement 0 "a # b", .statement 0 "c d", .statement 0 "'\n'"], true⟩ ∧
      expand (withReturns "a\n#\n\x7d\n") = .error (.unbalancedBrace 6) := by
  have hlines : withReturns "a # b\nc \\\n d; '\n'" = "a # b\r\nc \\\r\n d; '\n'" := by decide
  have hplain : '\r' ∉ "a # b\nc \\\n d; '\n'".toList := by decide
  have hplain' : '\r' ∉ "a\n#\n\x7d\n".toList := by decide
  obtain ⟨hok, -⟩ := expand_withReturns hplain
  obtain ⟨-, herror⟩ := expand_withReturns hplain'
  refine ⟨hlines, ?_, herror (.unbalancedBrace 4) (by decide)⟩
  rw [← hlines]
  exact (hok _).2 (by decide)

end Braceline
