import Braceline.Proofs.Scanning

/-!
# Scanning a text in parts

The scan looks at most two characters ahead, and only from a quote. So a text may be cut before any
character that is no quote, and where it is cut at a live character, the scan of what follows
starts anew, with all offsets moved by the bytes before it.

* `readings_append`: a text is scanned up to the cut, and on from there.
* `marks_cut`, `endState_cut`: after a live character the scan starts anew.
* `readings_moved`, `stateAfter_moved`: a start further on moves the offsets, and nothing else.
* `openAt?_relocated`: that of the literal that the scan stands in among them.
* `endState_cases`: a scan that may stop stands in code or in a comment, with no quote owed.
* `exists_quote_of_getLast?`: a text that leaves the scan in code ends in a live character or in a
  quote.
-/

namespace Braceline

namespace Mark

/-- The mark at another offset. -/
def relocated (f : Nat → Nat) (m : Mark) : Mark := { m with offset := f m.offset }

/-- The mark `k` bytes further on. -/
def moved (k : Nat) : Mark → Mark := relocated (· + k)

end Mark

namespace Scan

/-- The state of a scan whose literal, if it stands in one, began at another offset. -/
def State.relocated (f : Nat → Nat) (s : State) : State :=
  match s.region with
  | .literal fence start escaped => ⟨.literal fence (f start) escaped, s.owed⟩
  | r => ⟨r, s.owed⟩

/-- The state of a scan that began `k` bytes further on. -/
def State.moved (k : Nat) : State → State := relocated (· + k)

/-- A reading of a scan that began `k` bytes further on. -/
def movedReading (k : Nat) (r : Mark × State) : Mark × State := (r.1.moved k, r.2.moved k)

/-- The quotes that the scan is owed stand next. -/
def State.Owes (s : State) (rest : List Char) : Prop :=
  ∃ q : Quote, List.replicate s.owed q.char <+: rest

variable {s : State} {o k : Nat} {c : Char} {cs rest : List Char}

/-! ### Offsets -/

/-- **A step decides nothing by an offset.** -/
theorem step_relocated (f : Nat → Nat) (s : State) (o : Nat) (c : Char) (rest : List Char) :
    (s.relocated f).step (f o) c rest =
      ((s.step o c rest).1.relocated f, (s.step o c rest).2) := by
  obtain ⟨r, owed⟩ := s
  cases owed with
  | succ n => cases r <;> rfl
  | zero =>
    cases r with
    | code =>
      simp only [State.relocated, State.step, stepCode]
      split
      · rfl
      · split <;> rfl
    | comment =>
      simp only [State.relocated, State.step]
      split <;> rfl
    | literal fence start escaped =>
      simp only [State.relocated, State.step, stepLiteral]
      -- every branch keeps the start of the literal, or forgets it
      repeat' split
      all_goals simp_all

/-- The literal that a scan stands in is at the offset that it is said to begin at. -/
theorem openAt?_relocated (f : Nat → Nat) (s : State) :
    (s.relocated f).openAt? = s.openAt?.map f := by
  obtain ⟨r, owed⟩ := s
  cases r <;> rfl

theorem step_moved (k : Nat) (s : State) (o : Nat) (c : Char) (rest : List Char) :
    (s.moved k).step (o + k) c rest = ((s.step o c rest).1.moved k, (s.step o c rest).2) :=
  step_relocated (· + k) s o c rest

/-- No state but that of the start is moved to it. -/
theorem eq_start_of_moved (h : s.moved k = .start) : s = .start := by
  obtain ⟨r, owed⟩ := s
  cases r with
  | code | comment => exact h
  | literal => cases h

/-- **A scan that begins further on** makes the same readings further on. -/
theorem readings_moved (k : Nat) (s : State) (o : Nat) (cs : List Char) :
    readings (s.moved k) (o + k) cs = (readings s o cs).map (movedReading k) := by
  induction cs generalizing s o with
  | nil => rfl
  | cons c cs ih =>
    rw [readings_cons, readings_cons, step_moved, List.map_cons, ← ih, Nat.add_right_comm]
    rfl

theorem stateAfter_moved (k : Nat) (s : State) (rs : List (Mark × State)) :
    stateAfter (s.moved k) (rs.map (movedReading k)) = (stateAfter s rs).moved k := by
  induction rs generalizing s with
  | nil => rfl
  | cons r rs ih =>
    rw [List.map_cons, stateAfter_cons, stateAfter_cons, ← ih]
    rfl

theorem marks_moved (k : Nat) (s : State) (o : Nat) (cs : List Char) :
    marks (s.moved k) (o + k) cs = (marks s o cs).map (Mark.moved k) := by
  rw [marks, marks, readings_moved, List.map_map, List.map_map]
  rfl

theorem endState_moved (k : Nat) (s : State) (o : Nat) (cs : List Char) :
    endState (s.moved k) (o + k) cs = (endState s o cs).moved k := by
  rw [endState, endState, readings_moved, stateAfter_moved]

/-- A scan that starts in code at `o` is that of the text alone, moved by `o`. -/
theorem marks_start_at (o : Nat) (cs : List Char) :
    marks .start o cs = (marks .start 0 cs).map (Mark.moved o) := by
  rw [← marks_moved, Nat.zero_add]
  rfl

theorem endState_start_at (o : Nat) (cs : List Char) :
    endState .start o cs = (endState .start 0 cs).moved o := by
  rw [← endState_moved, Nat.zero_add]
  rfl

/-- A text after which the scan stands as it starts is one wherever it stands. -/
theorem endState_start_of (h : endState .start o cs = .start) (o' : Nat) :
    endState .start o' cs = .start := by
  rw [endState_start_at] at h ⊢
  rw [eq_start_of_moved h]
  rfl

/-! ### Cuts -/

/-- Two more quotes follow, or do not, whatever comes after a cut before no quote. -/
theorem repeats_append (h : ∀ d ∈ rest.head?, d ≠ c) : repeats c (cs ++ rest) = repeats c cs := by
  rcases cs with _ | ⟨a, _ | ⟨b, cs⟩⟩
  · cases rest with
    | nil => rfl
    | cons d rest => simp [repeats, h d rfl]
  · cases rest with
    | nil => rfl
    | cons d rest => simp [repeats, h d rfl]
  · rfl

/-- What follows a character matters to a step only where the character is a quote, and only for
whether the quote is repeated. -/
theorem step_congr {rest' : List Char}
    (h : ∀ q : Quote, c = q.char → repeats q.char rest = repeats q.char rest') (s : State)
    (o : Nat) : s.step o c rest = s.step o c rest' := by
  obtain ⟨r, owed⟩ := s
  cases owed with
  | succ n => rfl
  | zero =>
    cases r with
    | comment => rfl
    | code =>
      simp only [State.step, stepCode]
      split
      · next q hq => rw [opened, opened, h q (Quote.ofChar?_eq_some_iff.1 hq)]
      · rfl
    | literal f start escaped =>
      simp only [State.step, stepLiteral]
      by_cases hc : c = f.quote.char
      · have hrep := h f.quote hc
        rw [← hc] at hrep
        rw [hrep]
      · simp [hc]

/-- **A step does not see beyond a cut** before a character that is no quote. -/
theorem step_append (h : ∀ d ∈ rest.head?, Quote.ofChar? d = none) (s : State) (o : Nat) (c : Char)
    (cs : List Char) : s.step o c (cs ++ rest) = s.step o c cs := by
  refine step_congr (fun q _ => repeats_append fun d hd hq => ?_) s o
  have hnone := h d hd
  rw [hq, Quote.ofChar?_char] at hnone
  cases hnone

theorem stateAfter_append (s : State) (rs rs' : List (Mark × State)) :
    stateAfter s (rs ++ rs') = stateAfter (stateAfter s rs) rs' := by
  induction rs generalizing s with
  | nil => rfl
  | cons r rs ih => rw [List.cons_append, stateAfter_cons, stateAfter_cons, ih]

/-- **A text is scanned up to a cut**, and on from there. -/
theorem readings_append (h : ∀ d ∈ rest.head?, Quote.ofChar? d = none) (s : State) (o : Nat)
    (cs : List Char) :
    readings s o (cs ++ rest) =
      readings s o cs ++ readings (endState s o cs) (o + Text.byteSize cs) rest := by
  induction cs generalizing s o with
  | nil => simp
  | cons c cs ih =>
    rw [List.cons_append, readings_cons, step_append h, ih, readings_cons, endState_cons,
      Text.byteSize_cons, Nat.add_assoc]
    rfl

theorem marks_append (h : ∀ d ∈ rest.head?, Quote.ofChar? d = none) (s : State) (o : Nat)
    (cs : List Char) :
    marks s o (cs ++ rest) =
      marks s o cs ++ marks (endState s o cs) (o + Text.byteSize cs) rest := by
  rw [marks, readings_append h, List.map_append]
  rfl

theorem endState_append (h : ∀ d ∈ rest.head?, Quote.ofChar? d = none) (s : State) (o : Nat)
    (cs : List Char) :
    endState s o (cs ++ rest) = endState (endState s o cs) (o + Text.byteSize cs) rest := by
  rw [endState, readings_append h, stateAfter_append]
  rfl

/-- A live character is no quote, and leaves the scan as it starts. -/
theorem step_of_live (h : (s.step o c rest).2 = true) :
    s.step o c rest = (.start, true) ∧ Quote.ofChar? c = none := by
  obtain ⟨r, owed⟩ := s
  cases owed with
  | succ n => cases h
  | zero =>
    cases r with
    | literal f start escaped => cases h
    | comment =>
      simp only [State.step] at h ⊢
      split at h
      · next hc =>
        subst hc
        exact ⟨rfl, rfl⟩
      · cases h
    | code =>
      simp only [State.step, stepCode] at h ⊢
      split at h
      · cases h
      · next hq =>
        split at h
        · cases h
        · next hc =>
          rw [if_neg hc]
          exact ⟨rfl, hq⟩

/-- **At a live character** the scan is cut, and starts anew after it. -/
theorem marks_cut (h : ((endState s o cs).step (o + Text.byteSize cs) c rest).2 = true) :
    marks s o (cs ++ c :: rest) = marks s o cs ++ ⟨o + Text.byteSize cs, c, true⟩ ::
      marks .start (o + Text.byteSize cs + c.utf8Size) rest := by
  obtain ⟨hstep, hc⟩ := step_of_live h
  rw [marks_append (by simpa using hc), marks_cons, hstep]

theorem endState_cut (h : ((endState s o cs).step (o + Text.byteSize cs) c rest).2 = true) :
    endState s o (cs ++ c :: rest) =
      endState .start (o + Text.byteSize cs + c.utf8Size) rest := by
  obtain ⟨hstep, hc⟩ := step_of_live h
  rw [endState_append (by simpa using hc), endState_cons, hstep]

/-- **A live mark cuts the text** that it is a mark of. -/
theorem exists_cut {ms ns : List Mark} {n : Nat} (h : marks s o cs = ms ++ ⟨n, c, true⟩ :: ns) :
    ∃ ds es, cs = ds ++ c :: es ∧ n = o + Text.byteSize ds ∧
      ((endState s o ds).step (o + Text.byteSize ds) c es).2 = true ∧ ms = marks s o ds ∧
      ns = marks .start (n + c.utf8Size) es := by
  induction ms generalizing s o cs with
  | nil =>
    cases cs with
    | nil => cases h
    | cons a es =>
      rw [marks_cons, List.nil_append] at h
      obtain ⟨hmark, rfl⟩ := List.cons.inj h
      obtain ⟨rfl, rfl, hlive⟩ := Mark.mk.inj hmark
      refine ⟨[], es, rfl, rfl, hlive, rfl, ?_⟩
      rw [(step_of_live hlive).1]
  | cons m ms ih =>
    cases cs with
    | nil => cases h
    | cons a cs =>
      rw [marks_cons, List.cons_append] at h
      obtain ⟨rfl, hrest⟩ := List.cons.inj h
      obtain ⟨ds, es, rfl, hn, hlive, rfl, rfl⟩ := ih hrest
      -- the step at `a` does not see beyond the cut
      have hstep : s.step o a (ds ++ c :: es) = s.step o a ds :=
        step_append (by simpa using (step_of_live hlive).2) s o a ds
      rw [hstep] at hlive ⊢
      refine ⟨a :: ds, es, rfl, ?_, ?_, ?_, rfl⟩
      · rw [hn, Text.byteSize_cons, Nat.add_assoc]
      · rw [endState_cons, Text.byteSize_cons, ← Nat.add_assoc]
        exact hlive
      · rw [marks_cons]

/-- A live character other than a line break is read in code. -/
theorem eq_start_of_live (h : (s.step o c rest).2 = true) (hc : c ≠ '\n') : s = .start := by
  obtain ⟨r, owed⟩ := s
  cases owed with
  | succ n => cases h
  | zero =>
    cases r with
    | code => rfl
    | literal => cases h
    | comment =>
      simp only [State.step, if_neg hc] at h
      cases h

/-- A character that begins no comment and no literal is live in code. -/
theorem step_start_of_code (hq : Quote.ofChar? c = none) (hc : c ≠ '#') (o : Nat)
    (rest : List Char) : State.start.step o c rest = (.start, true) := by
  simp only [step_start, stepCode, hq, if_neg hc]
  rfl

/-- **Characters that begin no comment and no literal** are live in code. -/
theorem passes_code {text : List Char}
    (h : ∀ c ∈ text, Quote.ofChar? c = none ∧ c ≠ '#') : Passes .start o text rest true .start := by
  induction text generalizing o with
  | nil => exact .nil
  | cons c text ih =>
    obtain ⟨hq, hc⟩ := h c List.mem_cons_self
    exact .cons (step_start_of_code hq hc o _) (ih fun c hc => h c (List.mem_cons_of_mem _ hc))

/-! ### Where a scan may stop -/

theorem owes_of_owed_eq_zero (h : s.owed = 0) : s.Owes cs :=
  ⟨.single, by rw [h]; exact List.nil_prefix⟩

/-- **The quotes of a triple fence** are there when it is read, and stand next until they are. -/
theorem owes_step (h : s.Owes (c :: rest)) : (s.step o c rest).1.Owes rest := by
  have hrep (q : Quote) (r : Region) (hq : repeats q.char rest = true) :
      State.Owes ⟨r, 2⟩ rest := by
    obtain ⟨tail, rfl⟩ := repeats_iff.1 hq
    exact ⟨q, tail, rfl⟩
  obtain ⟨r, owed⟩ := s
  obtain ⟨q, hq⟩ := h
  cases owed with
  | succ n => exact ⟨q, (List.cons_prefix_cons.1 hq).2⟩
  | zero =>
    cases r with
    | comment =>
      simp only [State.step]
      split <;> exact owes_of_owed_eq_zero rfl
    | code =>
      simp only [State.step, stepCode, opened]
      split
      · next q _ =>
        cases hq : repeats q.char rest with
        | true => exact hrep q _ hq
        | false => exact owes_of_owed_eq_zero rfl
      · split <;> exact owes_of_owed_eq_zero rfl
    | literal f start escaped =>
      simp only [State.step, stepLiteral]
      split
      · exact owes_of_owed_eq_zero rfl
      split
      · exact owes_of_owed_eq_zero rfl
      split
      · exact owes_of_owed_eq_zero rfl
      · next hc =>
        split
        · exact owes_of_owed_eq_zero rfl
        split
        · next hd =>
          rw [not_not.1 hc] at hd
          exact hrep _ _ hd
        · exact owes_of_owed_eq_zero rfl

/-- **Where a scan stands in code** with no quote owed, it stands as it starts. -/
theorem eq_start_of_code (hmode : s.mode = .code) (howed : s.owed = 0) : s = .start := by
  obtain ⟨r, owed⟩ := s
  obtain rfl : owed = 0 := howed
  cases r with
  | code => rfl
  | literal | comment => cases hmode

theorem owed_endState (h : s.Owes cs) : (endState s o cs).owed = 0 := by
  induction cs generalizing s o with
  | nil =>
    obtain ⟨q, hq⟩ := h
    simpa using hq
  | cons c cs ih =>
    rw [endState_cons]
    exact ih (owes_step h)

/-- **A scan that may stop** stands in code or in a comment. -/
theorem endState_cases (h : (endState .start o cs).finish = .ok ()) :
    endState .start o cs = .start ∨ endState .start o cs = ⟨.comment, 0⟩ := by
  have howed : (endState .start o cs).owed = 0 := owed_endState (owes_of_owed_eq_zero rfl)
  generalize endState .start o cs = s at h howed
  obtain ⟨r, owed⟩ := s
  obtain rfl : owed = 0 := howed
  cases r with
  | code => exact .inl rfl
  | comment => exact .inr rfl
  | literal f start escaped => cases h

theorem endState_eq_start (h : (endState .start o cs).finish = .ok ())
    (hc : (endState .start o cs).mode ≠ .comment) : endState .start o cs = .start := by
  rcases endState_cases h with h | h
  · exact h
  · rw [h] at hc
    exact absurd rfl hc

/-- A line break is live wherever a scan may stop. -/
theorem step_newline (h : (endState .start o cs).finish = .ok ()) (o' : Nat) (rest : List Char) :
    (endState .start o cs).step o' '\n' rest = (.start, true) := by
  rcases endState_cases h with h | h
  · rw [h]
    exact step_start_of_code rfl (by decide) o' rest
  · rw [h]
    rfl

/-- A scan that stands in code once a text is read may be cut there. -/
theorem endState_of_code (h : (endState .start o cs).mode = .code) :
    endState .start o cs = .start :=
  eq_start_of_code h (owed_endState (owes_of_owed_eq_zero rfl))

/-- Only a quote leads back to code without being live itself. -/
theorem exists_quote_of_step (h : s.Owes (c :: rest)) (hs : s.step o c rest = (.start, false)) :
    ∃ q : Quote, c = q.char := by
  obtain ⟨r, owed⟩ := s
  obtain ⟨q, hq⟩ := h
  cases owed with
  | succ n => exact ⟨q, (List.cons_prefix_cons.1 hq).1.symm⟩
  | zero =>
    cases r with
    | comment =>
      simp only [State.step] at hs
      split at hs <;> cases hs
    | code =>
      simp only [State.step, stepCode] at hs
      split at hs
      · cases hs
      · split at hs <;> cases hs
    | literal f start escaped =>
      by_contra hc
      have hf : c ≠ f.quote.char := fun h => hc ⟨f.quote, h⟩
      simp only [State.step, stepLiteral, if_pos hf] at hs
      -- every other character stays in the literal
      repeat' split at hs
      all_goals cases hs

/-- **A text after which the scan stands in code** ends in a live character or in a quote. -/
theorem exists_quote_of_getLast? (h : s.Owes cs) (hend : endState s o cs = .start) {m : Mark}
    (hm : (marks s o cs).getLast? = some m) (hlive : m.live = false) :
    ∃ q : Quote, m.char = q.char := by
  induction cs generalizing s o with
  | nil => cases hm
  | cons c cs ih =>
    rw [endState_cons] at hend
    rw [marks_cons] at hm
    cases cs with
    | nil =>
      obtain rfl := Option.some.inj hm
      exact exists_quote_of_step h (Prod.ext hend hlive)
    | cons d ds =>
      rw [marks_cons, List.getLast?_cons_cons, ← marks_cons] at hm
      exact ih (owes_step h) hend hm

/-- Where a character is live, the scan stands as it starts after it. -/
theorem state_of_live {r : Mark × State} (hr : r ∈ readings s o cs) (hlive : r.1.live = true) :
    r.2 = .start := by
  induction cs generalizing s o with
  | nil => exact absurd hr List.not_mem_nil
  | cons c cs ih =>
    rw [readings_cons] at hr
    rcases List.mem_cons.1 hr with rfl | hr
    · exact congrArg Prod.fst (step_of_live hlive).1
    · exact ih hr

/-- A text that ends in a live character leaves the scan as it starts. -/
theorem endState_of_live_getLast? {m : Mark} (hm : (marks s o cs).getLast? = some m)
    (hlive : m.live = true) : endState s o cs = .start := by
  rw [marks, List.getLast?_map, Option.map_eq_some_iff] at hm
  obtain ⟨r, hr, rfl⟩ := hm
  rw [endState, stateAfter, hr]
  exact state_of_live (List.mem_of_getLast? hr) hlive

end Scan

end Braceline
