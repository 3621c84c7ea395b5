import Braceline.Proofs.Rescan
import Braceline.Proofs.SameSkeleton

/-!
# What has been read decides

At a quote the scan looks two characters ahead. So what comes after a script has a say in the quotes
at its very end: the second of two may close an empty literal or belong to a triple fence, and the
scan then stands elsewhere after it. A quote is inert either way, so no mark changes. A fault at a
brace is a matter of the marks up to that brace, so nothing that comes after it takes it back.

* `step_append_or`: a step sees beyond a text only at a quote with nothing but itself after it.
* `agree_readings`: so the readings of a text and of more text agree.
* `firstFault?_append`, `exists_cut_of_firstFault?`: a fault stays, and there is none before it.
* `brace_faults_final`: both, for scripts.
-/

namespace Braceline

/-- Is the fault one that a brace makes, whatever comes after it? -/
def ScriptError.atBrace : ScriptError → Bool
  | unbalancedBrace _ | nestingTooDeep _ | missingBlockHeader _ | repeatedEachLine _ => true
  | unterminatedLiteral _ _ | unclosedBrace _ => false

namespace Scan

/-- Two readings of a character agree: the marks are the same, and so is where the scan stands
after it, unless it is a quote. -/
structure Agree (r r' : Mark × State) : Prop where
  mark : r'.1 = r.1
  state : Quote.ofChar? r.1.char = none → r'.2 = r.2

/-! ### Looking ahead -/

/-- Only where there are less than two characters left is there more to see beyond them. -/
theorem repeats_append_or (c : Char) (cs ds : List Char) :
    repeats c (cs ++ ds) = repeats c cs ∨ cs = [] ∨ cs = [c] := by
  rcases cs with _ | ⟨a, _ | ⟨b, cs⟩⟩
  · exact .inr (.inl rfl)
  · by_cases ha : a = c
    · subst ha
      exact .inr (.inr rfl)
    · -- any other character settles the matter
      have hne (rest : List Char) : repeats c (a :: rest) = false := by
        rw [Bool.eq_false_iff, ne_eq, repeats_iff]
        rintro ⟨tail, h⟩
        exact ha (List.cons.inj h).1
      exact .inl ((hne _).trans (hne _).symm)
  · exact .inl rfl

/-- **A step sees beyond a text** only at a quote, and only if nothing or the same quote is left of
the text after it. -/
theorem step_append_or (s : State) (o : Nat) (c : Char) (cs ds : List Char) :
    s.step o c (cs ++ ds) = s.step o c cs ∨
      ∃ q : Quote, c = q.char ∧ (cs = [] ∨ cs = [q.char]) := by
  by_cases hc : ∃ q : Quote, c = q.char
  · obtain ⟨q, rfl⟩ := hc
    rcases repeats_append_or q.char cs ds with hrep | hshort
    · refine .inl (step_congr (fun q' hq => ?_) s o)
      rw [← hq]
      exact hrep
    · exact .inr ⟨q, rfl, hshort⟩
  · exact .inl (step_congr (fun q hq => absurd ⟨q, hq⟩ hc) s o)

/-- A quote is inert wherever it stands. -/
theorem step_quote (s : State) (o : Nat) (q : Quote) (rest : List Char) :
    (s.step o q.char rest).2 = false := by
  rw [Bool.eq_false_iff]
  intro h
  have hnone := (step_of_live h).2
  rw [Quote.ofChar?_char] at hnone
  cases hnone

/-- So any two readings of a quote agree. -/
theorem agree_quote (s s' : State) (o : Nat) (q : Quote) (rest rest' : List Char) :
    Agree (⟨o, q.char, (s.step o q.char rest).2⟩, (s.step o q.char rest).1)
      (⟨o, q.char, (s'.step o q.char rest').2⟩, (s'.step o q.char rest').1) where
  mark := by rw [step_quote, step_quote]
  state h := by
    rw [Quote.ofChar?_char] at h
    cases h

/-- **The readings of a text** agree with those of any longer text. The states part at most at two
quotes, which are the last characters of the text. -/
theorem agree_readings (s : State) (o : Nat) (cs ds : List Char) :
    List.Forall₂ Agree (readings s o cs) ((readings s o (cs ++ ds)).take cs.length) := by
  induction cs generalizing s o with
  | nil => exact .nil
  | cons c cs ih =>
    rw [List.cons_append, readings_cons, readings_cons, List.length_cons, List.take_succ_cons]
    rcases step_append_or s o c cs ds with hstep | ⟨q, rfl, hcs⟩
    · rw [hstep]
      exact .cons ⟨rfl, fun _ => rfl⟩ (ih _ _)
    · rcases hcs with rfl | rfl
      · exact .cons (agree_quote s s o q _ _) .nil
      · -- the states may differ now, but what is left is one quote
        exact .cons (agree_quote s s o q _ _) (.cons (agree_quote _ _ _ q _ _) .nil)

/-- Two quotes are an empty literal, or two thirds of a fence. -/
example : (endState .start 0 "''".toList).mode = .code ∧
    ((readings .start 0 "''' x".toList)[1]?).map (fun r => r.2.mode) =
      some (.literal ⟨.single, true⟩) := by decide

theorem map_mark_of_agree {rs rs' : List (Mark × State)} (h : List.Forall₂ Agree rs rs') :
    rs'.map Prod.fst = rs.map Prod.fst := by
  induction h with
  | nil => rfl
  | cons h _ ih => rw [List.map_cons, List.map_cons, h.mark, ih]

/-- **The marks of a text** are the first marks of any longer text. -/
theorem marks_prefix (s : State) (o : Nat) (cs ds : List Char) :
    marks s o cs <+: marks s o (cs ++ ds) := by
  rw [marks, ← map_mark_of_agree (agree_readings s o cs ds), List.map_take]
  exact List.take_prefix _ _

end Scan

variable {ms : List Mark} {e : ScriptError} {cs : List Char}

/-! ### Faults at braces -/

/-- **A fault stays the first** whatever marks come after. -/
theorem firstFault?_append (h : firstFault? ms = some e) (ns : List Mark) :
    firstFault? (ms ++ ns) = some e := by
  rw [firstFault?, places, placesFrom_append, List.findSome?_append]
  change (firstFault? ms).or _ = some e
  rw [h, Option.some_or]

/-- The first fault is found at a place of the script. -/
theorem exists_place_of_firstFault? (h : firstFault? ms = some e) :
    ∃ p ∈ places ms, p.fault? = some e := by
  obtain ⟨before, p, after, hplaces, hp, -⟩ := List.findSome?_eq_some_iff.1 h
  exact ⟨p, by rw [hplaces]; simp, hp⟩

/-- **A fault at a brace** is what a script expands to exactly if it is the first one. -/
theorem expandChars_eq_error_iff_firstFault? (he : e.atBrace = true) :
    expandChars cs = .error e ↔ firstFault? (Scan.marks .start 0 cs) = some e := by
  rw [expandChars_eq_verdict]
  cases hfault : firstFault? (Scan.marks .start 0 cs) with
  | some e' => exact ⟨fun h => congrArg some (Except.error.inj h), fun h => by cases h; rfl⟩
  | none =>
    refine iff_of_false ?_ (by simp)
    -- what is left to go wrong is no fault of a brace
    cases hfinish : (Scan.endState .start 0 cs).finish with
    | error e' =>
      obtain ⟨before, f, body, -, rfl⟩ := Scan.finish_start.1 hfinish
      rintro ⟨⟩
      cases he
    | ok u =>
      cases hopen : (openBlocks (Scan.marks .start 0 cs)).head? with
      | some q =>
        intro h
        obtain rfl := Except.error.inj h
        cases he
      | none =>
        intro h
        cases h

/-- **Before the first fault there is none**: the text before its offset has no fault at a brace. -/
theorem exists_cut_of_firstFault? (h : firstFault? (Scan.marks .start 0 cs) = some e) :
    ∃ ds es, cs = ds ++ es ∧ Text.byteSize ds = e.offset ∧
      firstFault? (Scan.marks .start 0 ds) = none := by
  obtain ⟨⟨before, ⟨n, c, live⟩⟩, hplace, hfault⟩ := exists_place_of_firstFault? h
  obtain ⟨after, hms⟩ := mem_places.1 hplace
  obtain ⟨hbrace, hoffset⟩ := of_fault? hfault
  obtain rfl : live = true := by
    cases live with
    | true => rfl
    | false => cases hbrace
  obtain ⟨ds, es, rfl, hn, -, rfl, -⟩ := Scan.exists_cut hms
  refine ⟨ds, c :: es, rfl, ?_, ?_⟩
  · rw [← hoffset, hn, Nat.zero_add]
  · cases hfirst : firstFault? (Scan.marks .start 0 ds) with
    | none => rfl
    | some e' =>
      -- it would be the first of the whole script, and stand before its own offset
      have hsame := firstFault?_append hfirst (⟨n, c, true⟩ :: after)
      rw [← hms, h] at hsame
      obtain rfl := Option.some.inj hsame
      obtain ⟨q, hq, hqfault⟩ := exists_place_of_firstFault? hfirst
      obtain ⟨rest, hrest⟩ := mem_places.1 hq
      have hlt : q.mark.offset < 0 + Text.byteSize ds :=
        Scan.offset_lt_of_mem (by rw [hrest]; simp)
      have hqoffset := (of_fault? hqfault).2
      simp only at hoffset
      omega

/-- **What has been read decides.** More text after a script leaves each mark of it as it is, and
where the scan stands after it, unless that is a quote. A fault at a brace stays the fault of the
script, whatever text comes after it, and what stands before its offset has none. -/
theorem brace_faults_final (a : String) :
    (∀ b : String, List.Forall₂ Scan.Agree (Scan.readingsFrom 0 a)
      ((Scan.readingsFrom 0 (a ++ b)).take a.length)) ∧
    ∀ e : ScriptError, e.atBrace = true → expand a = .error e →
      (∀ b : String, expand (a ++ b) = .error e) ∧
      ∃ before after : String, a = before ++ after ∧ before.utf8ByteSize = e.offset ∧
        ∀ e' : ScriptError, e'.atBrace = true → expand before ≠ .error e' := by
  refine ⟨fun b => ?_, fun e he h => ?_⟩
  · rw [Scan.readingsFrom_zero, Scan.readingsFrom_zero, String.toList_append,
      ← String.length_toList]
    exact Scan.agree_readings .start 0 a.toList b.toList
  · have hfirst := (expandChars_eq_error_iff_firstFault? he).1 h
    refine ⟨fun b => ?_, ?_⟩
    · obtain ⟨ns, hns⟩ := Scan.marks_prefix .start 0 a.toList b.toList
      rw [expand, String.toList_append, expandChars_eq_error_iff_firstFault? he, ← hns]
      exact firstFault?_append hfirst ns
    · obtain ⟨ds, es, hsplit, hsize, hnone⟩ := exists_cut_of_firstFault? hfirst
      refine ⟨String.ofList ds, String.ofList es, ?_, hsize, fun e' he' herror => ?_⟩
      · rw [← String.ofList_append, ← hsplit, String.ofList_toList]
      · rw [expand, String.toList_ofList, expandChars_eq_error_iff_firstFault? he', hnone] at herror
        cases herror

end Braceline
