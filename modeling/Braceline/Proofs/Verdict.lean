import Braceline.Proofs.Outline
import Braceline.Proofs.Scanning

/-!
# The verdict on a script

Six kinds of faults compete. The one that is reported is the fault at the brace with the smallest
offset that makes one. If no brace does, it is the literal that the script ends in; if it ends in
none, the outermost block that is still open. A script with no such fault expands.

* `firstFault?_eq_some_iff`: the first fault is the one with the smallest offset.
* `expand_eq_error_iff_verdict`: the verdict is what the expansion reports.
-/

namespace Braceline

/-- **What is wrong with a script** of these marks and spans. -/
inductive Verdict (ms : List Mark) (ss : List Span) : ScriptError → Prop where
  /-- A brace makes a fault, and none with a smaller offset does. -/
  | brace {e : ScriptError} {p : Place} (hp : p ∈ places ms) (hf : p.fault? = some e)
    (hfirst : ∀ q ∈ places ms, q.fault?.isSome → p.mark.offset ≤ q.mark.offset) :
    Verdict ms ss e
  /-- The script ends in a literal. -/
  | openLiteral (hnone : ∀ q ∈ places ms, q.fault? = none) {before : List Span} {f : Fence}
    {body : List Char} (h : ss = before ++ [.literal f body false]) :
    Verdict ms ss (.unterminatedLiteral (Text.byteSize (before.flatMap Span.text)) f)
  /-- The script ends in code or in a comment, and in a block. -/
  | openBlock (hnone : ∀ q ∈ places ms, q.fault? = none)
    (hclosed : ∀ before f body, ss ≠ before ++ [.literal f body false]) {p : Place}
    (h : (openBlocks ms).head? = some p) :
    Verdict ms ss (.unclosedBrace p.mark.offset)

variable {ms : List Mark} {ss : List Span} {e : ScriptError}

theorem firstFault?_eq_none_iff : firstFault? ms = none ↔ ∀ p ∈ places ms, p.fault? = none :=
  List.findSome?_eq_none_iff

/-- The first fault in reading order is the one with the smallest offset. -/
theorem firstFault?_eq_some_iff (hms : ms.Pairwise fun m m' => m.offset < m'.offset) :
    firstFault? ms = some e ↔ ∃ p ∈ places ms, p.fault? = some e ∧
      ∀ q ∈ places ms, q.fault?.isSome → p.mark.offset ≤ q.mark.offset := by
  have hplaces : (places ms).Pairwise fun p q => p.mark.offset < q.mark.offset := by
    rw [← List.pairwise_map (f := Place.mark) (R := fun m m' => m.offset < m'.offset),
      map_mark_places]
    exact hms
  constructor
  · intro h
    obtain ⟨before, p, after, hsplit, hp, hbefore⟩ := List.findSome?_eq_some_iff.1 h
    refine ⟨p, by simp [hsplit], hp, fun q hq hfault => ?_⟩
    rw [hsplit] at hq hplaces
    rcases List.mem_append.1 hq with hq | hq
    · simp [hbefore q hq] at hfault
    · rcases List.mem_cons.1 hq with rfl | hq
      · exact Nat.le_refl _
      · exact (List.rel_of_pairwise_cons (List.pairwise_append.1 hplaces).2.1 hq).le
  · rintro ⟨p, hp, hf, hfirst⟩
    obtain ⟨before, after, hsplit⟩ := List.append_of_mem hp
    refine List.findSome?_eq_some_iff.2 ⟨before, p, after, hsplit, hf, fun q hq => ?_⟩
    by_contra hfault
    have hle := hfirst q (by simp [hsplit, hq]) (Option.isSome_iff_ne_none.2 hfault)
    -- a fault before `p` would be the one with the smaller offset
    rw [hsplit] at hplaces
    have hlt := (List.pairwise_append.1 hplaces).2.2 q hq p List.mem_cons_self
    omega

/-- What the verdict says is what the expansion reports. -/
theorem expand_of_verdict {script : String}
    (h : Verdict (Scan.marks .start 0 script.toList) (Span.ofText script.toList) e) :
    expand script = .error e := by
  have hms := Scan.pairwise_offset .start 0 script.toList
  rw [expand, expandChars_eq_verdict]
  cases h with
  | brace hp hf hfirst =>
    have hfault := (firstFault?_eq_some_iff hms).2 ⟨_, hp, hf, hfirst⟩
    rw [hfault]
  | openLiteral hnone hss =>
    have hfault := firstFault?_eq_none_iff.2 hnone
    have hfinish := Scan.finish_start.2 ⟨_, _, _, hss, rfl⟩
    rw [hfault, hfinish]
    rfl
  | openBlock hnone hclosed hopen =>
    have hfault := firstFault?_eq_none_iff.2 hnone
    have hfinish : (Scan.endState .start 0 script.toList).finish = .ok () := by
      cases hfin : (Scan.endState .start 0 script.toList).finish with
      | ok u => rfl
      | error e =>
        obtain ⟨before, f, body, hss, -⟩ := Scan.finish_start.1 hfin
        exact absurd hss (hclosed before f body)
    rw [hfault, hfinish, hopen]
    rfl

/-- A script expands to the program that its marks make, or something is wrong with it. -/
theorem expand_cases (script : String) :
    expand script = .ok (programOf (Scan.marks .start 0 script.toList)) ∨
      ∃ e, Verdict (Scan.marks .start 0 script.toList) (Span.ofText script.toList) e := by
  have hms := Scan.pairwise_offset .start 0 script.toList
  rw [expand, expandChars_eq_verdict]
  cases hfault : firstFault? (Scan.marks .start 0 script.toList) with
  | some e =>
    obtain ⟨p, hp, hf, hfirst⟩ := (firstFault?_eq_some_iff hms).1 hfault
    exact .inr ⟨e, .brace hp hf hfirst⟩
  | none =>
    have hnone := firstFault?_eq_none_iff.1 hfault
    cases hfin : (Scan.endState .start 0 script.toList).finish with
    | error e =>
      obtain ⟨before, f, body, hss, rfl⟩ := Scan.finish_start.1 hfin
      exact .inr ⟨_, .openLiteral hnone hss⟩
    | ok u =>
      cases hopen : (openBlocks (Scan.marks .start 0 script.toList)).head? with
      | none => exact .inl rfl
      | some p =>
        refine .inr ⟨_, .openBlock hnone (fun before f body hss => ?_) hopen⟩
        have hfin' := Scan.finish_start.2 ⟨before, f, body, hss, rfl⟩
        rw [hfin] at hfin'
        cases hfin'

/-- **A script is expanded by its verdict.** Whatever the verdict names is reported, and nothing
else is; a script with nothing wrong expands, to lines that stand where its marks say. -/
theorem expand_eq_error_iff_verdict (script : String) :
    (∀ e, expand script = .error e ↔
        Verdict (Scan.marks .start 0 script.toList) (Span.ofText script.toList) e) ∧
      ((∃ p, expand script = .ok p ∧
          p.outline = outlineAfter (Scan.marks .start 0 script.toList) ∧
          p.structural = (Scan.marks .start 0 script.toList).any Mark.isStructural) ↔
        ∀ e, ¬ Verdict (Scan.marks .start 0 script.toList) (Span.ofText script.toList) e) := by
  have hcases := expand_cases script
  refine ⟨fun e => ⟨fun he => ?_, expand_of_verdict⟩, ?_, fun hnone => ?_⟩
  · rcases hcases with hok | ⟨e', hv⟩
    · rw [he] at hok
      cases hok
    · obtain rfl : e = e' := Except.error.inj (he.symm.trans (expand_of_verdict hv))
      exact hv
  · rintro ⟨p, hp, -⟩ e hv
    rw [expand_of_verdict hv] at hp
    cases hp
  · rcases hcases with hok | ⟨e, hv⟩
    · exact ⟨_, hok, outline_programOf _, rfl⟩
    · exact absurd hv (hnone e)

end Braceline
