import Braceline.Text.Blank
import Mathlib.Data.List.TakeWhile

/-!
# What is left of a text

Trimming takes away the blanks at the two ends of a text and nothing else. What is left begins and
ends in characters that are not blank, and no such text is trimmed any further.

* `trim_eq_nil_iff`: nothing is left of a text exactly when it is blank throughout.
* `trim_concat`: a blank at the end is trimmed away.
* `exists_padded`, `trim_padded`: a text is what is left of it, between blanks.
-/

namespace Braceline.Text

variable {before name after : List Char}

/-- A blank at the end of a text is trimmed away. -/
theorem trim_concat {c : Char} (hc : isBlank c = true) (cs : List Char) :
    trim (cs ++ [c]) = trim cs := by
  unfold trim trimStart
  rw [List.dropWhile_append]
  split
  · next hnil => rw [List.isEmpty_iff.1 hnil, List.dropWhile_cons_of_pos hc, List.dropWhile_nil]
  · rw [trimEnd, trimEnd, List.reverse_append, List.reverse_singleton, List.singleton_append,
      List.dropWhile_cons_of_pos hc]

/-- **Nothing is left of a text exactly when it is blank throughout.** -/
theorem trim_eq_nil_iff (cs : List Char) : trim cs = [] ↔ cs.all isBlank = true := by
  rw [trim, trimEnd, List.reverse_eq_nil_iff, List.dropWhile_eq_nil_iff, trimStart,
    List.all_eq_true]
  simp only [List.mem_reverse]
  constructor
  · intro h c hc
    -- what is dropped in front is blank as well
    rw [← cs.takeWhile_append_dropWhile, List.mem_append] at hc
    exact hc.elim List.mem_takeWhile_imp (h c)
  · exact fun h c hc => h c ((List.dropWhile_suffix isBlank).mem hc)

theorem head?_dropWhile_isBlank (cs : List Char) :
    ∀ c ∈ (cs.dropWhile isBlank).head?, isBlank c = false := by
  intro c hc
  have hnot := List.head?_dropWhile_not isBlank cs
  rw [Option.mem_def.1 hc] at hnot
  exact hnot

theorem getLast?_trim_not_blank (cs : List Char) :
    ∀ c ∈ (trim cs).getLast?, isBlank c = false := by
  rw [trim, trimEnd, List.getLast?_reverse]
  exact head?_dropWhile_isBlank _

theorem head?_trim_not_blank (cs : List Char) :
    ∀ c ∈ (trim cs).head?, isBlank c = false := by
  intro c hc
  -- what is left at the end begins as the whole does
  have hprefix : trim cs <+: cs.dropWhile isBlank := by
    rw [trim, trimEnd, trimStart, ← List.reverse_suffix, List.reverse_reverse]
    exact List.dropWhile_suffix _
  obtain ⟨rest, hrest⟩ := hprefix
  obtain ⟨u, hu⟩ := List.head?_eq_some_iff.1 hc
  have hhead : c ∈ (cs.dropWhile isBlank).head? := by
    rw [← hrest, hu]
    rfl
  exact head?_dropWhile_isBlank cs c hhead

/-- A text is what is left of it, between blanks. -/
theorem exists_padded (cs : List Char) : ∃ before after : List Char,
    before.all isBlank = true ∧ after.all isBlank = true ∧ before ++ trim cs ++ after = cs := by
  refine ⟨cs.takeWhile isBlank, ((trimStart cs).reverse.takeWhile isBlank).reverse,
    List.all_takeWhile, by rw [List.all_reverse]; exact List.all_takeWhile, ?_⟩
  rw [trim, trimEnd, List.append_assoc, ← List.reverse_append, List.takeWhile_append_dropWhile,
    List.reverse_reverse, trimStart, List.takeWhile_append_dropWhile]

theorem dropWhile_blanks (h : before.all isBlank = true)
    (hfirst : ∀ c ∈ name.head?, isBlank c = false) (hne : name ≠ []) (rest : List Char) :
    (before ++ name ++ rest).dropWhile isBlank = name ++ rest := by
  obtain ⟨c, name, rfl⟩ := List.exists_cons_of_ne_nil hne
  rw [List.append_assoc, List.dropWhile_append_of_pos (List.all_eq_true.1 h), List.cons_append,
    List.dropWhile_cons_of_neg (by rw [hfirst c rfl]; exact Bool.false_ne_true)]

/-- **The blanks around a name are trimmed away**, and no more. -/
theorem trim_padded (hbefore : before.all isBlank = true) (hafter : after.all isBlank = true)
    (hfirst : ∀ c ∈ name.head?, isBlank c = false)
    (hlast : ∀ c ∈ name.getLast?, isBlank c = false) : trim (before ++ name ++ after) = name := by
  by_cases hne : name = []
  · subst hne
    exact (trim_eq_nil_iff _).2 (by simp only [List.append_nil, List.all_append, hbefore, hafter,
      Bool.and_self])
  · have hafter' : after.reverse.all isBlank = true := by rwa [List.all_reverse]
    have hlast' : ∀ c ∈ name.reverse.head?, isBlank c = false := by rwa [List.head?_reverse]
    -- from the right, the name begins after the blanks too
    have hback := dropWhile_blanks hafter' hlast' (List.reverse_ne_nil_iff.2 hne) []
    rw [List.append_nil, List.append_nil] at hback
    rw [trim, trimStart, dropWhile_blanks hbefore hfirst hne, trimEnd, List.reverse_append, hback,
      List.reverse_reverse]

/-- A text that begins and ends in characters that are not blank is trimmed. -/
theorem trim_eq_self (hfirst : ∀ c ∈ name.head?, isBlank c = false)
    (hlast : ∀ c ∈ name.getLast?, isBlank c = false) : trim name = name := by
  have hnone : ([] : List Char).all isBlank = true := rfl
  simpa using trim_padded hnone hnone hfirst hlast

theorem trim_trim (cs : List Char) : trim (trim cs) = trim cs :=
  trim_eq_self (head?_trim_not_blank cs) (getLast?_trim_not_blank cs)

end Braceline.Text
