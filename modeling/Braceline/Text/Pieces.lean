/-!
# Pieces between separators

* `length_pieces`: a text has one piece more than it has separators.
* `pieces_append_cons`: a separator cuts a text.
-/

namespace Braceline.Text

/-- The stretches of a text between the separators. -/
def pieces (sep : Char) : List Char → List (List Char)
  | [] => [[]]
  | c :: cs =>
    if c = sep then [] :: pieces sep cs
    else
      match pieces sep cs with
      | [] => [[c]]
      | p :: ps => (c :: p) :: ps

/-- A text has one piece more than it has separators. -/
theorem length_pieces (sep : Char) (cs : List Char) :
    (pieces sep cs).length = cs.count sep + 1 := by
  induction cs with
  | nil => rfl
  | cons c cs ih =>
    unfold pieces
    split
    · next h => simp [h, ih]
    · next h =>
      have hc : (c == sep) = false := by simpa using h
      split <;> simp_all

/-- A text without separators is one piece. -/
theorem pieces_of_not_mem {sep : Char} {cs : List Char} (h : sep ∉ cs) : pieces sep cs = [cs] := by
  induction cs with
  | nil => rfl
  | cons c cs ih =>
    obtain ⟨hc, hcs⟩ := List.ne_and_not_mem_of_not_mem_cons h
    rw [pieces, if_neg hc.symm, ih hcs]

/-- A separator cuts a text. -/
theorem pieces_append_cons (sep : Char) (cs ds : List Char) :
    pieces sep (cs ++ sep :: ds) = pieces sep cs ++ pieces sep ds := by
  induction cs with
  | nil => simp [pieces]
  | cons c cs ih =>
    have hne : pieces sep cs ≠ [] := by
      rw [← List.length_pos_iff, length_pieces]
      exact Nat.succ_pos _
    obtain ⟨p, ps, hp⟩ := List.exists_cons_of_ne_nil hne
    rw [List.cons_append, pieces, pieces, ih, hp]
    split <;> rfl

end Braceline.Text
