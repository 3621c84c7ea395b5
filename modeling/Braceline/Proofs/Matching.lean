import Braceline.Proofs.OpenBlocks

/-!
# Braces that belong together

A closing brace closes the innermost block that is open before it. Between the two braces of a block
as many blocks are closed as are opened, and at no point more; outside the block the same blocks are
open before it and inside it.

* `openBlocks_before`: the blocks open outside an open block are those open before it.
* `exists_of_mem_openBlocks`: from an open brace on, no more blocks are closed than are opened.
* `exists_closes`: a block that is not open at the end is closed by a brace.
-/

namespace Braceline

/-- Does the brace `r` close the block of the brace `q`? -/
def Place.Closes (r q : Place) : Prop :=
  r.mark.is '}' = true ∧ (openBlocks r.before).getLast? = some q

variable {ms after before : List Mark} {p q r : Place} {ps qs : List Place}

/-- **Outside an open block**, the blocks are open that were so before it. -/
theorem openBlocks_before (h : openBlocks ms = ps ++ q :: qs) : openBlocks q.before = ps := by
  rw [openBlocks_eq_unmatched] at h ⊢
  obtain ⟨pre, post, hplaces, hpre⟩ := Place.braces.exists_of_unmatched_eq h
  rw [← places_eq_append hplaces, hpre]

/-- **From an open brace on**, no stretch closes more blocks than it opens. -/
theorem exists_of_mem_openBlocksFrom (h : p ∈ openBlocksFrom before ms) :
    ∃ pre after, p.before = before ++ pre ∧ ms = pre ++ p.mark :: after ∧ surplus after = 0 := by
  induction ms generalizing before with
  | nil => exact absurd h List.not_mem_nil
  | cons m ms ih =>
    rw [openBlocksFrom_cons] at h
    rcases List.mem_append.1 h with h | h
    · split at h
      · next hm =>
        obtain rfl := List.mem_singleton.1 h
        exact ⟨[], ms, by simp, rfl, hm.2⟩
      · exact absurd h List.not_mem_nil
    · obtain ⟨pre, after, hbefore, rfl, hsurplus⟩ := ih h
      refine ⟨m :: pre, after, ?_, rfl, hsurplus⟩
      rw [hbefore, List.append_assoc]
      rfl

theorem exists_of_mem_openBlocks (h : p ∈ openBlocks ms) :
    ∃ after, ms = p.before ++ p.mark :: after ∧ surplus after = 0 := by
  obtain ⟨pre, after, hbefore, hms, hsurplus⟩ := exists_of_mem_openBlocksFrom h
  rw [List.nil_append] at hbefore
  exact ⟨after, hbefore ▸ hms, hsurplus⟩

/-- **A block that is open no more** has been closed by a brace. -/
theorem exists_closes (hq : q.mark.is '{' = true)
    (hopen : q ∉ openBlocks (q.before ++ q.mark :: after)) :
    ∃ r ∈ places (q.before ++ q.mark :: after), r.Closes q := by
  induction after using List.reverseRecOn with
  | nil =>
    rw [openBlocks_concat_open _ hq] at hopen
    exact absurd (List.mem_append_right _ List.mem_cons_self) hopen
  | append_singleton after m ih =>
    rw [← List.cons_append, ← List.append_assoc] at hopen ⊢
    rw [places_concat]
    by_cases hbefore : q ∈ openBlocks (q.before ++ q.mark :: after)
    · -- the last mark closes it, so it was the innermost open block
      refine ⟨⟨_, m⟩, List.mem_append_right _ List.mem_cons_self, ?_⟩
      by_cases ho : m.is '{' = true
      · rw [openBlocks_concat_open _ ho] at hopen
        exact absurd (List.mem_append_left _ hbefore) hopen
      by_cases hc : m.is '}' = true
      · rw [openBlocks_concat_close _ hc] at hopen
        refine ⟨hc, ?_⟩
        rcases List.eq_nil_or_concat (openBlocks (q.before ++ q.mark :: after)) with
          hnil | ⟨os, a, hconcat⟩
        · rw [hnil] at hbefore
          exact absurd hbefore List.not_mem_nil
        · rw [hconcat, List.concat_eq_append] at hopen hbefore ⊢
          rw [List.dropLast_concat] at hopen
          rw [List.getLast?_concat]
          rcases List.mem_append.1 hbefore with h | h
          · exact absurd h hopen
          · rw [List.mem_singleton.1 h]
      · rw [openBlocks_concat_other _ (by simpa using ho) (by simpa using hc)] at hopen
        exact absurd hbefore hopen
    · obtain ⟨r, hr, hcloses⟩ := ih hbefore
      exact ⟨r, List.mem_append_left _ hr, hcloses⟩

/-- The braces of a block, with the marks between them. -/
theorem exists_of_closes (h : r.Closes q) :
    ∃ body, r.before = q.before ++ q.mark :: body ∧ surplus body = 0 ∧
      openBlocks r.before = openBlocks q.before ++ [q] := by
  obtain ⟨-, hlast⟩ := h
  obtain ⟨ps, hps⟩ := List.getLast?_eq_some_iff.1 hlast
  obtain ⟨body, hbody, hsurplus⟩ := exists_of_mem_openBlocks (List.mem_of_getLast? hlast)
  exact ⟨body, hbody, hsurplus, by rw [hps, openBlocks_before hps]⟩

end Braceline
