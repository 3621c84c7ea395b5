import Mathlib.Data.List.Induction
import Mathlib.Data.List.Infix
import Mathlib.Data.List.TakeDrop

/-!
# Brackets

Some items of a list open something, and some close what was opened last, if it is still open. What
is left open is a matter of counting: an item that opens is left open if, from it on, no stretch of
the list closes more than it opens.

* `unmatched_concat_open`, `unmatched_concat_close`, `unmatched_concat_other`: what one more item
  does to what is left open.
* `exists_of_unmatched_eq`: before an item that is left open, those were open that are left open
  around it.
-/

namespace Braceline

/-- The items of a list that open something, and those that close it. No item does both. -/
structure Brackets (α : Type) where
  opens : α → Bool
  closes : α → Bool
  closes_of_opens : ∀ a, opens a = true → closes a = false

namespace Brackets

variable {α : Type} (B : Brackets α) {a : α} {as ps qs : List α}

/-- Is what is opened right before the items open after them? No stretch right after it closes more
than it opens. -/
def staysOpen (as : List α) : Bool :=
  as.inits.all fun l => l.countP B.closes ≤ l.countP B.opens

/-- **The items that are left open**, in order. -/
def unmatched : List α → List α
  | [] => []
  | a :: as => if B.opens a && B.staysOpen as then a :: unmatched as else unmatched as

/-- The number of closing items for which the list holds no opening one. -/
def surplus : List α → Nat
  | [] => 0
  | a :: as =>
    if B.opens a then surplus as - 1 else if B.closes a then surplus as + 1 else surplus as

/-! ### Counting -/

/-- The surplus is the most by which a stretch at the front closes more than it opens. -/
theorem surplus_le_iff (k : Nat) :
    B.surplus as ≤ k ↔ ∀ l, l <+: as → l.countP B.closes ≤ l.countP B.opens + k := by
  induction as generalizing k with
  | nil => simp [surplus]
  | cons a as ih =>
    -- the empty stretch asks for nothing, and the others begin with `a`
    have hcons : (∀ l, l <+: a :: as → l.countP B.closes ≤ l.countP B.opens + k) ↔
        ∀ l, l <+: as → (a :: l).countP B.closes ≤ (a :: l).countP B.opens + k := by
      constructor
      · exact fun h l hl => h _ (List.cons_prefix_cons.2 ⟨rfl, hl⟩)
      · intro h l hl
        rcases List.prefix_cons_iff.1 hl with rfl | ⟨t, rfl, ht⟩
        · simp
        · exact h t ht
    rw [hcons]
    unfold surplus
    by_cases ho : B.opens a
    · have hc := B.closes_of_opens a ho
      rw [if_pos ho, Nat.sub_le_iff_le_add, ih]
      refine forall₂_congr fun l _ => ?_
      rw [List.countP_cons, List.countP_cons]
      simp only [ho, hc, if_true, Bool.false_eq_true, if_false]
      omega
    by_cases hc : B.closes a
    · rw [if_neg ho, if_pos hc]
      cases k with
      | zero =>
        refine iff_of_false (Nat.not_succ_le_zero _) fun h => ?_
        have := h [] List.nil_prefix
        simp [hc, ho] at this
      | succ k =>
        rw [Nat.add_le_add_iff_right, ih]
        refine forall₂_congr fun l _ => ?_
        rw [List.countP_cons, List.countP_cons]
        simp only [ho, hc, if_true, Bool.false_eq_true, if_false]
        omega
    · rw [if_neg ho, if_neg hc, ih]
      refine forall₂_congr fun l _ => ?_
      simp [ho, hc]

theorem staysOpen_iff : B.staysOpen as = true ↔ B.surplus as = 0 := by
  rw [← Nat.le_zero, surplus_le_iff]
  simp [staysOpen]

theorem unmatched_cons (a : α) (as : List α) :
    B.unmatched (a :: as) =
      (if B.opens a = true ∧ B.surplus as = 0 then [a] else []) ++ B.unmatched as := by
  rw [unmatched]
  simp only [Bool.and_eq_true, staysOpen_iff]
  split <;> rfl

/-- What closes nothing adds nothing to the surplus at the end. -/
theorem surplus_concat_other (as : List α) (hc : B.closes a = false) :
    B.surplus (as ++ [a]) = B.surplus as := by
  induction as with
  | nil => simp [surplus, hc]
  | cons b as ih => simp only [List.cons_append, surplus, ih]

/-- A closing item at the end is in surplus exactly if nothing is left open before it. -/
theorem surplus_concat_close (as : List α) (ha : B.closes a = true) :
    (B.unmatched as = [] → B.surplus (as ++ [a]) = B.surplus as + 1) ∧
      (B.unmatched as ≠ [] → B.surplus (as ++ [a]) = B.surplus as) := by
  induction as with
  | nil =>
    have ho : ¬ B.opens a = true := fun ho => by simp [B.closes_of_opens a ho] at ha
    simp [surplus, unmatched, ha, ho]
  | cons b as ih =>
    obtain ⟨hnil, hcons⟩ := ih
    rw [List.cons_append, unmatched_cons, surplus, surplus]
    by_cases hopen : B.unmatched as = []
    · -- nothing is open after `b`, so the item closes what `b` opens, or nothing
      rw [hnil hopen, hopen, List.append_nil]
      by_cases hb : B.opens b
      · by_cases hs : B.surplus as = 0
        · simp [hb, hs]
        · simp only [hb, hs, if_true, and_false, if_false, ne_eq, not_true, false_implies, and_true]
          omega
      · by_cases hc : B.closes b <;> simp [hb, hc]
    · rw [hcons hopen]
      simp [hopen]

/-! ### One more item -/

/-- **One more item that opens** is left open. -/
theorem unmatched_concat_open (as : List α) (ha : B.opens a = true) :
    B.unmatched (as ++ [a]) = B.unmatched as ++ [a] := by
  have hc := B.closes_of_opens a ha
  induction as with
  | nil => simp [unmatched_cons, unmatched, surplus, ha]
  | cons b as ih =>
    rw [List.cons_append, unmatched_cons, unmatched_cons, ih, B.surplus_concat_other as hc,
      List.append_assoc]

/-- **One more item that closes** takes away what was left open last. -/
theorem unmatched_concat_close (as : List α) (ha : B.closes a = true) :
    B.unmatched (as ++ [a]) = (B.unmatched as).dropLast := by
  induction as with
  | nil =>
    have ho : ¬ B.opens a = true := fun ho => by simp [B.closes_of_opens a ho] at ha
    simp [unmatched_cons, unmatched, ho]
  | cons b as ih =>
    obtain ⟨hnil, hcons⟩ := B.surplus_concat_close as ha
    rw [List.cons_append, unmatched_cons, unmatched_cons, ih]
    by_cases hopen : B.unmatched as = []
    · -- what `b` opens was left open last, if it was at all
      rw [hnil hopen, hopen, List.append_nil, if_neg (by simp)]
      split <;> rfl
    · rw [hcons hopen, List.dropLast_append_of_ne_nil hopen]

/-- **Any other item** changes nothing. -/
theorem unmatched_concat_other (as : List α) (ho : B.opens a = false) (hc : B.closes a = false) :
    B.unmatched (as ++ [a]) = B.unmatched as := by
  induction as with
  | nil => simp [unmatched_cons, unmatched, ho]
  | cons b as ih =>
    rw [List.cons_append, unmatched_cons, unmatched_cons, ih, B.surplus_concat_other as hc]

/-! ### What is open around an item -/

/-- **Before an item that is left open**, those were open that are left open around it. -/
theorem exists_of_unmatched_eq (h : B.unmatched as = ps ++ a :: qs) :
    ∃ pre post, as = pre ++ a :: post ∧ B.unmatched pre = ps := by
  induction as using List.reverseRecOn generalizing ps qs with
  | nil => simp [unmatched] at h
  | append_singleton as b ih =>
    -- what was left open before `b` has the same around it after `b`
    have hbefore {qs' : List α} (h : B.unmatched as = ps ++ a :: qs') :
        ∃ pre post, as ++ [b] = pre ++ a :: post ∧ B.unmatched pre = ps := by
      obtain ⟨pre, post, rfl, hpre⟩ := ih h
      exact ⟨pre, post ++ [b], by rw [List.append_assoc, List.cons_append], hpre⟩
    by_cases ho : B.opens b = true
    · rw [B.unmatched_concat_open as ho] at h
      rcases List.eq_nil_or_concat qs with rfl | ⟨qs, c, rfl⟩
      · obtain ⟨hps, hb⟩ := List.append_inj' h rfl
        obtain rfl : b = a := List.singleton_inj.1 hb
        exact ⟨as, [], rfl, hps⟩
      · rw [List.concat_eq_append, ← List.cons_append, ← List.append_assoc] at h
        exact hbefore (List.append_inj' h rfl).1
    by_cases hc : B.closes b = true
    · rw [B.unmatched_concat_close as hc] at h
      -- what `b` closes was opened after `a`
      rcases List.eq_nil_or_concat (B.unmatched as) with hnil | ⟨os, c, hconcat⟩
      · rw [hnil] at h
        simp at h
      · rw [hconcat, List.concat_eq_append, List.dropLast_concat] at h
        have hmore : B.unmatched as = ps ++ a :: (qs ++ [c]) := by
          rw [hconcat, List.concat_eq_append, h, List.append_assoc, List.cons_append]
        exact hbefore hmore
    · rw [B.unmatched_concat_other as (by simpa using ho) (by simpa using hc)] at h
      exact hbefore h

/-- An item that is left open opens. -/
theorem opens_of_mem_unmatched (h : a ∈ B.unmatched as) : a ∈ as ∧ B.opens a = true := by
  induction as with
  | nil => exact absurd h List.not_mem_nil
  | cons b as ih =>
    rw [unmatched_cons] at h
    rcases List.mem_append.1 h with h | h
    · split at h
      · next hb =>
        obtain rfl := List.mem_singleton.1 h
        exact ⟨List.mem_cons_self, hb.1⟩
      · exact absurd h List.not_mem_nil
    · exact ⟨List.mem_cons_of_mem _ (ih h).1, (ih h).2⟩

end Brackets

end Braceline
