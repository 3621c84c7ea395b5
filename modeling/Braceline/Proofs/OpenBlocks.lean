import Braceline.Proofs.Brackets
import Braceline.Proofs.Pass

/-!
# The blocks open at a point of a script

Which opening braces are still open at a point is a matter of counting: a brace is open if, from it
on, no stretch of the script closes more blocks than it opens. So the braces of a script are
brackets among its places, and the open blocks are those that are left open.

* `openBlocks_concat_open`, `openBlocks_concat_close`, `openBlocks_concat_other`: what one more mark
  does to the open blocks.
-/

namespace Braceline

/-- A mark of a script, with the marks before it. -/
structure Place where
  before : List Mark
  mark : Mark
  deriving DecidableEq, Repr

/-- The places of marks that follow others. -/
def placesFrom (before : List Mark) : List Mark → List Place
  | [] => []
  | m :: ms => ⟨before, m⟩ :: placesFrom (before ++ [m]) ms

/-- The places of a script, in order. -/
def places (ms : List Mark) : List Place := placesFrom [] ms

/-- Does a block that is opened right before the marks stay open? No stretch right after it closes
more blocks than it opens. -/
def staysOpen (ms : List Mark) : Bool :=
  ms.inits.all fun l => l.countP (·.is '}') ≤ l.countP (·.is '{')

/-- The braces among marks that follow others whose blocks stay open, outermost first. -/
def openBlocksFrom (before : List Mark) : List Mark → List Place
  | [] => []
  | m :: ms =>
    if m.is '{' && staysOpen ms then ⟨before, m⟩ :: openBlocksFrom (before ++ [m]) ms
    else openBlocksFrom (before ++ [m]) ms

/-- **The braces whose blocks are open** after the marks, outermost first. -/
def openBlocks (ms : List Mark) : List Place := openBlocksFrom [] ms

variable {m : Mark} {ms before : List Mark} {p : Place}

theorem placesFrom_append (before ms ns : List Mark) :
    placesFrom before (ms ++ ns) = placesFrom before ms ++ placesFrom (before ++ ms) ns := by
  induction ms generalizing before with
  | nil => simp [placesFrom]
  | cons m ms ih => simp [placesFrom, ih]

@[simp]
theorem places_concat (ms : List Mark) (m : Mark) :
    places (ms ++ [m]) = places ms ++ [⟨ms, m⟩] := by
  rw [places, placesFrom_append]
  rfl

/-- A place is a way to cut the script before a mark. -/
theorem mem_places : p ∈ places ms ↔ ∃ after, ms = p.before ++ p.mark :: after := by
  induction ms using List.reverseRecOn with
  | nil => simp [places, placesFrom]
  | append_singleton ms m ih =>
    rw [places_concat, List.mem_append, ih, List.mem_singleton]
    constructor
    · rintro (⟨after, rfl⟩ | rfl)
      · exact ⟨after ++ [m], by simp⟩
      · exact ⟨[], rfl⟩
    · rintro ⟨after, h⟩
      rcases List.eq_nil_or_concat after with rfl | ⟨after, a, rfl⟩
      · obtain ⟨rfl, hm⟩ := List.append_inj' h rfl
        obtain rfl : m = p.mark := (List.cons.inj hm).1
        exact .inr rfl
      · rw [List.concat_eq_append, ← List.cons_append, ← List.append_assoc] at h
        exact .inl ⟨after, (List.append_inj' h rfl).1⟩

theorem map_mark_placesFrom (before ms : List Mark) :
    (placesFrom before ms).map Place.mark = ms := by
  induction ms generalizing before with
  | nil => rfl
  | cons m ms ih => rw [placesFrom, List.map_cons, ih]

theorem map_mark_places (ms : List Mark) : (places ms).map Place.mark = ms :=
  map_mark_placesFrom [] ms

/-- The places before a place of the script are those of the marks before it. -/
theorem places_eq_append {ps qs : List Place} (h : places ms = ps ++ p :: qs) :
    ps = places p.before := by
  induction ms using List.reverseRecOn generalizing qs with
  | nil => simp [places, placesFrom] at h
  | append_singleton ms m ih =>
    rw [places_concat] at h
    rcases List.eq_nil_or_concat qs with rfl | ⟨qs, q, rfl⟩
    · obtain ⟨hps, hp⟩ := List.append_inj' h rfl
      obtain rfl := List.singleton_inj.1 hp
      exact hps.symm
    · rw [List.concat_eq_append, ← List.cons_append, ← List.append_assoc] at h
      exact ih (List.append_inj' h rfl).1

/-! ### Counting braces -/

/-- The number of closing braces for which the marks hold no opening one. -/
def surplus : List Mark → Nat
  | [] => 0
  | m :: ms => if m.is '{' then surplus ms - 1 else if m.is '}' then surplus ms + 1 else surplus ms

theorem not_is_of_is {c d : Char} (hcd : c ≠ d) (h : m.is c = true) : m.is d = false := by
  obtain ⟨o, a, live⟩ := m
  cases live with
  | false => rfl
  | true =>
    obtain rfl : a = c := by simpa using h
    simpa using hcd

/-- The braces among marks. -/
def Mark.braces : Brackets Mark := ⟨(·.is '{'), (·.is '}'), fun _ => not_is_of_is (by decide)⟩

/-- The braces among places. -/
def Place.braces : Brackets Place :=
  ⟨(·.mark.is '{'), (·.mark.is '}'), fun _ => not_is_of_is (by decide)⟩

theorem surplus_braces (ms : List Mark) : Mark.braces.surplus ms = surplus ms := by
  induction ms with
  | nil => rfl
  | cons m ms ih =>
    rw [Brackets.surplus, surplus, ih]
    rfl

theorem surplus_placesFrom (before ms : List Mark) :
    Place.braces.surplus (placesFrom before ms) = surplus ms := by
  induction ms generalizing before with
  | nil => rfl
  | cons m ms ih =>
    rw [placesFrom, Brackets.surplus, surplus, ih]
    rfl

theorem surplus_le_iff (k : Nat) :
    surplus ms ≤ k ↔ ∀ l, l <+: ms → l.countP (·.is '}') ≤ l.countP (·.is '{') + k := by
  rw [← surplus_braces]
  exact Mark.braces.surplus_le_iff k

theorem staysOpen_iff : staysOpen ms = true ↔ surplus ms = 0 := by
  rw [← surplus_braces]
  exact Mark.braces.staysOpen_iff

theorem openBlocksFrom_cons (before : List Mark) (m : Mark) (ms : List Mark) :
    openBlocksFrom before (m :: ms) =
      (if m.is '{' ∧ surplus ms = 0 then [⟨before, m⟩] else []) ++
        openBlocksFrom (before ++ [m]) ms := by
  rw [openBlocksFrom]
  simp only [Bool.and_eq_true, staysOpen_iff]
  split <;> rfl

/-- **The open blocks** are the braces that are left open. -/
theorem openBlocksFrom_eq_unmatched (before ms : List Mark) :
    openBlocksFrom before ms = Place.braces.unmatched (placesFrom before ms) := by
  induction ms generalizing before with
  | nil => rfl
  | cons m ms ih =>
    rw [openBlocksFrom_cons, placesFrom, Brackets.unmatched_cons, surplus_placesFrom, ih]
    rfl

theorem openBlocks_eq_unmatched (ms : List Mark) :
    openBlocks ms = Place.braces.unmatched (places ms) := openBlocksFrom_eq_unmatched [] ms

/-- An open block was opened at a live place of the script. -/
theorem mem_places_of_mem_openBlocksFrom (h : p ∈ openBlocksFrom before ms) :
    p ∈ placesFrom before ms ∧ p.mark.is '{' = true := by
  rw [openBlocksFrom_eq_unmatched] at h
  exact Place.braces.opens_of_mem_unmatched h

/-! ### One more mark -/

/-- One more opening brace is open. -/
theorem openBlocks_concat_open (ms : List Mark) (hm : m.is '{' = true) :
    openBlocks (ms ++ [m]) = openBlocks ms ++ [⟨ms, m⟩] := by
  rw [openBlocks_eq_unmatched, places_concat, openBlocks_eq_unmatched]
  exact Place.braces.unmatched_concat_open (places ms) hm

/-- One more closing brace closes the innermost open block. -/
theorem openBlocks_concat_close (ms : List Mark) (hm : m.is '}' = true) :
    openBlocks (ms ++ [m]) = (openBlocks ms).dropLast := by
  rw [openBlocks_eq_unmatched, places_concat, openBlocks_eq_unmatched]
  exact Place.braces.unmatched_concat_close (places ms) hm

/-- Any other mark leaves the open blocks as they are. -/
theorem openBlocks_concat_other (ms : List Mark) (ho : m.is '{' = false) (hc : m.is '}' = false) :
    openBlocks (ms ++ [m]) = openBlocks ms := by
  rw [openBlocks_eq_unmatched, places_concat, openBlocks_eq_unmatched]
  exact Place.braces.unmatched_concat_other (places ms) ho hc

end Braceline
