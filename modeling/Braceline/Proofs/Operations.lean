import Braceline.Nesting
import Braceline.Proofs.Brackets
import Mathlib

/-!
# Operations on a nesting

The operations of a run are brackets: a push that is granted opens a block, and a pop that is
granted closes the one that was opened last. So at each point of a run the open blocks are those of
the pushes that no pop has matched. An operation that is refused leaves no trace, and neither does
the question whether all blocks are closed.

Levels are machine words. A push may ask for so many levels that the sum does not fit one. Then the
program panics: that push has no answer, and neither has a run that comes to it.

* `apply_push_cases`, `Turn.step`: what one operation can do.
* `blocks_after`: the open blocks after a run.
* `blocks_of_pending`: closing a block leads back to where it was opened.
* `run_eq_none_iff`: which runs panic.
* `bracketing`: all of it, after every run.
-/

namespace Braceline

namespace Nesting

namespace Op

def isPush : Op → Bool
  | push _ _ => true
  | pop _ | finish => false

def isPop : Op → Bool
  | pop _ => true
  | push _ _ | finish => false

/-- The number of levels that the operation asks for. -/
def step : Op → Nat
  | push k _ => k
  | pop _ | finish => 0

/-- The offset that a push is done at. -/
def openedAt : Op → Nat
  | push _ o => o
  | pop _ | finish => 0

end Op

/-- What an operation answers, unless the program panics at it. -/
def answer? (n : Nesting) (op : Op) : Option (Except ScriptError (Option Nat)) :=
  (n.apply op).map Prod.fst

/-- The nesting that an operation leaves behind. A push that panics has opened nothing. -/
def next (n : Nesting) (op : Op) : Nesting := ((n.apply op).map Prod.snd).getD n

/-- The nesting that operations leave behind. -/
def after (n : Nesting) (ops : List Op) : Nesting := ops.foldl next n

/-- An operation of a run, with the operations before it. A run starts with no block open. -/
structure Turn where
  before : List Op
  op : Op
  deriving DecidableEq, Repr

/-- The operations of a run that follow others. -/
def turnsFrom (before : List Op) : List Op → List Turn
  | [] => []
  | op :: ops => ⟨before, op⟩ :: turnsFrom (before ++ [op]) ops

/-- The operations of a run, in order. -/
def turns (ops : List Op) : List Turn := turnsFrom [] ops

namespace Turn

/-- The nesting that the operation is done to. -/
def nesting (t : Turn) : Nesting := empty.after t.before

/-- What the operation answers, unless the program panics at it. -/
def answer? (t : Turn) : Option (Except ScriptError (Option Nat)) := t.nesting.answer? t.op

/-- The block that the operation opens, if it is a push. -/
def block (t : Turn) : Block := ⟨t.nesting.level + t.op.step, t.op.openedAt⟩

/-- **Pushes and pops that are granted** open and close. -/
def brackets : Brackets Turn where
  opens t := t.op.isPush && t.answer?.any Except.isOk
  closes t := t.op.isPop && t.answer?.any Except.isOk
  closes_of_opens := by
    rintro ⟨before, op⟩ h
    cases op with
    | push k o => rfl
    | pop o | finish => cases h

end Turn

/-- **The pushes of a run that no pop has matched**, the first one first. -/
def pending (ops : List Op) : List Turn := Turn.brackets.unmatched (turns ops)

variable {n : Nesting} {ops : List Op} {op : Op} {t : Turn} {ts us : List Turn}

/-! ### Runs -/

theorem after_append (n : Nesting) (ops ops' : List Op) :
    n.after (ops ++ ops') = (n.after ops).after ops' := List.foldl_append

theorem after_concat (n : Nesting) (ops : List Op) (op : Op) :
    n.after (ops ++ [op]) = (n.after ops).next op := after_append n ops [op]

theorem run_cons (n : Nesting) (op : Op) (ops : List Op) :
    n.run (op :: ops) =
      (n.apply op).bind fun r => (r.2.run ops).bind fun rs => some (r :: rs) := rfl

/-- An operation that panics leaves no answers at all. -/
theorem run_cons_none (h : n.apply op = none) (ops : List Op) : n.run (op :: ops) = none := by
  rw [run_cons, h, Option.bind_none]

/-- After an operation that does not panic, the run goes on from what that leaves. -/
theorem run_cons_some {r : Except ScriptError (Option Nat) × Nesting} (h : n.apply op = some r)
    (ops : List Op) : n.run (op :: ops) = ((n.next op).run ops).map (r :: ·) := by
  rw [run_cons, h, next, h, Option.bind_some, Option.map_eq_bind]
  rfl

/-- A run goes on from what the operations before have left, if none of them panics. -/
theorem run_append (n : Nesting) (ops ops' : List Op) :
    n.run (ops ++ ops') = (n.run ops).bind fun rs => ((n.after ops).run ops').map (rs ++ ·) := by
  induction ops generalizing n with
  | nil => simp [run, after]
  | cons op ops ih =>
    rw [List.cons_append]
    cases h : n.apply op with
    | none => rw [run_cons_none h, run_cons_none h, Option.bind_none]
    | some r =>
      have hafter : n.after (op :: ops) = (n.next op).after ops := rfl
      rw [run_cons_some h, run_cons_some h, ih, hafter]
      cases (n.next op).run ops with
      | none => rfl
      | some rs => simp [Function.comp_def]

/-- A run answers each of its operations. -/
theorem length_of_run {rs : List (Except ScriptError (Option Nat) × Nesting)}
    (h : n.run ops = some rs) : rs.length = ops.length := by
  induction ops generalizing n rs with
  | nil =>
    cases h
    rfl
  | cons op ops ih =>
    cases hop : n.apply op with
    | none =>
      rw [run_cons_none hop] at h
      cases h
    | some r =>
      rw [run_cons_some hop, Option.map_eq_some_iff] at h
      obtain ⟨rs', hrs', rfl⟩ := h
      rw [List.length_cons, List.length_cons, ih hrs']

theorem turnsFrom_concat (before ops : List Op) (op : Op) :
    turnsFrom before (ops ++ [op]) = turnsFrom before ops ++ [⟨before ++ ops, op⟩] := by
  induction ops generalizing before with
  | nil => simp [turnsFrom]
  | cons a ops ih => simp [turnsFrom, ih]

@[simp]
theorem turns_concat (ops : List Op) (op : Op) : turns (ops ++ [op]) = turns ops ++ [⟨ops, op⟩] :=
  turnsFrom_concat [] ops op

/-- Before an operation of a run stand the operations before it. -/
theorem turns_eq_append (h : turns ops = ts ++ t :: us) : ts = turns t.before := by
  induction ops using List.reverseRecOn generalizing us with
  | nil => simp [turns, turnsFrom] at h
  | append_singleton ops op ih =>
    rw [turns_concat] at h
    rcases List.eq_nil_or_concat us with rfl | ⟨us, u, rfl⟩
    · obtain ⟨hts, ht⟩ := List.append_inj' h rfl
      obtain rfl := List.singleton_inj.1 ht
      exact hts.symm
    · rw [List.concat_eq_append, ← List.cons_append, ← List.append_assoc] at h
      exact ih (List.append_inj' h rfl).1

/-! ### One operation -/

theorem apply_push_ok {k : Nat} (h : n.level + k ≤ maxLevel) (o : Nat) :
    n.apply (.push k o) = some (.ok (some (n.level + k)), ⟨⟨n.level + k, o⟩ :: n.blocks⟩) := by
  have hfits : n.level + k < wordSize := Nat.lt_of_le_of_lt h (by decide)
  have hdeepen : n.deepen k o = .ok ⟨⟨n.level + k, o⟩ :: n.blocks⟩ := deepen_eq_ok_iff.2 ⟨h, rfl⟩
  rw [apply, push_of_lt hfits, hdeepen]
  rfl

theorem apply_push_error {k : Nat} (h : maxLevel < n.level + k) (hfits : n.level + k < wordSize)
    (o : Nat) : n.apply (.push k o) = some (.error (.nestingTooDeep o), n) := by
  have hdeepen : n.deepen k o = .error (.nestingTooDeep o) := deepen_eq_error_iff.2 ⟨h, rfl⟩
  rw [apply, push_of_lt hfits, hdeepen]
  rfl

theorem apply_push_none {k : Nat} (h : wordSize ≤ n.level + k) (o : Nat) :
    n.apply (.push k o) = none := by
  rw [apply, push_eq_none_iff.2 h]
  rfl

/-- **What a push can do.** It is granted as far as the limit, and refused beyond it, unless its
level does not fit a machine word. -/
theorem apply_push_cases (n : Nesting) (k o : Nat) :
    (n.level + k ≤ maxLevel ∧ n.apply (.push k o) =
        some (.ok (some (n.level + k)), ⟨⟨n.level + k, o⟩ :: n.blocks⟩)) ∨
      (maxLevel < n.level + k ∧ n.level + k < wordSize ∧
        n.apply (.push k o) = some (.error (.nestingTooDeep o), n)) ∨
      (maxLevel < n.level + k ∧ wordSize ≤ n.level + k ∧ n.apply (.push k o) = none) := by
  rcases Nat.lt_or_ge maxLevel (n.level + k) with hdeep | hdeep
  · rcases Nat.lt_or_ge (n.level + k) wordSize with hfits | hfits
    · exact .inr (.inl ⟨hdeep, hfits, apply_push_error hdeep hfits o⟩)
    · exact .inr (.inr ⟨hdeep, hfits, apply_push_none hfits o⟩)
  · exact .inl ⟨hdeep, apply_push_ok hdeep o⟩

theorem apply_pop_ok {b : Block} {bs : List Block} (h : n.blocks = b :: bs) (o : Nat) :
    n.apply (.pop o) = some (.ok (some (level ⟨bs⟩)), ⟨bs⟩) := by
  rw [apply, pop, h]
  rfl

theorem apply_pop_error (h : n.blocks = []) (o : Nat) :
    n.apply (.pop o) = some (.error (.unbalancedBrace o), n) := by
  rw [apply, pop, h]
  rfl

theorem next_of_apply {r : Except ScriptError (Option Nat) × Nesting} (h : n.apply op = some r) :
    n.next op = r.2 := by
  rw [next, h]
  rfl

theorem next_of_none (h : n.apply op = none) : n.next op = n := by
  rw [next, h]
  rfl

namespace Turn

variable {r : Except ScriptError (Option Nat) × Nesting}

/-- A push that answers opens a block if it is granted. -/
theorem opens_of_apply (h : (empty.after ops).apply op = some r) :
    brackets.opens ⟨ops, op⟩ = (op.isPush && r.1.isOk) := by
  simp only [brackets, answer?, nesting, Nesting.answer?, h, Option.map_some, Option.any_some]

theorem opens_of_none (h : (empty.after ops).apply op = none) :
    brackets.opens ⟨ops, op⟩ = false := by
  simp only [brackets, answer?, nesting, Nesting.answer?, h, Option.map_none, Option.any_none,
    Bool.and_false]

/-- A pop that answers closes a block if it is granted. -/
theorem closes_of_apply (h : (empty.after ops).apply op = some r) :
    brackets.closes ⟨ops, op⟩ = (op.isPop && r.1.isOk) := by
  simp only [brackets, answer?, nesting, Nesting.answer?, h, Option.map_some, Option.any_some]

/-- **What one operation can do.** A push that opens adds its block, a pop that closes takes the
innermost block away, and any other operation leaves the nesting as it is. -/
theorem step (t : Turn) :
    (brackets.opens t = true ∧ t.block.level ≤ maxLevel ∧
        t.nesting.next t.op = ⟨t.block :: t.nesting.blocks⟩) ∨
      (brackets.closes t = true ∧ ∃ b, t.nesting.blocks = b :: (t.nesting.next t.op).blocks) ∨
      (brackets.opens t = false ∧ brackets.closes t = false ∧
        t.nesting.next t.op = t.nesting) := by
  obtain ⟨before, op⟩ := t
  cases op with
  | finish => exact .inr (.inr ⟨rfl, rfl, rfl⟩)
  | push k o =>
    rcases apply_push_cases (empty.after before) k o with
      ⟨hle, happly⟩ | ⟨-, -, happly⟩ | ⟨-, -, happly⟩
    · exact .inl ⟨opens_of_apply happly, hle, next_of_apply happly⟩
    · exact .inr (.inr ⟨opens_of_apply happly, rfl, next_of_apply happly⟩)
    · exact .inr (.inr ⟨opens_of_none happly, rfl, next_of_none happly⟩)
  | pop o =>
    cases hblocks : (empty.after before).blocks with
    | nil =>
      have happly := apply_pop_error hblocks o
      exact .inr (.inr ⟨rfl, closes_of_apply happly, next_of_apply happly⟩)
    | cons b bs =>
      have happly := apply_pop_ok hblocks o
      refine .inr (.inl ⟨closes_of_apply happly, b, ?_⟩)
      rw [nesting, next_of_apply happly, hblocks]

end Turn

/-! ### Whole runs -/

/-- **The open blocks** are those of the pushes that no pop has matched, the last one innermost. -/
theorem blocks_after (ops : List Op) :
    (empty.after ops).blocks = ((pending ops).map Turn.block).reverse := by
  induction ops using List.reverseRecOn with
  | nil => rfl
  | append_singleton ops op ih =>
    have hnesting : Turn.nesting ⟨ops, op⟩ = empty.after ops := rfl
    rw [after_concat, pending, turns_concat]
    rcases Turn.step ⟨ops, op⟩ with ⟨hopens, -, hafter⟩ | ⟨hcloses, b, hblocks⟩ |
      ⟨hopens, hcloses, hafter⟩
    · rw [hnesting] at hafter
      rw [hafter, Brackets.unmatched_concat_open _ _ hopens, List.map_append, List.reverse_append]
      exact congrArg (_ :: ·) ih
    · rw [hnesting] at hblocks
      rw [Brackets.unmatched_concat_close _ _ hcloses, List.map_dropLast, ← List.tail_reverse]
      have htail := congrArg List.tail ih
      rw [hblocks] at htail
      exact htail
    · rw [hnesting] at hafter
      rw [hafter, Brackets.unmatched_concat_other _ _ hopens hcloses]
      exact ih

/-- A push that no pop has matched was granted. -/
theorem level_block_le (h : t ∈ pending ops) : t.block.level ≤ maxLevel := by
  obtain ⟨-, hopens⟩ := Turn.brackets.opens_of_mem_unmatched h
  rcases t.step with ⟨-, hle, -⟩ | ⟨hcloses, -⟩ | ⟨hnot, -⟩
  · exact hle
  · have hnot := Turn.brackets.closes_of_opens t hopens
    rw [hcloses] at hnot
    cases hnot
  · rw [hopens] at hnot
    cases hnot

/-- **Before a push that no pop has matched**, the same pushes were unmatched that are so before it
at the end. -/
theorem pending_before (h : pending ops = ts ++ t :: us) : pending t.before = ts := by
  obtain ⟨pre, post, hturns, hpre⟩ := Turn.brackets.exists_of_unmatched_eq h
  rw [pending, ← turns_eq_append hturns, hpre]

/-- **Closing a block** leads back to where it was opened: the innermost block is that of the last
unmatched push, and the others were open before it. -/
theorem blocks_of_pending (h : pending ops = ts ++ [t]) :
    (empty.after ops).blocks = t.block :: t.nesting.blocks := by
  rw [blocks_after, h, Turn.nesting, blocks_after, pending_before h, List.map_append,
    List.reverse_append]
  rfl

theorem level_of_pending (h : pending ops = ts ++ [t]) :
    (empty.after ops).level = t.nesting.level + t.op.step := by
  have hblocks := blocks_of_pending h
  rw [level, hblocks]
  rfl

/-- **The level** is the sum of the steps of the unmatched pushes. -/
theorem level_after (hts : pending ops = ts) :
    (empty.after ops).level = (ts.map fun t => t.op.step).sum := by
  induction ts using List.reverseRecOn generalizing ops with
  | nil => rw [level, blocks_after, hts]; rfl
  | append_singleton ts t ih =>
    have hbefore : t.nesting.level = (ts.map fun t => t.op.step).sum := ih (pending_before hts)
    rw [level_of_pending hts, hbefore, List.map_append, List.sum_append]
    simp

theorem level_after_le (ops : List Op) : (empty.after ops).level ≤ maxLevel := by
  rcases List.eq_nil_or_concat (pending ops) with hnil | ⟨ts, t, hconcat⟩
  · rw [level_after hnil]
    decide
  · rw [List.concat_eq_append] at hconcat
    rw [level_of_pending hconcat]
    exact level_block_le (t := t) (by rw [hconcat]; simp)

theorem depth_after (ops : List Op) : (empty.after ops).depth = (pending ops).length := by
  rw [depth, blocks_after, List.length_reverse, List.length_map]

/-- An operation that answers and leaves the nesting as it is leaves the rest of the run as it
is. -/
theorem run_eraseIdx {a : Except ScriptError (Option Nat)}
    (h : (n.after ops).apply op = some (a, n.after ops)) (rest : List Op) :
    (n.run (ops ++ op :: rest)).map (·.eraseIdx ops.length) = n.run (ops ++ rest) := by
  rw [run_append, run_append, run_cons_some h, next_of_apply h]
  cases hops : n.run ops with
  | none => rfl
  | some rs =>
    have hlength : ops.length = rs.length := (length_of_run hops).symm
    simp [hlength, List.eraseIdx_append_of_length_le, Function.comp_def]

/-! ### Answers -/

/-- A push panics exactly if its level does not fit a machine word, and nothing else does. -/
theorem answer_eq_none_iff :
    n.answer? op = none ↔ op.isPush = true ∧ wordSize ≤ n.level + op.step := by
  cases op with
  | pop o | finish => simp [answer?, apply, Op.isPush]
  | push k o => simp [answer?, apply, push_eq_none_iff, Op.isPush, Op.step]

theorem answer_push_eq_ok_iff {k o : Nat} {l : Option Nat} :
    n.answer? (.push k o) = some (.ok l) ↔ n.level + k ≤ maxLevel ∧ l = some (n.level + k) := by
  rcases apply_push_cases n k o with ⟨hle, happly⟩ | ⟨hdeep, -, happly⟩ | ⟨hdeep, -, happly⟩
  · rw [answer?, happly]
    simp [hle, eq_comm]
  · rw [answer?, happly]
    simp [Nat.not_le.2 hdeep]
  · rw [answer?, happly]
    simp [Nat.not_le.2 hdeep]

theorem answer_push_eq_error_iff {k o : Nat} {e : ScriptError} :
    n.answer? (.push k o) = some (.error e) ↔
      maxLevel < n.level + k ∧ n.level + k < wordSize ∧ e = .nestingTooDeep o := by
  rcases apply_push_cases n k o with ⟨hle, happly⟩ | ⟨hdeep, hfits, happly⟩ | ⟨-, hlarge, happly⟩
  · rw [answer?, happly]
    simp [Nat.not_lt.2 hle]
  · rw [answer?, happly]
    simp [hdeep, hfits, eq_comm]
  · rw [answer?, happly]
    simp [Nat.not_lt.2 hlarge]

theorem answer_pop_eq_error_iff {o : Nat} {e : ScriptError} :
    n.answer? (.pop o) = some (.error e) ↔ n.depth = 0 ∧ e = .unbalancedBrace o := by
  rw [depth, List.length_eq_zero_iff]
  cases hblocks : n.blocks with
  | nil =>
    rw [answer?, apply_pop_error hblocks]
    simp [eq_comm]
  | cons b bs =>
    rw [answer?, apply_pop_ok hblocks]
    simp

theorem answer_finish_eq_error_iff {e : ScriptError} :
    n.answer? .finish = some (.error e) ↔
      ∃ b, n.blocks.getLast? = some b ∧ e = .unclosedBrace b.openedAt := by
  rw [answer?, apply, finish]
  cases n.blocks.getLast? with
  | none => simp [Except.map]
  | some b => simp [Except.map, eq_comm]

/-- An operation that is refused leaves the nesting as it is, and so does the question for the
end. -/
theorem apply_of_unchanged (h : op = .finish ∨ ∃ e, n.answer? op = some (.error e)) :
    ∃ a, n.apply op = some (a, n) := by
  rcases h with rfl | ⟨e, h⟩
  · exact ⟨_, rfl⟩
  cases op with
  | finish => exact ⟨_, rfl⟩
  | push k o =>
    obtain ⟨hdeep, hfits, -⟩ := answer_push_eq_error_iff.1 h
    exact ⟨_, apply_push_error hdeep hfits o⟩
  | pop o =>
    have hblocks := List.length_eq_zero_iff.1 (answer_pop_eq_error_iff.1 h).1
    exact ⟨_, apply_pop_error hblocks o⟩

/-! ### Runs that panic -/

theorem run_concat (n : Nesting) (ops : List Op) (op : Op) :
    n.run (ops ++ [op]) = (n.run ops).bind fun rs =>
      ((n.after ops).answer? op).map fun a => rs ++ [(a, n.after (ops ++ [op]))] := by
  rw [run_append, after_concat, answer?]
  cases happly : (n.after ops).apply op with
  | none => rw [run_cons_none happly]; rfl
  | some r => rw [run_cons_some happly, next_of_apply happly]; rfl

/-- **A run panics** exactly if one of its operations does. -/
theorem run_eq_none_iff (ops : List Op) : empty.run ops = none ↔
    ∃ t ∈ turns ops, t.op.isPush = true ∧ wordSize ≤ t.nesting.level + t.op.step := by
  induction ops using List.reverseRecOn with
  | nil => simp [run, turns, turnsFrom]
  | append_singleton ops op ih =>
    have hlast : (empty.after ops).answer? op = none ↔
        op.isPush = true ∧ wordSize ≤ (Turn.nesting ⟨ops, op⟩).level + op.step :=
      answer_eq_none_iff
    rw [run_concat, turns_concat]
    simp only [List.mem_append, List.mem_singleton, or_and_right, exists_or, exists_eq_left,
      ← ih, ← hlast]
    cases empty.run ops with
    | none => simp
    | some rs => simp

/-- **What operations come to**, done one after the other with no block open at first. -/
structure Bracketing (ops : List Op) : Prop where
  /-- The open blocks are those of the pushes that no pop has matched, the last one innermost. -/
  blocks : (empty.after ops).blocks = ((pending ops).map Turn.block).reverse
  depth : (empty.after ops).depth = (pending ops).length
  /-- The level is the sum of their steps. -/
  level : (empty.after ops).level = ((pending ops).map fun t => t.op.step).sum
  level_le : (empty.after ops).level ≤ maxLevel
  /-- A push panics exactly if its level does not fit a machine word, and nothing else does. -/
  panic (op : Op) : (empty.after ops).answer? op = none ↔
    op.isPush = true ∧ wordSize ≤ (empty.after ops).level + op.step
  /-- Any other push is refused, at its own offset, exactly if it would go beyond the limit. -/
  push_error (k o : Nat) (e : ScriptError) :
    (empty.after ops).answer? (.push k o) = some (.error e) ↔
      maxLevel < (empty.after ops).level + k ∧ (empty.after ops).level + k < wordSize ∧
        e = .nestingTooDeep o
  /-- It answers its level if it is granted. -/
  push_ok (k o : Nat) (l : Option Nat) : (empty.after ops).answer? (.push k o) = some (.ok l) ↔
    (empty.after ops).level + k ≤ maxLevel ∧ l = some ((empty.after ops).level + k)
  /-- A pop is refused, at its own offset, exactly if no block is open. -/
  pop_error (o : Nat) (e : ScriptError) : (empty.after ops).answer? (.pop o) = some (.error e) ↔
    (empty.after ops).depth = 0 ∧ e = .unbalancedBrace o
  /-- It answers the level that held before the push that it matches. -/
  pop_ok (t : Turn) (o : Nat) : (pending ops).getLast? = some t →
    (empty.after ops).answer? (.pop o) = some (.ok (some t.nesting.level))
  /-- The end is refused exactly if a block is open, at the offset of the first unmatched push. -/
  finish_error (e : ScriptError) : (empty.after ops).answer? .finish = some (.error e) ↔
    ∃ t, (pending ops).head? = some t ∧ e = .unclosedBrace t.op.openedAt
  /-- What is refused leaves no trace, and neither does the question for the end. -/
  unchanged (op : Op) (rest : List Op) :
    op = .finish ∨ (∃ e, (empty.after ops).answer? op = some (.error e)) →
      empty.after (ops ++ [op]) = empty.after ops ∧
      (empty.run (ops ++ op :: rest)).map (·.eraseIdx ops.length) = empty.run (ops ++ rest)
  /-- The whole run panics exactly if one of its operations does. -/
  run_panic : empty.run ops = none ↔
    ∃ t ∈ turns ops, t.op.isPush = true ∧ wordSize ≤ t.nesting.level + t.op.step
  /-- One more operation adds its own answer. -/
  run_concat (op : Op) : empty.run (ops ++ [op]) = (empty.run ops).bind fun rs =>
    ((empty.after ops).answer? op).map fun a => rs ++ [(a, empty.after (ops ++ [op]))]

/-- **Operations are brackets with a limit**, in every run: the open blocks are the pushes that no
pop has matched, and what is refused leaves no trace. Only a push whose level does not fit a machine
word is neither granted nor refused: it makes the program panic. -/
theorem bracketing (ops : List Op) : Bracketing ops where
  blocks := blocks_after ops
  depth := depth_after ops
  level := level_after rfl
  level_le := level_after_le ops
  panic _ := answer_eq_none_iff
  push_error _ _ _ := answer_push_eq_error_iff
  push_ok _ _ _ := answer_push_eq_ok_iff
  pop_error _ _ := answer_pop_eq_error_iff
  pop_ok t o ht := by
    obtain ⟨ts, hts⟩ := List.getLast?_eq_some_iff.1 ht
    rw [answer?, apply_pop_ok (blocks_of_pending hts)]
    rfl
  finish_error e := by
    rw [answer_finish_eq_error_iff, blocks_after, List.getLast?_reverse, List.head?_map]
    simp [Turn.block]
  unchanged op rest h := by
    obtain ⟨a, happly⟩ := apply_of_unchanged h
    exact ⟨by rw [after_concat, next_of_apply happly], run_eraseIdx happly rest⟩
  run_panic := run_eq_none_iff ops
  run_concat op := run_concat empty ops op

/-- After a push of one level, a push of one level less than a word can count is beyond the limit,
but it is not refused: the program panics. -/
theorem push_panics :
    (empty.after [.push 1 3]).level = 1 ∧ maxLevel < 1 + (wordSize - 1) ∧
      (empty.after [.push 1 3]).answer? (.push (wordSize - 1) 7) = none ∧
      empty.run [.push 1 3, .push (wordSize - 1) 7] = none := by
  decide

end Nesting

end Braceline
