import Braceline.ScriptError

/-!
# Open blocks

The blocks open at a point of a script, each with the level of the lines inside it. A block may be
opened only if its lines stay within `maxLevel`, and only an open block can be closed.

* `deepen_eq_ok_iff`, `deepen_eq_error_iff`: a block opens exactly when the level of its lines is
  within the limit.
* `push_eq_none_iff`: a push panics exactly when that level does not fit a machine word.
-/

namespace Braceline

/-- An open block: the level of its lines and the offset of its brace. -/
structure Block where
  level : Nat
  openedAt : Nat
  deriving DecidableEq, Repr

/-- The open blocks, innermost first. -/
structure Nesting where
  blocks : List Block
  deriving DecidableEq, Repr

namespace Nesting

/-- No block is open. -/
def empty : Nesting := ⟨[]⟩

/-- The level of a line at this point. -/
def level (n : Nesting) : Nat := (n.blocks.head?.map Block.level).getD 0

/-- The number of open blocks. -/
def depth (n : Nesting) : Nat := n.blocks.length

/-- The block whose lines are `step` levels deeper, if they stay within the limit. -/
def deepen (n : Nesting) (step offset : Nat) : Except ScriptError Nesting :=
  if n.level + step ≤ maxLevel then .ok ⟨⟨n.level + step, offset⟩ :: n.blocks⟩
  else .error (.nestingTooDeep offset)

/-- The number of levels that a machine word can tell apart. -/
def wordSize : Nat := 0x10000000000000000

/-- Opens a block whose lines are `step` levels deeper. The sum of levels is formed before it is
held against the limit: where it does not fit a machine word, the program panics, and there is no
answer. -/
def push (n : Nesting) (step offset : Nat) : Option (Except ScriptError Nesting) :=
  if n.level + step < wordSize then some (n.deepen step offset) else none

/-- Closes the innermost block. -/
def pop (n : Nesting) (offset : Nat) : Except ScriptError Nesting :=
  match n.blocks with
  | [] => .error (.unbalancedBrace offset)
  | _ :: rest => .ok ⟨rest⟩

/-- Succeeds when no block is open, and otherwise names the outermost. -/
def finish (n : Nesting) : Except ScriptError Unit :=
  match n.blocks.getLast? with
  | none => .ok ()
  | some b => .error (.unclosedBrace b.openedAt)

/-- Something to do to a nesting. -/
inductive Op where
  | push (step offset : Nat)
  | pop (offset : Nat)
  | finish
  deriving DecidableEq, Repr

/-- What an operation answers, a level or nothing, and the nesting that it leaves. One that fails
leaves the nesting as it is. -/
def settle (n : Nesting) :
    Except ScriptError Nesting → Except ScriptError (Option Nat) × Nesting
  | .ok n' => (.ok (some n'.level), n')
  | .error e => (.error e, n)

/-- One operation, unless the program panics at it. -/
def apply (n : Nesting) : Op → Option (Except ScriptError (Option Nat) × Nesting)
  | .push step offset => (n.push step offset).map n.settle
  | .pop offset => some (n.settle (n.pop offset))
  | .finish => some (n.finish.map fun _ => none, n)

/-- Operations one after the other: the answer of each, with the nesting after it. There are none
if the program panics at any of them. -/
def run (n : Nesting) : List Op → Option (List (Except ScriptError (Option Nat) × Nesting))
  | [] => some []
  | op :: ops => do
    let r ← n.apply op
    let rs ← run r.2 ops
    return r :: rs

@[simp]
theorem level_empty : empty.level = 0 := rfl

@[simp]
theorem level_cons (b : Block) (bs : List Block) : level ⟨b :: bs⟩ = b.level := rfl

/-- A block opens exactly when the level of its lines is within the limit. -/
theorem deepen_eq_ok_iff {n m : Nesting} {step offset : Nat} :
    n.deepen step offset = .ok m ↔
      n.level + step ≤ maxLevel ∧ m = ⟨⟨n.level + step, offset⟩ :: n.blocks⟩ := by
  unfold deepen
  split
  · simp_all [eq_comm]
  · simp only [reduceCtorEq, false_iff, not_and]
    omega

/-- A block is refused exactly when the level of its lines is beyond the limit. -/
theorem deepen_eq_error_iff {n : Nesting} {step offset : Nat} {e : ScriptError} :
    n.deepen step offset = .error e ↔ maxLevel < n.level + step ∧ e = .nestingTooDeep offset := by
  unfold deepen
  split
  · simp only [reduceCtorEq, false_iff, not_and]
    omega
  · simp_all [eq_comm]

/-- A sum of levels that is as large as a word makes the program panic. -/
theorem push_eq_none_iff {n : Nesting} {step offset : Nat} :
    n.push step offset = none ↔ wordSize ≤ n.level + step := by
  simp [push]

/-- Any other push opens its block or is refused. -/
theorem push_of_lt {n : Nesting} {step : Nat} (h : n.level + step < wordSize) (offset : Nat) :
    n.push step offset = some (n.deepen step offset) := if_pos h

end Nesting

end Braceline
