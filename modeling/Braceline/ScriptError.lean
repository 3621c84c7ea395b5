import Braceline.Mode

/-!
# What can be wrong with a script

Every fault carries the byte offset that it is found at. All of them are found before anything
runs.
-/

namespace Braceline

/-- The deepest level a line may have: the interpreter compiles nothing nested further. -/
def maxLevel : Nat := 100

/-- A fault in the structure of a script. -/
inductive ScriptError where
  /-- A literal that begins at `offset` has no closing fence. -/
  | unterminatedLiteral (offset : Nat) (fence : Fence)
  /-- A closing brace with no open block. -/
  | unbalancedBrace (offset : Nat)
  /-- An opening brace whose block is never closed. -/
  | unclosedBrace (offset : Nat)
  /-- A block whose lines would be deeper than `maxLevel`. -/
  | nestingTooDeep (offset : Nat)
  /-- An opening brace with nothing before it in its segment. -/
  | missingBlockHeader (offset : Nat)
  /-- A second loop over the input lines. -/
  | repeatedEachLine (offset : Nat)
  deriving DecidableEq, Repr

namespace ScriptError

/-- The offset that the fault is reported at. -/
def offset : ScriptError → Nat
  | unterminatedLiteral o _ | unbalancedBrace o | unclosedBrace o | nestingTooDeep o
  | missingBlockHeader o | repeatedEachLine o => o

/-- The fault in words. -/
def message : ScriptError → String
  | unterminatedLiteral o f =>
    s!"unterminated {f.describe} literal starting at offset {o}"
  | unbalancedBrace o =>
    s!"unbalanced brace: `\x7d` at offset {o} has no matching `\x7b`"
  | unclosedBrace o => s!"unbalanced brace: `\x7b` at offset {o} is never closed"
  | nestingTooDeep o => s!"blocks nested deeper than {maxLevel} levels at offset {o}"
  | missingBlockHeader o => s!"`\x7b` at offset {o} has no block header before it"
  | repeatedEachLine o =>
    s!"second EL\x7b at offset {o}; only one per-line loop is allowed per script"

end ScriptError

end Braceline
