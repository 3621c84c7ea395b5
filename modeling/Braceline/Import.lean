import Braceline.Text.Blank
import Braceline.Text.Pieces

/-!
# Imports

The import lines that stand before a program. A plain import is written as it is given; a list of
wildcard imports is cut at its commas, and blank pieces are dropped.
-/

namespace Braceline

/-- An import line. -/
inductive Import where
  /-- All that is named, as modules. -/
  | plain (modules : String)
  /-- Every public name of one module. -/
  | wildcard (name : String)
  deriving DecidableEq, Repr

namespace Import

/-- The wildcard imports that a comma-separated list asks for. -/
def wildcards (modules : String) : List Import :=
  (Text.pieces ',' modules.toList).filterMap fun p =>
    match Text.trim p with
    | [] => none
    | cs => some (.wildcard (String.ofList cs))

/-- The line as it is written. -/
def line : Import → String
  | plain m => s!"import {m}"
  | wildcard m => s!"from {m} import *"

end Import

end Braceline
