import Braceline.Import
import Braceline.Program

/-!
# Listings

A listing is a program's final text: import lines in front, the body after them. The two are kept
apart because the body is compiled in a way of its own.

* `Kind.ofProgram_eq_expression_iff`: a listing echoes a value exactly if the program is a bare
  expression.
-/

namespace Braceline

namespace Listing

/-- How the body is run. -/
inductive Kind where
  /-- Evaluated, and its value echoed. -/
  | expression
  /-- Run as statements. -/
  | script
  deriving DecidableEq, Repr

namespace Kind

/-- The name that the interpreter's compiler has for it. -/
def compileMode : Kind → String
  | expression => "single"
  | script => "exec"

/-- How a program is run. -/
def ofProgram (p : Program) : Kind := if p.isExpression then expression else script

theorem ofProgram_eq_expression_iff (p : Program) :
    ofProgram p = expression ↔ p.isExpression = true := by
  unfold ofProgram
  split <;> simp_all

end Kind

end Listing

/-- A program's final text, header and body apart. -/
structure Listing where
  header : List String
  body : List String
  kind : Listing.Kind
  deriving DecidableEq, Repr

namespace Listing

/-- Puts import lines before a program. -/
def assemble (imports : List Import) (p : Program) (width : Nat) : Listing :=
  ⟨imports.map Import.line, p.renderLines width, .ofProgram p⟩

/-- The lines of the header, joined. -/
def headerText (l : Listing) : String := "\n".intercalate l.header

/-- The lines of the body, joined. -/
def bodyText (l : Listing) : String := "\n".intercalate l.body

/-- All lines, joined. -/
def text (l : Listing) : String := "\n".intercalate (l.header ++ l.body)

end Listing

end Braceline
