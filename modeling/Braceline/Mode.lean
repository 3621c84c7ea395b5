/-!
# Quotes and modes

A literal stands between two fences. A fence is one quote or three equal ones in a row. At each
point of a script the scan is in one of three modes: in code, in a literal, or in a comment.
-/

namespace Braceline

/-- The character a fence is made of. -/
inductive Quote where
  | single
  | double
  deriving DecidableEq, Repr

namespace Quote

/-- The quote as it is written. -/
def char : Quote → Char
  | single => '\''
  | double => '"'

/-- The quote that a character is, if it is one. -/
def ofChar? (c : Char) : Option Quote :=
  if c = '\'' then some single else if c = '"' then some double else none

theorem ofChar?_char (q : Quote) : ofChar? q.char = some q := by cases q <;> rfl

/-- A character reads as `q` exactly when it is the quote that `q` writes. -/
theorem ofChar?_eq_some_iff {c : Char} {q : Quote} : ofChar? c = some q ↔ c = q.char := by
  constructor
  · intro h
    unfold ofChar? at h
    split at h
    · next hc => cases h; exact hc
    · split at h
      · next hc => cases h; exact hc
      · cases h
  · rintro rfl; exact ofChar?_char q

end Quote

/-- What a literal begins and ends with: a quote, once or three times. -/
structure Fence where
  quote : Quote
  triple : Bool
  deriving DecidableEq, Repr

namespace Fence

/-- The adjective that an error message gives a literal. -/
def describe : Fence → String
  | ⟨.single, false⟩ => "single-quoted"
  | ⟨.double, false⟩ => "double-quoted"
  | ⟨.single, true⟩ => "triple single-quoted"
  | ⟨.double, true⟩ => "triple double-quoted"

end Fence

/-- What the scan stands in. -/
inductive Mode where
  | code
  | literal (fence : Fence)
  | comment
  deriving DecidableEq, Repr

namespace Mode

/-- The mode in words. -/
def describe : Mode → String
  | code => "code"
  | literal f => f.describe
  | comment => "comment"

/-- The quote that would end what the scan stands in. -/
def quote? : Mode → Option Quote
  | literal f => some f.quote
  | _ => none

/-- In a literal with three quotes on each side? -/
def isTriple : Mode → Bool
  | literal f => f.triple
  | _ => false

/-- In a literal? -/
def isLiteral : Mode → Bool
  | literal _ => true
  | _ => false

end Mode

end Braceline
