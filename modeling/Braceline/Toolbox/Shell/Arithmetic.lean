import Braceline.Toolbox.Shell.State

/-!
# Sums

Whole numbers of 64 bits with the operators of a shell's sums. A part that does not count is read
but changes nothing.
-/

namespace Braceline.Toolbox.Shell

namespace Arithmetic

/-- What a sum is made of. -/
inductive Lexeme where
  | number (n : Int)
  | variable (name : String)
  | mark (text : String)
  | bad
  deriving DecidableEq, Repr

/-- The marks, longest first. -/
def marks : List String :=
  ["<<=", ">>=", "&&", "||", "<<", ">>", "<=", ">=", "==", "!=", "*=", "/=", "%=", "+=", "-=",
    "&=", "^=", "|=", "=", "<", ">", "+", "-", "*", "/", "%", "&", "|", "^", "!", "~", "?", ":",
    "(", ")"]

/-- The lexemes of a sum. The first argument bounds the number of steps. -/
def lexemes : Nat → List Char → List Lexeme
  | 0, _ | _, [] => []
  | n + 1, c :: cs =>
    if isSpaceByte c then lexemes n cs
    else if c.isDigit then
      match readInteger? none (c :: cs) with
      | some (v, rest) => .number (min v maxInteger) :: lexemes n rest
      | none => [.bad]
    else if isNameStart c then
      .variable (String.ofList ((c :: cs).takeWhile isNameChar)) ::
        lexemes n ((c :: cs).dropWhile isNameChar)
    else
      match marks.find? fun m => m.toList.isPrefixOf (c :: cs) with
      | some m => .mark m :: lexemes n ((c :: cs).drop m.length)
      | none => [.bad]

/-- How tightly an operator between two numbers binds. -/
def binding? (mark : String) : Option Nat :=
  [("*", 9), ("/", 9), ("%", 9), ("+", 8), ("-", 8), ("<<", 7), (">>", 7), ("<", 6), ("<=", 6),
    (">", 6), (">=", 6), ("==", 5), ("!=", 5), ("&", 4), ("^", 3), ("|", 2)].lookup mark

/-- A number of 64 bits. -/
def wrap (n : Int) : Int := n.bmod 0x10000000000000000

/-- One for what holds. -/
def truth (b : Bool) : Int := if b then 1 else 0

/-- An operator applied to numbers, unless it divides by zero. -/
def operate? (mark : String) (a b : Int) : Option Int :=
  let bits := fun (f : Nat → Nat → Nat) =>
    some (wrap (f (a % 0x10000000000000000).toNat (b % 0x10000000000000000).toNat))
  match mark with
  | "*" => some (wrap (a * b))
  | "/" => if b = 0 then none else some (wrap (a.tdiv b))
  | "%" => if b = 0 then none else some (a.tmod b)
  | "+" => some (wrap (a + b))
  | "-" => some (wrap (a - b))
  | "<<" => some (wrap (a * Nat.pow 2 (b % 64).toNat))
  | ">>" => some (a / Nat.pow 2 (b % 64).toNat)
  | "<" => some (truth (a < b))
  | "<=" => some (truth (a ≤ b))
  | ">" => some (truth (b < a))
  | ">=" => some (truth (b ≤ a))
  | "==" => some (truth (a == b))
  | "!=" => some (truth (a != b))
  | "&" => bits (· &&& ·)
  | "^" => bits (· ^^^ ·)
  | "|" => bits (· ||| ·)
  | _ => none

/-- Where the reading of a sum stands. -/
structure Reader where
  ahead : List Lexeme
  state : State

/-- Reads a sum. -/
abbrev Read := StateT Reader (Except String)

/-- The complaint about a sum. -/
def fault {α : Type} (text : List Char) (reason : String) : Read α :=
  throw s!"arithmetic expression: {reason}: \"{String.ofList text}\""

/-- The next lexeme, which stays. -/
def peek : Read (Option Lexeme) := do return (← get).ahead.head?

/-- Passes over the next lexeme. -/
def skip : Read Unit := modify fun r => { r with ahead := r.ahead.tail }

/-- The number that a text holds, which may be empty. -/
def number? (text : String) : Option Int :=
  match readInteger? none text.toList with
  | none => if text.toList.all isSpaceByte then some 0 else none
  | some (n, rest) =>
    if rest.all isSpaceByte ∧ minInteger ≤ n ∧ n ≤ maxInteger then some n else none

/-- The number that a variable holds. -/
def look (name : String) : Read Int := do
  let value := ((← get).state.get? name).getD ""
  match number? value with
  | some n => return n
  | none => throw s!"Illegal number: {value}"

/-- Gives a variable a number, if it counts. -/
def store (counts : Bool) (name : String) (n : Int) : Read Unit := do
  if counts then
    let r ← get
    if r.state.isFixed name then throw s!"{name}: is read only"
    else set { r with state := r.state.assign name (toString n) }

/-- The operators that change a variable, each with what it applies. -/
def assignments : List (String × Option String) :=
  [("=", none), ("*=", some "*"), ("/=", some "/"), ("%=", some "%"), ("+=", some "+"),
    ("-=", some "-"), ("<<=", some "<<"), (">>=", some ">>"), ("&=", some "&"),
    ("^=", some "^"), ("|=", some "|")]

/-- An operator applied to numbers, if it counts. -/
def operate (text : List Char) (counts : Bool) (mark : String) (a b : Int) : Read Int :=
  match operate? mark a b with
  | some n => return n
  | none => if counts then fault text "division by zero" else return 0

mutual

/-- Reads an assignment or a sum. All readers of sums count down the same bound on steps. -/
def readAssignment (text : List Char) : Nat → Bool → Read Int
  | 0, _ => fault text "too long"
  | n + 1, counts => do
    match (← get).ahead with
    | .variable name :: .mark m :: _ =>
      match assignments.lookup m with
      | some op =>
        skip
        skip
        let right ← readAssignment text n counts
        let value ← match op with
          | none => pure right
          | some op => operate text counts op (← look name) right
        store counts name value
        return value
      | none => readChoice text n counts
    | _ => readChoice text n counts

/-- Reads a choice between two sums. -/
def readChoice (text : List Char) : Nat → Bool → Read Int
  | 0, _ => fault text "too long"
  | n + 1, counts => do
    let test ← readEither text n counts
    if (← peek) = some (.mark "?") then
      skip
      let yes ← readAssignment text n (counts && test != 0)
      if (← peek) ≠ some (.mark ":") then fault text "expecting ':'"
      else
        skip
        let no ← readChoice text n (counts && test == 0)
        return if test != 0 then yes else no
    else return test

/-- Reads sums one of which has to hold. -/
def readEither (text : List Char) : Nat → Bool → Read Int
  | 0, _ => fault text "too long"
  | n + 1, counts => do
    let a ← readBoth text n counts
    if (← peek) = some (.mark "||") then
      skip
      let b ← readEither text n (counts && a == 0)
      return truth (a != 0 || b != 0)
    else return a

/-- Reads sums all of which have to hold. -/
def readBoth (text : List Char) : Nat → Bool → Read Int
  | 0, _ => fault text "too long"
  | n + 1, counts => do
    let a ← readPrimary text n counts
    let a ← readOperators text n counts 0 a
    if (← peek) = some (.mark "&&") then
      skip
      let b ← readBoth text n (counts && a != 0)
      return truth (a != 0 && b != 0)
    else return a

/-- Reads the operators behind a number that bind at least so tightly. -/
def readOperators (text : List Char) : Nat → Bool → Nat → Int → Read Int
  | 0, _, _, _ => fault text "too long"
  | n + 1, counts, least, a => do
    match ← peek with
    | some (.mark m) =>
      match binding? m with
      | some p =>
        if p < least then return a
        else
          skip
          let b ← readPrimary text n counts
          let b ← readOperators text n counts (p + 1) b
          let c ← operate text counts m a b
          readOperators text n counts least c
      | none => return a
    | _ => return a

/-- Reads a number, a variable, or a sum in parentheses. -/
def readPrimary (text : List Char) : Nat → Bool → Read Int
  | 0, _ => fault text "too long"
  | n + 1, counts => do
    let l ← peek
    match l with
    | some (.number v) =>
      skip
      return v
    | some (.variable name) =>
      skip
      if counts then look name else return 0
    | some (.mark "(") =>
      skip
      let v ← readAssignment text n counts
      if (← peek) ≠ some (.mark ")") then fault text "expecting ')'"
      else
        skip
        return v
    | some (.mark "-") =>
      skip
      return wrap (-(← readPrimary text n counts))
    | some (.mark "+") =>
      skip
      readPrimary text n counts
    | some (.mark "!") =>
      skip
      return truth ((← readPrimary text n counts) == 0)
    | some (.mark "~") =>
      skip
      return -(← readPrimary text n counts) - 1
    | _ => fault text "expecting primary"

end

/-- The value of a sum, and the state that it leaves. -/
def value (s : State) (text : List Char) : Except String (Int × State) := do
  let ls := lexemes (text.length + 1) text
  let whole : Read Int := do
    let v ← readAssignment text (20 * ls.length + 20) true
    if (← get).ahead.isEmpty then return v else fault text "expecting EOF"
  let (v, r) ← whole.run ⟨ls, s⟩
  return (v, r.state)

end Arithmetic

end Braceline.Toolbox.Shell
