import Braceline.Toolbox.Basic

/-!
# Patterns

A pattern is a row of characters, each quoted or not. Unquoted, a star stands for any text, a
question mark for any character, and brackets for one of the characters between them. A pattern may
name files: then a name that begins with a point is only found by one that does.
-/

namespace Braceline.Toolbox.Shell

/-- A character of a pattern, and whether it stands for itself only. -/
abbrev Glyph := Char × Bool

namespace Pattern

/-- The text of a pattern, if each character stands for itself. -/
def text (p : List Glyph) : List Char := p.map (·.1)

/-- The classes that may stand in brackets. -/
def classes : List (String × (Char → Bool)) :=
  [("alpha", Char.isAlpha), ("digit", Char.isDigit), ("alnum", Char.isAlphanum),
    ("upper", Char.isUpper), ("lower", Char.isLower), ("space", isSpaceByte),
    ("blank", fun c => c == ' ' || c == '\t'),
    ("punct", fun c => 0x21 ≤ c.toNat && c.toNat < 0x7F && !c.isAlphanum),
    ("cntrl", fun c => c.toNat < 0x20 || c.toNat == 0x7F),
    ("graph", fun c => 0x21 ≤ c.toNat && c.toNat < 0x7F),
    ("print", fun c => 0x20 ≤ c.toNat && c.toNat < 0x7F),
    ("xdigit", fun c => (digitValue? c).isSome)]

/-- The class at the head of what stands in brackets, and the rest. -/
def class? (p : List Glyph) : Option ((Char → Bool) × List Glyph) :=
  classes.findSome? fun (name, holds) =>
    let whole := s!"[:{name}:]".toList
    if whole.isPrefixOf (text p) then some (holds, p.drop whole.length) else none

/-- The number of a byte in the order of ranges, in which the second half of bytes comes first. -/
def rank (c : Char) : Int := if c.toNat < 128 then c.toNat else (c.toNat : Int) - 256

/-- Does a bracket, after its opening mark, take a character? Gives the rest of the pattern, too,
unless the bracket is never closed. The first argument bounds the number of steps. -/
def bracket (c : Char) : Nat → Bool → List Glyph → Option (Bool × List Glyph)
  | 0, _, _ | _, _, [] => none
  | n + 1, first, (x, q) :: p =>
    if x = ']' ∧ q = false ∧ first = false then some (false, p)
    else
      let found := fun (hit : Bool) (r : List Glyph) =>
        (bracket c n false r).map fun (b, r) => (hit || b, r)
      match if x = '[' ∧ q = false then class? ((x, q) :: p) else none with
      | some (holds, r) => found (holds c) r
      | none =>
        match p with
        | ('-', false) :: (y, qy) :: r =>
          if y = ']' ∧ qy = false then found (x == c) p
          else found (rank x ≤ rank c && rank c ≤ rank y) r
        | _ => found (x == c) p

/-- Does a pattern cover a text? The first argument bounds the number of steps. -/
def covers : Nat → List Glyph → List Char → Bool
  | 0, _, _ => false
  | _, [], cs => cs.isEmpty
  | n + 1, (x, q) :: p, cs =>
    if q then
      match cs with
      | c :: cs => x == c && covers n p cs
      | [] => false
    else if x = '*' then
      covers n p cs ||
        (match cs with
        | _ :: cs => covers n ((x, q) :: p) cs
        | [] => false)
    else
      match cs with
      | [] => false
      | c :: cs =>
        if x = '?' then covers n p cs
        else if x = '[' then
          let (inverted, body) := match p with
            | ('!', false) :: p => (true, p)
            | p => (false, p)
          match bracket c (p.length + 1) true body with
          | some (hit, rest) => (hit != inverted) && covers n rest cs
          | none => x == c && covers n p cs
        else x == c && covers n p cs

/-- Does a pattern cover a text? -/
def fits (p : List Glyph) (cs : List Char) : Bool := covers (p.length + cs.length + 1) p cs

/-- The text up to the first zero byte, which is all that a pattern is told of. -/
def toZero (cs : List Char) : List Char := cs.takeWhile (· != '\x00')

/-- How many characters at the front of a text a pattern covers, the fewest or the most. -/
def frontSize? (longest : Bool) (p : List Glyph) (cs : List Char) : Option Nat :=
  let hits := fun n => fits p (toZero (cs.take n))
  if longest then (List.range (cs.length + 1)).reverse.find? hits
  else (List.range ((toZero cs).length + 1)).find? hits

/-- How many characters a text is cut to when a pattern covers the rest, the most or the fewest. -/
def backSize? (longest : Bool) (p : List Glyph) (cs : List Char) : Option Nat :=
  let hits := fun n => fits p (toZero (cs.drop n))
  if longest then (List.range ((toZero cs).length + 1)).find? hits
  else (List.range (cs.length + 1)).reverse.find? hits

/-- Does a pattern stand for more than one text? -/
def isWild (p : List Glyph) : Bool :=
  p.any fun (c, q) => !q && (c == '*' || c == '?' || c == '[')

/-- The parts of a pattern between slashes. -/
def parts : List Glyph → List (List Glyph)
  | [] => [[]]
  | (c, q) :: p =>
    if c = '/' then [] :: parts p
    else
      match parts p with
      | [] => [[(c, q)]]
      | first :: others => ((c, q) :: first) :: others

/-- The names in a directory that a pattern covers. -/
def names (tree : FileTree) (place : List String) (p : List Glyph) : List String :=
  let hidden := (text p).head? == some '.'
  ((tree.namesIn place).map Bytes.ofText ++ if hidden then [".", ".."] else []).filter fun n =>
    fits p n.toList && (n.startsWith "." == hidden)

/-- The paths that continue a path by parts of a pattern and lead somewhere. -/
def paths (tree : FileTree) (path : String) : List (List Glyph) → List String
  | [] => [path]
  | [p] =>
    if isWild p then
      match placeAt tree (if path.isEmpty then "." else path) with
      | .ok place => (names tree place p).map (path ++ ·)
      | .error _ => []
    else
      let whole := path ++ String.ofList (text p)
      if (entryAt tree whole).toOption.isSome then [whole] else []
  | p :: ps =>
    if isWild p then
      match placeAt tree (if path.isEmpty then "." else path) with
      | .ok place => (names tree place p).flatMap fun n => paths tree (path ++ n ++ "/") ps
      | .error _ => []
    else paths tree (path ++ String.ofList (text p) ++ "/") ps

/-- The paths that a pattern covers, in order. -/
def files (tree : FileTree) (p : List Glyph) : List String :=
  if isWild p then (paths tree "" (parts p)).mergeSort else []

end Pattern

end Braceline.Toolbox.Shell
