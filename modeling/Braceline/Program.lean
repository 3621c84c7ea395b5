/-!
# Expanded programs

The lines that a script expands to, each with its level, and the text they render to at a given
indent width.
-/

namespace Braceline

/-- A line of an expanded program. The loop over the input lines stays one item until it is
rendered. -/
inductive Line where
  /-- A statement or a block header. -/
  | statement (level : Nat) (text : String)
  /-- The head of the loop over the input lines. -/
  | eachLine (level : Nat)
  deriving DecidableEq, Repr

namespace Line

/-- The number of levels that the loop over the input lines adds: it opens two blocks. -/
def eachLineDepth : Nat := 2

/-- The level of a line. -/
def level : Line → Nat
  | statement l _ | eachLine l => l

/-- Is it the head of the loop? -/
def isEachLine : Line → Bool
  | statement _ _ => false
  | eachLine _ => true

/-- A text indented by `level` steps of `width` spaces. -/
def indented (width level : Nat) (text : String) : String :=
  String.ofList (List.replicate (level * width) ' ') ++ text

/-- The physical lines of a line. The head of the loop binds the line number, the line with and
without its ends, its fields, and the fields as integers. -/
def render (width : Nat) : Line → List String
  | statement l text => [indented width l text]
  | eachLine l =>
    [indented width l "with fileinput.input() as _EL:",
     indented width (l + 1) "for (L, S) in enumerate(_EL):",
     indented width (l + eachLineDepth) "s = S.strip()",
     indented width (l + eachLineDepth) "F = s.split(DELIM)",
     indented width (l + eachLineDepth) "I = [toint(v) for v in F]"]

end Line

/-- What a script expands to. -/
structure Program where
  lines : List Line
  /-- Did a semicolon or a brace of the script count as structure? -/
  structural : Bool
  deriving DecidableEq, Repr

namespace Program

/-- A bare expression: one statement, and no structure. -/
def isExpression (p : Program) : Bool :=
  !p.structural &&
    match p.lines with
    | [.statement _ _] => true
    | _ => false

/-- Does the program loop over the input lines? -/
def hasEachLine (p : Program) : Bool := p.lines.any Line.isEachLine

/-- The physical lines, at `width` spaces a level. -/
def renderLines (p : Program) (width : Nat) : List String := p.lines.flatMap (Line.render width)

/-- The text of the program. -/
def render (p : Program) (width : Nat) : String := "\n".intercalate (p.renderLines width)

end Program

end Braceline
