import Braceline.Nesting
import Braceline.Program
import Braceline.Segment
import Braceline.Text.WordChar

/-!
# Expanding a script

A segment becomes a line. One that ends at an opening brace is the header of a block and gets a
colon; if it ends in the word `EL`, it is the loop over the input lines instead. The first fault in
reading order is reported; at the end, a literal that is still open comes before a block that is.
-/

namespace Braceline

namespace Segment

/-- What stands before the word `EL` at the very end of a segment. The word is not part of a longer
one, and no blank follows it. -/
def beforeEachLine? (text : List Char) : Option (List Char) :=
  match text.reverse with
  | 'L' :: 'E' :: before => if before.head?.any Text.isWordChar then none else some before.reverse
  | _ => none

/-- A header with its colon. -/
def withColon (header : List Char) : List Char :=
  if header.getLast? = some ':' then header else header ++ [':']

end Segment

/-- What the segments read so far have made. The lines stand in reverse. -/
structure Expansion where
  nesting : Nesting
  /-- Has the loop over the input lines been opened? -/
  looped : Bool
  lines : List Line
  deriving DecidableEq, Repr

namespace Expansion

/-- Nothing has been read. -/
def start : Expansion := ⟨.empty, false, []⟩

/-- Adds a line. -/
def push (x : Expansion) (l : Line) : Expansion := { x with lines := l :: x.lines }

/-- Adds the statement that a text holds, if it is not blank. -/
def emit (x : Expansion) (text : List Char) : Expansion :=
  match Text.trim text with
  | [] => x
  | cs => x.push (.statement x.nesting.level (String.ofList cs))

/-- Opens a block `step` levels deeper, which is one or two. No open block is beyond the limit, so
the push does not panic. -/
def enter (x : Expansion) (step offset : Nat) : Except ScriptError Expansion :=
  (x.nesting.deepen step offset).map fun n => { x with nesting := n }

/-- Closes the innermost block. -/
def leave (x : Expansion) (offset : Nat) : Except ScriptError Expansion :=
  (x.nesting.pop offset).map fun n => { x with nesting := n }

/-- Opens the loop over the input lines, after the statement that stands before it. -/
def enterEachLine (x : Expansion) (before : List Char) (offset : Nat) :
    Except ScriptError Expansion :=
  if x.looped then .error (.repeatedEachLine offset)
  else
    let x := x.emit before
    { x.push (.eachLine x.nesting.level) with looped := true }.enter Line.eachLineDepth offset

/-- Opens a block under a header. -/
def enterBlock (x : Expansion) (text : List Char) (offset : Nat) : Except ScriptError Expansion :=
  match Text.trim text with
  | [] => .error (.missingBlockHeader offset)
  | header =>
    (x.push (.statement x.nesting.level (String.ofList (Segment.withColon header)))).enter 1 offset

/-- Reads one segment. -/
def step (x : Expansion) (s : Segment) : Except ScriptError Expansion :=
  match s.stop with
  | .openBrace offset =>
    match Segment.beforeEachLine? s.text with
    | some before => x.enterEachLine before offset
    | none => x.enterBlock s.text offset
  | .closeBrace offset => (x.emit s.text).leave offset
  | .semicolon | .lineBreak | .endOfScript => .ok (x.emit s.text)

/-- Reads segments in order, up to the first fault. -/
def steps (x : Expansion) (ss : List Segment) : Except ScriptError Expansion := ss.foldlM step x

end Expansion

/-- **Expands a script** that stands at offset 0. -/
def expandChars (cs : List Char) : Except ScriptError Program := do
  let readings := Scan.readings .start 0 cs
  let segments := Segment.ofMarks (readings.map Prod.fst)
  let x ← Expansion.start.steps segments
  (Scan.stateAfter .start readings).finish
  x.nesting.finish
  return ⟨x.lines.reverse, segments.any fun s => s.stop.isStructural⟩

/-- Expands the text of a script. -/
def expand (script : String) : Except ScriptError Program := expandChars script.toList

end Braceline
