import Braceline.Scan
import Braceline.Text.Blank

/-!
# Segments

Live semicolons, braces and line breaks cut a script into segments. A live backslash right before
a line break (a line feed, or a carriage return and a line feed, live) joins the two lines instead:
the spaces and tabs around it, itself and the break are read as one space. Any other backslash is
text.
-/

namespace Braceline

/-- What ends a segment. -/
inductive Stop where
  | openBrace (offset : Nat)
  | closeBrace (offset : Nat)
  | semicolon
  | lineBreak
  | endOfScript
  deriving DecidableEq, Repr

namespace Stop

/-- Is the script's structure written with it? Line breaks and the end are not. -/
def isStructural : Stop → Bool
  | openBrace _ | closeBrace _ | semicolon => true
  | lineBreak | endOfScript => false

end Stop

/-- A stretch of a script, blanks and inert characters included, with what ends it. -/
structure Segment where
  text : List Char
  stop : Stop
  deriving DecidableEq, Repr

namespace Segment

/-- How the text read so far ends, as far as a line continuation is concerned. -/
inductive Tail where
  /-- In nothing that matters. -/
  | plain
  /-- In a live backslash. -/
  | slash
  /-- In a live backslash and a live carriage return. -/
  | slashReturn
  /-- In the space that a continuation left. -/
  | joined
  deriving DecidableEq, Repr

/-- A segment that is being read. Its text is in reverse. -/
structure Draft where
  text : List Char
  tail : Tail
  deriving DecidableEq, Repr

namespace Draft

/-- Nothing has been read. -/
def empty : Draft := ⟨[], .plain⟩

/-- The draft with `c` at its end. -/
def push (d : Draft) (c : Char) (tail : Tail) : Draft := ⟨c :: d.text, tail⟩

/-- Takes back the last `n` characters, which belong to a continuation, and the spaces and tabs
before them, and puts one space in their place. -/
def join (d : Draft) (n : Nat) : Draft :=
  ⟨' ' :: (d.text.drop n).dropWhile Text.isSpaceOrTab, .joined⟩

/-- Reads a live character: it goes into the draft or ends the segment. -/
def readLive (d : Draft) (offset : Nat) (c : Char) : Draft ⊕ Stop :=
  if c = '{' then .inr (.openBrace offset)
  else if c = '}' then .inr (.closeBrace offset)
  else if c = ';' then .inr .semicolon
  else if c = '\n' then
    match d.tail with
    | .slash => .inl (d.join 1)
    | .slashReturn => .inl (d.join 2)
    | _ => .inr .lineBreak
  else if c = '\\' then .inl (d.push c .slash)
  else if c = '\r' ∧ d.tail = .slash then .inl (d.push c .slashReturn)
  else if Text.isSpaceOrTab c ∧ d.tail = .joined then .inl d
  else .inl (d.push c .plain)

/-- Reads a character. An inert one is text, whatever it is. -/
def read (d : Draft) (m : Mark) : Draft ⊕ Stop :=
  if m.live then d.readLive m.offset m.char else .inl (d.push m.char .plain)

/-- The segment that `stop` makes of the draft. -/
def close (d : Draft) (stop : Stop) : Segment := ⟨d.text.reverse, stop⟩

end Draft

/-- The segments of the marks that follow a draft. -/
def ofMarksFrom (d : Draft) : List Mark → List Segment
  | [] => [d.close .endOfScript]
  | m :: ms =>
    match d.read m with
    | .inl d' => ofMarksFrom d' ms
    | .inr stop => d.close stop :: ofMarksFrom .empty ms

/-- The segments of a script. -/
def ofMarks (ms : List Mark) : List Segment := ofMarksFrom .empty ms

end Segment

end Braceline
