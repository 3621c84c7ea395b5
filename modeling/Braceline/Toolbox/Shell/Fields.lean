import Braceline.Toolbox.Shell.Pattern

/-!
# Fields

An expanded word is a row of spans, some of which are split into fields. White space around fields
is dropped, and any other separator ends one field. A zero byte ends a field everywhere.
-/

namespace Braceline.Toolbox.Shell

/-- A character of an expanded word, which stands for itself if `escaped`, or a quote mark. -/
inductive Item where
  | char (c : Char) (escaped : Bool)
  | mark
  deriving DecidableEq, Repr

namespace Item

/-- The characters of items. -/
def text (items : List Item) : List Char :=
  items.filterMap fun i =>
    match i with
    | .char c _ => some c
    | .mark => none

/-- The pattern that items make. A backslash that has not been quoted quotes the next character, if
there is one, unless a quote mark is between them. -/
def pattern : List Item → List Glyph
  | [] => []
  | .mark :: is => pattern is
  | .char '\\' false :: .char c _ :: is => (c, true) :: pattern is
  | .char '\\' false :: .mark :: .char c true :: is => ('\\', true) :: (c, false) :: pattern is
  | .char '\\' false :: .mark :: .char c false :: is => (c, true) :: pattern is
  | .char '\\' false :: is => ('\\', true) :: pattern is
  | .char c q :: is => (c, q) :: pattern is

end Item

/-- A stretch of an expanded word. -/
inductive Span where
  | kept (items : List Item)
  /-- It is split, at zero bytes only if `byZero`. -/
  | split (byZero : Bool) (items : List Item)

namespace Span

/-- The items of a span. -/
def items : Span → List Item
  | kept is | split _ is => is

/-- The items of spans. -/
def all (ss : List Span) : List Item := ss.flatMap items

end Span

/-- Where the splitting of spans stands: the fields that have been found and the items of the one
that is being read, all in reverse. -/
structure Splitting where
  done : List (List Item)
  current : List Item
  /-- How many items of the field count, in case that nothing follows but white space. -/
  counted : Option (List Item)
  /-- White space has ended the last field. -/
  blank : Bool
  /-- The last span was split at zero bytes only. -/
  byZero : Bool
  /-- How many more fields there may be, if that matters. -/
  more : Option Nat

namespace Splitting

/-- Adds an item to the field that is being read. -/
def add (s : Splitting) (i : Item) : Splitting := { s with current := i :: s.current }

/-- Reads an item that may separate fields. -/
def read (separators : List Char) (afterZero : Bool) (s : Splitting) (i : Item) : Splitting :=
  let c? := match i with
    | .char c _ => some c
    | .mark => none
  let separates := c?.any fun c => c == '\x00' || separators.contains c
  let isSpace := separates && c?.any fun c => "\x00 \t\n".toList.contains c
  if s.more = some 0 then
    if isSpace then { s with counted := s.counted.orElse fun _ => some s.current }.add i
    else
      let counted := if separates && s.blank then s.counted else none
      { s with counted := counted, blank := false }.add i
  else if s.blank then
    let s := { s with current := [] }
    if isSpace then s
    else
      let s := { s with blank := false }
      bif separates then s else s.add i
  else bif separates then
    let blank := if afterZero || s.byZero then s.blank else isSpace
    if s.current.isEmpty && blank then s
    else
      let s := { s with blank := blank }
      match s.more with
      | some 1 => { s with counted := some s.current, more := some 0 }.add i
      | more =>
        { s with
          done := s.current.reverse :: s.done
          current := []
          more := more.map (· - 1) }
  else { s with blank := false }.add i

/-- Reads a span. -/
def span (separators : List Char) (s : Splitting) : Span → Splitting
  | .kept is => is.foldl add s
  | .split byZero is =>
    let afterZero := s.byZero
    let separators := if byZero then [] else separators
    is.foldl (read separators afterZero) { s with byZero := byZero, blank := false }

end Splitting

/-- The fields of spans, which are no more than `most`, if that is given. -/
def fields (separators : List Char) (most : Option Nat) (ss : List Span) : List (List Item) :=
  let s := ss.foldl (Splitting.span separators) ⟨[], [], none, false, false, most⟩
  let last := if s.byZero then s.current else s.counted.getD s.current
  (if s.byZero || !last.isEmpty then last.reverse :: s.done else s.done).reverse

end Braceline.Toolbox.Shell
