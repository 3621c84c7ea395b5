/-!
# Words of a command line

A command line is words between spaces, tabs and line feeds. Single quotes keep what they enclose
as it is. Between double quotes a backslash escapes a dollar sign, a back quote, a double quote, a
backslash and a line feed, and stays before anything else. Outside quotes a backslash takes the
next character. An escaped line feed vanishes. A hash sign where a word could begin starts a
comment, up to the line feed.

* `splitFrom_single`: text between single quotes is taken as it is.
* `splitFrom_single_eq_none`: a single quote that is never closed leaves the text unreadable.
-/

namespace Braceline.Words

/-- The white space that separates words. -/
def isSeparator (c : Char) : Bool := c == ' ' || c == '\t' || c == '\n'

/-- What a backslash escapes between double quotes. -/
def isEscapable (c : Char) : Bool := c == '$' || c == '`' || c == '"' || c == '\\'

/-- Where a reader of a command line stands. The word read so far is in reverse. -/
inductive State where
  /-- Between words. -/
  | gap
  /-- In a comment. -/
  | comment
  /-- In a word, outside quotes. -/
  | bare (word : List Char)
  /-- In a word, after a backslash outside quotes. -/
  | escape (word : List Char)
  /-- Between single quotes. -/
  | single (word : List Char)
  /-- Between double quotes. -/
  | double (word : List Char)
  /-- Between double quotes, after a backslash. -/
  | doubleEscape (word : List Char)
  deriving DecidableEq, Repr

namespace State

/-- Reads a character of a word outside quotes that does not end the word. -/
def inWord (word : List Char) (c : Char) : State :=
  if c = '"' then double word
  else if c = '\'' then single word
  else if c = '\\' then escape word
  else bare (c :: word)

/-- Reads one character: the word that it ends, if any, and where the reader stands then. -/
def read : State → Char → Option (List Char) × State
  | gap, c =>
    if isSeparator c then (none, gap)
    else if c = '#' then (none, comment)
    else (none, inWord [] c)
  | comment, c => (none, if c = '\n' then gap else comment)
  | bare w, c => if isSeparator c then (some w.reverse, gap) else (none, inWord w c)
  | escape w, c => (none, bare (if c = '\n' then w else c :: w))
  | single w, c => (none, if c = '\'' then bare w else single (c :: w))
  | double w, c =>
    (none, if c = '"' then bare w else if c = '\\' then doubleEscape w else double (c :: w))
  | doubleEscape w, c =>
    (none,
      double (if isEscapable c then c :: w else if c = '\n' then w else c :: '\\' :: w))

/-- What the end of the text makes of the state: the last words, or nothing if a quote is open or
a backslash stands last. -/
def finish : State → Option (List (List Char))
  | gap | comment => some []
  | bare w => some [w.reverse]
  | escape _ | single _ | double _ | doubleEscape _ => none

end State

/-- The words of a text that is read from a given state on. -/
def splitFrom (s : State) : List Char → Option (List (List Char))
  | [] => s.finish
  | c :: cs =>
    match s.read c with
    | (some w, s') => (splitFrom s' cs).map (w :: ·)
    | (none, s') => splitFrom s' cs

/-- The words of a command line, unless a quote or a backslash is left open. -/
def split? (text : String) : Option (List String) :=
  (splitFrom .gap text.toList).map fun ws => ws.map String.ofList

/-- Text between single quotes is taken as it is. -/
theorem splitFrom_single {cs : List Char} (h : ∀ c ∈ cs, c ≠ '\'') (w rest : List Char) :
    splitFrom (.single w) (cs ++ '\'' :: rest) = splitFrom (.bare (cs.reverse ++ w)) rest := by
  induction cs generalizing w with
  | nil => simp [splitFrom, State.read]
  | cons c cs ih =>
    have hc : c ≠ '\'' := h c (by simp)
    simp [splitFrom, State.read, hc, ih fun x hx => h x (by simp [hx])]

/-- A single quote that is never closed leaves the text unreadable. -/
theorem splitFrom_single_eq_none {cs : List Char} (h : ∀ c ∈ cs, c ≠ '\'') (w : List Char) :
    splitFrom (.single w) cs = none := by
  induction cs generalizing w with
  | nil => rfl
  | cons c cs ih =>
    have hc : c ≠ '\'' := h c (by simp)
    simp [splitFrom, State.read, hc, ih fun x hx => h x (by simp [hx])]

end Braceline.Words
