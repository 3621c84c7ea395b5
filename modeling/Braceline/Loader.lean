import Braceline.Listing
import Braceline.Text.Quoted

/-!
# The loader

The program that the interpreter is given: it sets up the names that scripts rely on, then runs
header and body of a listing in one namespace. It is a fixed text with slots. A slot takes a quoted
text or a bare word, and what is put into one slot is never looked at for others.
-/

namespace Braceline

namespace Loader

/-- A place of the loader's text that differs from run to run. -/
inductive Slot where
  | delimiter
  | script
  | header
  | body
  | name
  | mode
  deriving DecidableEq, Repr

namespace Slot

/-- The slots, in the order in which they are looked for. -/
def all : List Slot := [delimiter, script, header, body, name, mode]

/-- What stands for the slot in a template. -/
def mark : Slot → String
  | delimiter => "@DELIM@"
  | script => "@SCRIPT@"
  | header => "@HEADER@"
  | body => "@BODY@"
  | name => "@NAME@"
  | mode => "@MODE@"

/-- The slot whose mark a text begins with. -/
def at? : List Char → Option Slot
  | [] => none
  | c :: cs => if c = '@' then all.find? (·.mark.toList.isPrefixOf (c :: cs)) else none

end Slot

/-- The loader's lines, with marks for their slots. -/
def templateLines : List String :=
  ["import sys",
   "import fileinput",
   "",
   "",
   "def toint(x, v=0):",
   "    try:",
   "        return int(x)",
   "    except (TypeError, ValueError):",
   "        return v",
   "",
   "",
   "DELIM = @DELIM@",
   "sys.argv[0] = @SCRIPT@",
   "argv = sys.argv",
   "_ns = \x7b",
   "    '__name__': '__main__',",
   "    '__builtins__': __builtins__,",
   "    'sys': sys,",
   "    'fileinput': fileinput,",
   "    'toint': toint,",
   "    'DELIM': DELIM,",
   "    'argv': argv,",
   "\x7d",
   "exec(compile(@HEADER@, @NAME@, 'exec'), _ns)",
   "exec(compile(@BODY@, @NAME@, @MODE@), _ns)"]

/-- The loader's text, with marks for its slots. Each of its lines ends in a line break. -/
def template : List Char := templateLines.flatMap fun line => line.toList ++ ['\n']

/-- Fills the slots of a template that is read from its front. The next `skip` characters belong to
a mark whose value is written already. -/
def fillFrom (value : Slot → String) : Nat → List Char → List Char
  | _, [] => []
  | skip + 1, _ :: cs => fillFrom value skip cs
  | 0, c :: cs =>
    match Slot.at? (c :: cs) with
    | some s => (value s).toList ++ fillFrom value (s.mark.length - 1) cs
    | none => c :: fillFrom value 0 cs

/-- **Fills the slots of a template**, in one pass over it. -/
def fill (value : Slot → String) (cs : List Char) : List Char := fillFrom value 0 cs

/-- The name that the interpreter shows for the program's source. -/
def sourceName : String := "<script>"

/-- What fills the slots. -/
structure Values where
  listing : Listing
  script : String
  /-- The field delimiter; without one, fields stand between runs of blanks. -/
  delimiter : Option String
  deriving DecidableEq, Repr

namespace Values

/-- The text that a slot carries. The delimiter's may be missing. -/
def carried? (v : Values) : Slot → Option String
  | .delimiter => v.delimiter
  | .script => some v.script
  | .header => some v.listing.headerText
  | .body => some (v.listing.bodyText ++ "\n")
  | .name => some sourceName
  | .mode => some v.listing.kind.compileMode

/-- What is written into a slot: the carried text, quoted, or the word for no value. -/
def written (v : Values) (s : Slot) : String :=
  match v.carried? s with
  | some text => Text.Quoted.quote text
  | none => "None"

end Values

/-- **The loader for one run.** -/
def text (v : Values) : String := String.ofList (fill v.written template)

end Loader

end Braceline
