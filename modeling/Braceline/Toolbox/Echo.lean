import Braceline.Toolbox.Basic

/-!
# The command `echo`

Writes its arguments with a space between them, and a line feed unless it is suppressed. As a
command of its own it leaves escapes alone until told otherwise; inside a shell it always resolves
them.
-/

namespace Braceline.Toolbox.Echo

/-- The escapes that the command resolves. -/
def escapes : Escapes := ⟨[('e', '\x1b')], true, true, true, true⟩

/-- The escapes that a shell's own command resolves. -/
def shellEscapes : Escapes := ⟨[('e', '\x1b')], true, true, false, true⟩

/-- Writes words whose escapes have been resolved. -/
def written (line : Bool) (text : List Char × Bool) : Saying :=
  said (String.ofList text.1 ++ if line && !text.2 then "\n" else "")

/-- A letter that may stand in an option word. -/
def isFlag (c : Char) : Bool := c == 'n' || c == 'e' || c == 'E'

/-- The letters of an option word. -/
def flags? (word : String) : Option (List Char) :=
  match word.toList with
  | '-' :: c :: cs => if (c :: cs).all isFlag then some (c :: cs) else none
  | _ => none

/-- Whether escapes are resolved, after an option letter. -/
def resolveAfter (resolve : Bool) (flag : Char) : Bool :=
  if flag = 'e' then true else if flag = 'E' then false else resolve

/-- The text that words make. -/
def text (resolve : Bool) (words : List String) : List Char × Bool :=
  if resolve then escapes.resolveWords words else ((" ".intercalate words).toList, false)

/-- The command with some options read: option letters are read up to the first other word. -/
def run (resolve line : Bool) : List String → Saying
  | [] => written line ([], false)
  | w :: ws =>
    match flags? w with
    | some fs => run (fs.foldl resolveAfter resolve) (line && !fs.contains 'n') ws
    | none => written line (text resolve (w :: ws))

/-- A shell's own command, whose one option is `-n`. -/
def inShell : List String → Saying
  | "-n" :: ws => written false (shellEscapes.resolveWords ws)
  | ws => written true (shellEscapes.resolveWords ws)

end Braceline.Toolbox.Echo
