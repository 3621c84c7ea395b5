import Braceline.Environment
import Braceline.Text.Blank
import Braceline.Words

/-!
# Settings

What a user may set once for all scripts, and when a setting is of use.
-/

namespace Braceline

/-- The user's settings. -/
structure Settings where
  /-- The command line that starts the interpreter. -/
  interpreter : String
  /-- Spaces per level. -/
  indentWidth : Nat
  /-- The field delimiter; without one, fields stand between runs of blanks. -/
  delimiter : Option String
  /-- What is imported before anything that an invocation asks for. -/
  imports : List String
  /-- Lists of modules to import all public names of. -/
  wildcards : List String
  deriving DecidableEq, Repr

/-- Why settings cannot be used. -/
inductive SettingsFault where
  | indentWidth (width : Nat)
  | emptyDelimiter
  /-- The interpreter's command line has an open quote or no words. -/
  | interpreter (command : String)
  deriving DecidableEq, Repr

namespace SettingsFault

/-- The fault in words. -/
def message : SettingsFault → String
  | indentWidth w => s!"indent_width must be between 1 and 8, got {w}"
  | emptyDelimiter => "field delimiter must not be empty"
  | interpreter c => s!"cannot parse interpreter command `{c}`"

end SettingsFault

namespace Settings

/-- The settings of a user who sets nothing. -/
def default : Settings := ⟨"python3", 4, none, [], []⟩

/-- Accepts every delimiter but an empty one, which nothing can be split at. -/
def checkDelimiter : Option String → Except SettingsFault Unit
  | some "" => .error .emptyDelimiter
  | _ => .ok ()

/-- The words of the interpreter's command line. There is at least one. -/
def interpreterWords (s : Settings) : Except SettingsFault (List String) :=
  match Words.split? s.interpreter with
  | none | some [] => .error (.interpreter s.interpreter)
  | some ws => .ok ws

/-- Accepts an indent width from 1 to 8. -/
def checkIndentWidth (s : Settings) : Except SettingsFault Unit :=
  if 1 ≤ s.indentWidth ∧ s.indentWidth ≤ 8 then .ok () else .error (.indentWidth s.indentWidth)

/-- Checks width, delimiter and interpreter, in this order. -/
def validate (s : Settings) : Except SettingsFault Unit := do
  s.checkIndentWidth
  checkDelimiter s.delimiter
  discard s.interpreterWords

/-- The variable that names the interpreter. A blank value counts as none. -/
def interpreterVariable : String := "PYONE_PYTHON"

/-- The variable that holds the field delimiter. An empty value counts. -/
def delimiterVariable : String := "PYONE_DELIM"

/-- Settings overridden by the environment. -/
def override (s : Settings) (env : Env) : Settings :=
  let interpreter :=
    ((env.get? interpreterVariable).filter fun v => !v.toList.all Text.isBlank).getD s.interpreter
  { s with interpreter, delimiter := (env.get? delimiterVariable).or s.delimiter }

end Settings

end Braceline
