import Braceline.Command
import Braceline.Expand
import Braceline.Loader
import Braceline.Settings.Sources

/-!
# Invocations

One use of the program: a script, its arguments, and what goes with them. It is expanded to a
listing, which is written out or run.
-/

namespace Braceline

/-- What a user asks for. -/
structure Invocation where
  script : String
  args : List String
  imports : List String
  /-- Lists of modules to import all public names of. -/
  wildcards : List String
  delimiter : Option String
  /-- Only show the listing. -/
  debug : Bool
  deriving DecidableEq, Repr

/-- Why an invocation fails. -/
inductive RunError where
  | script (error : ScriptError)
  | settings (error : SettingsError)
  | notStarted (program : String) (error : StartError)
  /-- The program that ran did not succeed, and has said why. -/
  | failed (code : Nat)
  | output (reason : String)

namespace RunError

/-- The error in words. -/
def message : RunError → String
  | script e => e.message
  | settings e => e.message
  | notStarted program e => s!"failed to start interpreter `{program}`: {e.message}"
  | failed code => s!"generated code failed with exit status {code}"
  | output reason => s!"cannot write output: {reason}"

end RunError

namespace Invocation

/-- The imports before the program: those of the settings first, and plain ones before
wildcards. -/
def headerImports (inv : Invocation) (s : Settings) : List Import :=
  (s.imports ++ inv.imports).map Import.plain ++
    (s.wildcards ++ inv.wildcards).flatMap Import.wildcards

/-- The listing for an invocation. -/
def generate (inv : Invocation) (s : Settings) : Except ScriptError Listing :=
  (expand inv.script).map fun p => .assemble (inv.headerImports s) p s.indentWidth

/-- The field delimiter: the invocation's, or else the settings'. -/
def effectiveDelimiter (inv : Invocation) (s : Settings) : Option String :=
  inv.delimiter.or s.delimiter

/-- The loader for a listing, unless the field delimiter is empty. -/
def loaderFor (inv : Invocation) (s : Settings) (l : Listing) : Except SettingsFault String := do
  let delimiter := inv.effectiveDelimiter s
  Settings.checkDelimiter delimiter
  return Loader.text ⟨l, inv.script, delimiter⟩

/-- The loader for an invocation. -/
def loader (inv : Invocation) (s : Settings) : Except RunError String :=
  match inv.generate s with
  | .error e => .error (.script e)
  | .ok l =>
    match inv.loaderFor s l with
    | .error f => .error (.settings (.invalid f))
    | .ok text => .ok text

/-- The command that runs a listing. -/
def commandFor (inv : Invocation) (s : Settings) (l : Listing) : Except SettingsFault Command := do
  let text ← inv.loaderFor s l
  let words ← s.interpreterWords
  return .interpret words text inv.args

end Invocation

end Braceline
