import Braceline.CommandLine.Session
import Braceline.Toolbox.Host

/-!
# The program

Reads arguments, environment and settings file, and writes the answer. Programs that are not
standard commands are not started.
-/

namespace Braceline.CommandLine

/-- The variables that the program looks at. -/
def readEnvironment : IO Env := do
  let names := [Settings.fileVariable, Settings.homeVariable, Settings.interpreterVariable,
    Settings.delimiterVariable, "PATH"]
  let values ← names.mapM fun name => do return (← IO.getEnv name).map (name, ·)
  return ⟨values.filterMap id⟩

/-- The refusal that an error stands for. -/
def refusalOf (e : IO.Error) : SystemError :=
  match e with
  | .permissionDenied .. => .denied
  | .inappropriateType .. => .isDirectory
  | _ => .notFound

/-- The one file that settings may come from. -/
def readFiles (env : Env) : IO Files := do
  let path := (env.get? Settings.fileVariable).getD
    (Settings.homeFile ((env.get? Settings.homeVariable).getD ""))
  let content ← (IO.FS.readBinFile path).toBaseIO
  let found := match content with
    | .ok bytes => .ok bytes
    | .error e => .error (refusalOf e)
  return ⟨fun p => if p = path then found else .error .notFound,
    fun p => p = path && found.toOption.isSome⟩

end Braceline.CommandLine

open Braceline CommandLine

/-- Runs the program. -/
def main (args : List String) : IO UInt32 := do
  let env ← readEnvironment
  let files ← readFiles env
  let a := answer files env (Toolbox.host Toolbox.system env) args
  let out ← IO.getStdout
  out.write a.stdout
  out.flush
  (← IO.getStderr).putStr a.stderr
  return a.exitCode.toUInt32
