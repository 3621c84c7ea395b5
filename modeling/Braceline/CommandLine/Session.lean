import Braceline.CommandLine.Options
import Braceline.Run

/-!
# A run from the command line

What a process answers to its arguments: an exit status and what it writes.
-/

namespace Braceline.CommandLine

/-- The name that the program shows. -/
def programName : String := "pyone"

/-- The version that the program shows. -/
def version : String := "0.1.0"

/-- How the program is used. -/
def usageText : String := s!"Usage: {programName} [OPTIONS] <SCRIPT> [ARGS]..."

/-- What the options do. -/
def helpText : String := "\n".intercalate
  ["Expand and run brace-delimited Python one-liners", "", usageText, "", "Arguments:",
   "  <SCRIPT>   The one-line script",
   "  [ARGS]...  Arguments passed to the script as argv; also the EL\x7b\x7d input files", "",
   "Options:",
   "  -d             Print the expanded code and exit",
   "  -i <MODULES>   Add `import MODULES` before the script (repeatable)",
   "  -f <MODULES>   Add `from M import *` for each comma-separated module (repeatable)",
   "  -F <DELIM>     Field delimiter bound to DELIM (default: runs of whitespace)",
   "  -h, --help     Print help",
   "  -V, --version  Print version", ""]

/-- What comes of a command line. -/
inductive Answer where
  /-- No invocation is asked for. -/
  | stopped (s : Halt)
  /-- The settings cannot be had. -/
  | unset (error : SettingsError)
  /-- The invocation was run. -/
  | reported (r : Report)

namespace Answer

/-- The error that is told, if there is one. A program that failed has told its own. -/
def told? : Answer → Option RunError
  | stopped _ => none
  | unset e => some (.settings e)
  | reported r =>
    match r.result with
    | .ok _ | .error (.failed _) => none
    | .error e => some e

/-- The exit status of the process. -/
def exitCode : Answer → Nat
  | stopped .usage => 2
  | stopped _ => 0
  | unset _ => 1
  | reported r =>
    match r.result with
    | .ok _ => 0
    | .error (.failed code) => min 255 (max 1 code)
    | .error _ => 1

/-- What the process writes to standard output. -/
def stdout : Answer → ByteArray
  | stopped .usage | unset _ => .empty
  | stopped .help => helpText.toUTF8
  | stopped .version => s!"{programName} {version}\n".toUTF8
  | reported r => r.written ++ ((r.ending.map Ending.stdout).getD "").toUTF8

/-- What the process writes to standard error, its own line last. -/
def stderr (a : Answer) : String :=
  let own := match a.told? with
    | some e => s!"{programName}: {e.message}\n"
    | none => ""
  match a with
  | stopped .usage => s!"{usageText}\n"
  | stopped _ | unset _ => own
  | reported r => (r.ending.map Ending.stderr).getD "" ++ own

end Answer

/-- **Answers a command line.** -/
def answer (files : Files) (env : Env) (host : Host) (args : List String) : Answer :=
  match parse args with
  | .error s => .stopped s
  | .ok inv =>
    match Settings.load files env with
    | .error e => .unset e
    | .ok s => .reported (inv.run s host .endless)

end Braceline.CommandLine
