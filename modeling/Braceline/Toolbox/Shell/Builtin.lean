import Braceline.Toolbox.Condition
import Braceline.Toolbox.Echo
import Braceline.Toolbox.Printf
import Braceline.Toolbox.Shell.Builtin.Names
import Braceline.Toolbox.Shell.Builtin.Places
import Braceline.Toolbox.Shell.Builtin.Processes
import Braceline.Toolbox.Shell.Builtin.Variables

/-!
# A shell's own commands by their names

Which command a name stands for, and the commands that steer the script.
-/

namespace Braceline.Toolbox.Shell.Builtin

/-- Leaves loops, or begins them again. -/
def loop (s : State) (args : List String) (flow : Nat → Flow) : Deed :=
  withNumber s 1 args fun n =>
    if n = 0 then illegal s (args.headD "")
    else if s.loops = 0 then .done (s.ended 0)
    else .flow (s.ended 0) (flow (min n s.loops))

/-- Ends the script. -/
def exit (s : State) (args : List String) : Deed :=
  withNumber s (s.ending.getD s.status) args fun n =>
    .flow (s.ended n) (.stop (.exited (n % 256)))

/-- The text of a file that is run as a script. A directory can be opened, though it has none. -/
def scriptAt (tree : FileTree) (path : String) : Except SystemError String :=
  match contentAt tree path with
  | .error .isDirectory => .ok ""
  | r => r

/-- The file that a name without a slash leads to where programs are looked up. -/
def sourceOf? (s : State) (name : String) : Option String :=
  ((path s).map (inDirectory · name)).find? fun path => s.files.isFile (Bytes.toText path)

/-- Runs a file as a script. -/
def source (s : State) (args : List String) : Deed :=
  withOptions s "" "" args fun _ ws =>
    match ws with
    | [] => .done (s.ended 0)
    | file :: _ =>
      match if file.toList.contains '/' then some file else sourceOf? s file with
      | none => .failed s s!"{file}: not found" 2
      | some path =>
        match scriptAt s.files path with
        | .ok text => .script s text
        | .error e => .failed s s!"cannot open {path}: {notOpened e}" 2

/-- Performs one of the shell's own commands. -/
def perform (s : State) (name : String) (args : List String) : Option Deed :=
  let own := fun (x : Saying) => some (.done (reply s name x))
  match name with
  | ":" | "true" => some (.done (s.ended 0))
  | "false" => some (.done (s.ended 1))
  | "echo" => own (Echo.inShell args)
  | "printf" => own (Printf.inShell s.place args)
  | "test" | "[" => own (Condition.inShell s.files s.place name args)
  | "pwd" => some (tellPlace s args)
  | "cd" | "chdir" => some (goTo s args)
  | "read" => some (read s args)
  | "getopts" => some (getopts s args)
  | "alias" => some (makeAlias s args)
  | "unalias" => some (unalias s args)
  | "command" => some (command s args)
  | "kill" => some (kill s args)
  | "umask" => some (umask s args)
  | "trap" => some (trap s args)
  | "local" => some (if s.shadows.isEmpty then .failed s "not in a function" 2 else shadow s args)
  | "exit" => some (exit s args)
  | "return" => some (withNumber s s.status args fun n => .flow (s.ended n) .back)
  | "break" => some (loop s args .leave)
  | "continue" => some (loop s args .again)
  | "shift" => some (shift s args)
  | "export" =>
    some (marking name Variable.exported (fun v => { v with exported := true }) s args)
  | "readonly" => some (marking name Variable.fixed (fun v => { v with fixed := true }) s args)
  | "unset" => some (unset s args)
  | "set" => some (setUp s args)
  | "eval" => some (.script s (" ".intercalate args))
  | "." => some (source s args)
  | "exec" => some (if args.isEmpty then .done (s.ended 0) else .become s args)
  | _ => none

end Braceline.Toolbox.Shell.Builtin
