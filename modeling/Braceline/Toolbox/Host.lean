import Braceline.Toolbox.Cat
import Braceline.Toolbox.Shell.Run
import Braceline.Toolbox.WithEnv

/-!
# A host with standard commands

A host that starts the standard commands and nothing else. A program is named by a path, or by a
name that is looked up in the directories that the environment lists.
-/

namespace Braceline.Toolbox

/-- The standard commands. -/
def commandNames : List String :=
  ["[", "cat", "dash", "echo", "env", "false", "printf", "sh", "test", "true"]

/-- A bare system with the standard commands. -/
def system : FileTree := .bare commandNames

/-- Runs a standard command in its surroundings. Commands that run others do so to a bounded
depth. -/
def call : Nat → Runner
  | 0 => fun around _ _ => (silent 126).outcome around "" 126
  | n + 1 => fun around command words =>
    let name := words.headD ""
    let args := words.tail
    let ends := fun (s : Saying) => s.outcome around name 1
    match command with
    | "true" => ends (silent 0)
    | "false" => ends (silent 1)
    | "echo" => ends (Echo.run false true args)
    | "printf" => ends (Printf.run name args)
    | "test" => ends (Condition.run around.tree name false args)
    | "[" => ends (Condition.run around.tree name true args)
    | "cat" => Cat.run around name args
    | "env" => WithEnv.run (call n) around name args
    | _ => Shell.sh (call n) around name args

/-- How many commands may run one inside the other. -/
def maxDepth : Nat := 32

/-- The environment with a path to look commands up on. -/
def withPath (env : Env) : Env :=
  if (env.get? "PATH").isSome then env else ⟨("PATH", usualPath) :: env.bindings⟩

/-- The environment as texts of bytes. -/
def inBytes (env : Env) : Env :=
  ⟨env.bindings.map fun v => (Bytes.ofText v.1, Bytes.ofText v.2)⟩

/-- The host with the standard commands, which sees a file tree and an environment. -/
def host (tree : FileTree) (env : Env) : Host where
  start c :=
    if c.hasNul then .error .nulByte
    else
      let env := inBytes (withPath env)
      let program := Bytes.ofText c.program
      match search tree ((env.get? "PATH").getD usualPath) program with
      | .ok command =>
        let around : Surroundings := ⟨tree, env, "", true, .ready, none, none, 0o022⟩
        let o := call maxDepth around command (program :: c.args.map Bytes.ofText)
        .ok ⟨o.status, Bytes.toText (o.text 1), Bytes.toText (o.text 2)⟩
      | .error e => .error (.refused e)

end Braceline.Toolbox
