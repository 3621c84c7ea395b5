import Braceline.Toolbox.Shell.Builtin.Basic

/-!
# Commands on the names of commands

What a name leads to where a command may stand, and the commands of a shell that change it.
-/

namespace Braceline.Toolbox.Shell.Builtin

/-! ### Programs -/

/-- The path of a program that is looked up in directories. Why there is none is told by the last
file that is no program, if there is one. -/
def search (s : State) (name : String) : SystemError → List String → Except SystemError String
  | e, [] => .error e
  | e, d :: ds =>
    let path := inDirectory d name
    match entryAt s.files path with
    | .ok (.program _) => .ok path
    | .ok _ => search s name .denied ds
    | .error .notFound | .error .notDirectory => search s name e ds
    | .error e => search s name e ds

/-- Why a program cannot be run. -/
def notRun : SystemError → String
  | .notFound | .notDirectory => "not found"
  | e => e.reason

/-! ### Aliases -/

/-- How many rows the table of aliases has. -/
def aliasRows : Nat := 39

/-- An alias as it may be given, in a line. -/
def aliasLine (a : String × String) : String := s!"{a.1}={inQuotes a.2}\n"

/-- The command `alias`. -/
def makeAlias (s : State) (args : List String) : Deed :=
  let define := fun (r : State × Saying) (w : String) =>
    let (s, x) := r
    match w.toList with
    | c :: cs =>
      match named (String.ofList cs) with
      | (rest, some value) =>
        ({ s with aliases := putIn (String.ofList [c] ++ rest) value s.aliases }, x)
      | _ =>
        match s.aliases.lookup w with
        | some value => (s, { x with stdout := x.stdout ++ aliasLine (w, value) })
        | none => (s, ⟨1, x.stdout, x.stderr ++ s!"alias: {w} not found\n"⟩)
    | [] => (s, ⟨1, x.stdout, x.stderr ++ s!"alias: {w} not found\n"⟩)
  if args.isEmpty then
    say s "alias" (String.join ((byRow aliasRows s.aliases).map aliasLine))
  else
    let (s, x) := args.foldl define (s, silent 0)
    .done (reply s "alias" x)

/-- The command `unalias`. -/
def unalias (s : State) (args : List String) : Deed :=
  withOptions s "a" "" args fun os names =>
    if !os.isEmpty then .done ({ s with aliases := [] }.ended 0)
    else
      let drop := fun (s : State) (name : String) =>
        if (s.aliases.lookup name).isSome then
          { s with aliases := s.aliases.filter (·.1 != name) }
        else (s.write 2 s!"unalias: {name} not found\n").ended 1
      .done (names.foldl drop (s.ended 0))

/-- The command `command` without a command behind it. -/
def command (s : State) (args : List String) : Deed :=
  withOptions s "p" "" args fun _ _ => .done (s.ended 0)

end Braceline.Toolbox.Shell.Builtin
