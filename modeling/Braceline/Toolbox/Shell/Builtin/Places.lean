import Braceline.Toolbox.Shell.Builtin.Basic

/-!
# Going to directories

A shell knows its working directory as it has been gone to: a step up takes back the last name of
the path, even where that stands for another place.
-/

namespace Braceline.Toolbox.Shell.Builtin

/-- The names of a path, in reverse, after some more steps. -/
def climb (names : List String) : List String → List String
  | [] => names
  | n :: ns =>
    if n = "" ∨ n = "." then climb names ns
    else if n = ".." then climb names.tail ns
    else climb (n :: names) ns

/-- The path that a path leads to from a directory. Two slashes at the front stay, if there are no
more. -/
def pathFrom (directory path : String) : String :=
  let whole := if path.startsWith "/" then path else s!"{directory}/{path}"
  let front := match whole.toList with
    | '/' :: '/' :: '/' :: _ => "/"
    | '/' :: '/' :: _ => "//"
    | _ => "/"
  let front := if path.startsWith "/" || directory.startsWith "//" then front else "/"
  front ++ "/".intercalate (climb [] (whole.splitOn "/")).reverse

/-- The options `L` and `P`, of which the last one counts: is the place to be told as it is? -/
def isPhysical (os : List (Char × String)) : Bool := (os.getLast?.map (·.1)) == some 'P'

/-- The path of a place. -/
def pathOf (place : List String) : String := Bytes.ofText ("/" ++ "/".intercalate place)

/-- Goes to a directory. -/
def enter (s : State) (physical : Bool) (path : String) : Option State :=
  let target := if physical then path else pathFrom s.directory path
  match placeAt s.files target with
  | .error _ => none
  | .ok place =>
    match s.tree.at? place with
    | some .directory =>
      let directory := if physical then pathOf place else target
      let s := s.assign "OLDPWD" s.directory
      let s := { s with
        working := place
        directory := directory }
      let s := s.assign "PWD" directory
      let share := fun (s : State) (name : String) =>
        match s.bindings.lookup name with
        | some v => s.put name { v with exported := true }
        | none => s
      some (share (share s "OLDPWD") "PWD")
    | _ => none

/-- The command `cd`. -/
def goTo (s : State) (args : List String) : Deed :=
  withOptions s "LP" "" args fun os ws =>
    let physical := isPhysical os
    let (given, tells) := match ws.head? with
      | none => ((s.get? "HOME").getD "", false)
      | some "-" => ((s.get? "OLDPWD").getD "", true)
      | some w => (w, false)
    let path := if given.isEmpty then "." else given
    match enter s physical path with
    | some s => say s "cd" (if tells then s.directory ++ "\n" else "")
    | none => .failed s s!"can't cd to {path}" 2

/-- The command `pwd`. -/
def tellPlace (s : State) (args : List String) : Deed :=
  withOptions s "LP" "" args fun os _ =>
    say s "pwd" ((if isPhysical os then pathOf s.working else s.directory) ++ "\n")

end Braceline.Toolbox.Shell.Builtin
