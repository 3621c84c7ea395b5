import Braceline.Toolbox.Shell.Redirecting
import Braceline.Toolbox.Shell.Signal

/-!
# A shell's own commands

What the commands that a shell does not start a program for have in common. Some of them ask for
more: that a text be run as a script, that a program take over, or that the script go on elsewhere.
-/

namespace Braceline.Toolbox.Shell

/-- What comes of one of the shell's own commands. -/
inductive Deed where
  | done (s : State)
  /-- It complains, and fails with a status. -/
  | failed (s : State) (reason : String) (status : Nat)
  | flow (s : State) (f : Flow)
  /-- A text is to be run as a script, for a command. -/
  | script (s : State) (text : String)
  /-- The words are to be run as a command in place of the shell. -/
  | become (s : State) (words : List String)

namespace Builtin

/-- What a command says, with a complaint if that cannot be written. -/
def reply (s : State) (name : String) (x : Saying) : State :=
  let s := s.write 2 x.stderr
  if x.stdout.isEmpty || s.sink 1 = .ready then (s.write 1 x.stdout).ended x.code
  else (s.complainFor name s!"{name}: I/O error").ended (x.code ||| 1)

/-- A command that writes a text. -/
def say (s : State) (name text : String) : Deed := .done (reply s name (said text))

/-- The largest number that the commands take. -/
def maxNumber : Int := 0x7FFFFFFF

/-- A number that a command is given. -/
def number? (word : String) : Option Nat :=
  match readInteger? (some 10) word.toList with
  | some (n, rest) =>
    if rest.all isSpaceByte ∧ 0 ≤ n ∧ n ≤ maxNumber then some n.toNat else none
  | none => none

/-- The complaint about a word that is no number. -/
def illegal (s : State) (word : String) : Deed := .failed s s!"Illegal number: {word}" 2

/-- What is done with a command's first argument as a number, which may be left out. -/
def withNumber (s : State) (other : Nat) (args : List String) (f : Nat → Deed) : Deed :=
  match args with
  | [] => f other
  | w :: _ =>
    match number? w with
    | some n => f n
    | none => illegal s w

/-- Reads the letters of an option word, of which those in `taking` take a word: what has been read,
and whether the last one takes the next word. -/
def letters (known taking : String) : List Char → Except String (List (Char × String) × Option Char)
  | [] => .ok ([], none)
  | c :: cs =>
    if taking.toList.contains c then
      if cs.isEmpty then .ok ([], some c) else .ok ([(c, String.ofList cs)], none)
    else if known.toList.contains c then
      (letters known taking cs).map fun (os, rest) => ((c, "") :: os, rest)
    else .error s!"Illegal option -{c}"

/-- Reads the options of a command: option letters with their words, and the words after them. -/
def options (known taking : String) :
    List String → Except String (List (Char × String) × List String)
  | [] => .ok ([], [])
  | [w] =>
    match w.toList with
    | ['-', '-'] => .ok ([], [])
    | '-' :: c :: cs =>
      match letters known taking (c :: cs) with
      | .error e => .error e
      | .ok (os, none) => .ok (os, [])
      | .ok (_, some c) => .error s!"No arg for -{c} option"
    | _ => .ok ([], [w])
  | w :: v :: ws =>
    match w.toList with
    | ['-', '-'] => .ok ([], v :: ws)
    | '-' :: c :: cs =>
      match letters known taking (c :: cs) with
      | .error e => .error e
      | .ok (os, none) => (options known taking (v :: ws)).map fun r => (os ++ r.1, r.2)
      | .ok (os, some c) => (options known taking ws).map fun r => (os ++ (c, v) :: r.1, r.2)
    | _ => .ok ([], w :: v :: ws)

/-- What is done with a command's options and its other words. -/
def withOptions (s : State) (known taking : String) (args : List String)
    (f : List (Char × String) → List String → Deed) : Deed :=
  match options known taking args with
  | .ok (os, ws) => f os ws
  | .error reason => .failed s reason 2

/-- The texts between single quotes in a text, each in quotes; the quotes in between are in double
ones. -/
def inQuotes (text : String) : String :=
  let rec go (quote : Bool) : List Char → List Char
    | [] => if quote then ['"'] else ['\'']
    | c :: cs =>
      if quote then
        if c = '\'' then c :: go true cs else '"' :: '\'' :: c :: go false cs
      else if c = '\'' then '\'' :: '"' :: c :: go true cs
      else c :: go false cs
  String.ofList ('\'' :: go false text.toList)

/-- The directories that programs are looked up in. -/
def path (s : State) : List String := directories ((s.get? "PATH").getD "")

/-- A name in a directory that a path lists. -/
def inDirectory (dir name : String) : String := if dir.isEmpty then name else s!"{dir}/{name}"

/-- The assignment that an argument is: a name, and perhaps a value. -/
def named (word : String) : String × Option String :=
  let cs := word.toList
  let name := String.ofList (cs.takeWhile (· != '='))
  match cs.dropWhile (· != '=') with
  | [] => (name, none)
  | _ :: value => (name, some (String.ofList value))

/-- Gives a variable a value, or tells why not. -/
def assign (s : State) (name value : String) : Except String State :=
  if !isName name.toList then .error s!"{name}: bad variable name"
  else if s.isFixed name then .error s!"{name}: is read only"
  else .ok (s.assign name value)

/-- The state after something that may be refused. -/
def orFailed (s : State) (r : Except String State) (f : State → Deed) : Deed :=
  match r with
  | .ok s => f s
  | .error reason => .failed s reason 2

end Builtin

end Braceline.Toolbox.Shell
