import Braceline.Toolbox.Shell.Channel
import Braceline.Toolbox.Shell.Parser

/-!
# The state of a running script

What a script knows and has done. A part of it belongs to one process, so that a subshell works on
a copy of it; what all processes see is kept apart.
-/

namespace Braceline.Toolbox.Shell

/-- A variable. -/
structure Variable where
  value : Option String
  exported : Bool
  fixed : Bool
  /-- It keeps its place and its marks when it is taken away. -/
  lasting : Bool
  deriving DecidableEq, Repr

/-- Where the reading of options from arguments stands: at a word, and after so many characters of
the word before it. -/
structure OptionPlace where
  word : Nat
  offset : Option Nat
  deriving DecidableEq, Repr

namespace OptionPlace

/-- The first argument. -/
def first : OptionPlace := ⟨1, none⟩

end OptionPlace

/-- What a variable was before it belonged to a function, or the options. -/
inductive Shadow where
  | variable (name : String) (old : Option Variable)
  | options (old : List Char)

/-- What belongs to one process, and what a subshell begins with. -/
structure Process where
  /-- Variables, in the order in which they came up. -/
  bindings : List (String × Variable)
  functions : List (String × Tree)
  aliases : List (String × String)
  /-- What the script is called by. -/
  name : String
  args : List String
  optionPlace : OptionPlace
  status : Nat
  /-- Which channel each stream leads to. -/
  streams : List (Nat × Nat)
  /-- The options that are switched on, as letters. -/
  options : List Char
  /-- What is done on a signal, by its number, and at the end, which has the number zero. -/
  traps : List (Nat × String)
  /-- The status that the process ends with unless another one is given, while it does what is
  planned for a signal or the end. -/
  ending : Option Nat
  /-- The line that complaints name. -/
  line : Nat
  /-- The command that complaints name, with a colon, if a text is run as a script for one. -/
  context : String
  /-- The permissions that new files do not get. -/
  mask : Nat
  /-- The working directory as it was gone to, and the place that it is. -/
  directory : String
  working : List String
  /-- How many loops and functions the script is in. -/
  loops : Nat
  calls : Nat
  /-- How many processes there are between this one and the shell itself. -/
  depth : Nat
  /-- The status of the last command that was put in since a command began. -/
  substituted : Option Nat
  /-- What the variables that belong to functions were before, the innermost function first. -/
  shadows : List (List Shadow)
  documents : List (Nat × Word)
  nextDocument : Nat

/-- What all processes see. -/
structure World where
  tree : FileTree
  channels : Array Channel
  /-- What was written to the shell's own streams, the last first. -/
  written : List (Nat × String)
  /-- The signals that the shell itself has been sent and has not seen. -/
  signals : List Nat

/-- What a running script knows and has done. -/
structure State extends Process, World

/-- How a script goes on after a command. -/
inductive Flow where
  | next
  | leave (loops : Nat)
  | again (loops : Nat)
  | back
  | stop (status : Status)
  deriving DecidableEq, Repr

/-- The number that stands for the shell's own process. -/
def processId : Nat := 4242

/-- A list by the row of a table that each name has its place in. The first character counts for
sixteen more. -/
def byRow {α : Type} (rows : Nat) (xs : List (String × α)) : List (String × α) :=
  let row := fun (name : String) =>
    let total := name.toList.foldl (fun n c => n + c.toNat) 0
    ((name.toList.head?.elim 0 Char.toNat) * 16 + total) % rows
  let keyed := xs.map fun x => (row x.1, x)
  (keyed.mergeSort fun a b => a.1 ≤ b.1).map (·.2)

/-- Puts a value under a name, in its place if there is one. -/
def putIn {α : Type} (name : String) (v : α) (xs : List (String × α)) : List (String × α) :=
  if xs.any (·.1 == name) then xs.map fun x => if x.1 == name then (name, v) else x
  else xs ++ [(name, v)]

/-- The number that a text begins with. -/
def leadingNumber (text : String) : Nat :=
  (readDigits 10 text.length 0 (text.toList.dropWhile isSpaceByte)).1

namespace State

/-! ### Variables -/

/-- The value of a variable, if it has one. -/
def get? (s : State) (name : String) : Option String :=
  (s.bindings.lookup name).bind Variable.value

/-- A variable that has not been there. -/
def fresh (s : State) : Variable := ⟨none, s.options.contains 'a', false, false⟩

/-- Changes a variable. -/
def put (s : State) (name : String) (v : Variable) : State :=
  { s with bindings := putIn name v s.bindings }

/-- Takes note that a variable has been changed. -/
def noted (s : State) (name : String) : State :=
  match name with
  | "OPTIND" =>
    { s with optionPlace := ⟨max 1 (leadingNumber ((s.get? name).getD "")), none⟩ }
  | _ => s

/-- Gives a variable a value. -/
def assign (s : State) (name value : String) : State :=
  let old := (s.bindings.lookup name).getD s.fresh
  let exported := old.exported || s.options.contains 'a'
  (s.put name { old with value := some value, exported := exported }).noted name

/-- Takes a variable away. -/
def withdraw (s : State) (name : String) : State :=
  match s.bindings.lookup name with
  | none => s
  | some v =>
    if v.lasting then (s.put name { v with value := none }).noted name
    else { s with bindings := s.bindings.filter (·.1 != name) }

/-- Can a variable not be changed? -/
def isFixed (s : State) (name : String) : Bool :=
  (s.bindings.lookup name).any Variable.fixed

/-- How many rows the table of variables has. -/
def variableRows : Nat := 39

/-- The variables that commands are given. -/
def exports (s : State) : Env :=
  ⟨(byRow variableRows s.bindings).filterMap fun v =>
    match v.2 with
    | ⟨some value, true, _, _⟩ => some (v.1, value)
    | _ => none⟩

/-- The characters that fields are split at, apart from any choice. -/
def usualSeparators : String := " \t\n"

/-- The variables that a shell has of its own. -/
def ownVariables : List (String × Variable) :=
  [("OPTIND", some "1"), ("PS4", some "+ "), ("PS2", some "> "), ("PS1", some "# "),
    ("PATH", some usualPath), ("MAILPATH", none), ("MAIL", none),
    ("IFS", some usualSeparators)].map
      fun (name, value) => (name, ⟨value, false, false, true⟩)

/-! ### Files and streams -/

/-- The files, seen from the working directory. -/
def files (s : State) : FileTree := { s.tree with working := s.working }

/-- The channel that a stream leads to. -/
def channel? (s : State) (stream : Nat) : Option Channel :=
  (s.streams.lookup stream).bind fun i => s.channels[i]?

/-- Can a stream be written to? -/
def sink (s : State) (stream : Nat) : Sink := ((s.channel? stream).map Channel.sink).getD .closed

/-- Makes a stream lead to a channel. -/
def point (s : State) (stream channel : Nat) : State :=
  { s with streams := (stream, channel) :: s.streams.filter (·.1 != stream) }

/-- Makes a stream lead to a new channel. -/
def lead (s : State) (stream : Nat) (c : Channel) : State :=
  let n := s.channels.size
  { s with channels := s.channels.push c }.point stream n

/-- Closes a stream. -/
def close (s : State) (stream : Nat) : State :=
  { s with streams := s.streams.filter (·.1 != stream) }

/-- Some streams as they have been before, and the others as they are. -/
def returning (s before : State) (streams : List Nat) : State :=
  { s with
    streams := before.streams.filter (streams.contains ·.1) ++
      s.streams.filter (!streams.contains ·.1) }

/-- Changes the channel that a stream leads to. -/
def onChannel (s : State) (stream : Nat) (f : Channel → Channel) : State :=
  match s.streams.lookup stream with
  | some i => { s with channels := s.channels.modify i f }
  | none => s

/-- Writes to a stream. What cannot be written is lost. -/
def write (s : State) (stream : Nat) (text : String) : State :=
  if text.isEmpty then s
  else
    match s.channel? stream with
    | some (.out n) => { s with written := (n, text) :: s.written }
    | some (.kept _ _) =>
      s.onChannel stream fun c =>
        match c with
        | .kept before limited => .kept (before ++ text) limited
        | c => c
    | some (.file place offset reads true appends) =>
      let new := Bytes.toByteArray text
      let old := Channel.content s.tree place
      let start := if appends then old.size else offset
      let content := if start = old.size then old ++ new else Channel.overwrite old new start
      let s := { s with tree := s.tree.put place (.file content) }
      s.onChannel stream fun _ => .file place (start + new.size) reads true appends
    | _ => s

/-- Has more been written to the output than anyone is waiting for? -/
def isFlooding (s : State) : Bool := (s.channel? 1).any Channel.isFlooded

/-- Reads a line of the input, without the line feed at its end: the line, and whether it had
one. -/
def readLine (s : State) : List Char × Bool × State :=
  match s.channel? 0 with
  | some c =>
    let (l, whole, c) := c.readLine s.tree
    (l, whole, s.onChannel 0 fun _ => c)
  | none => ([], false, s)

/-! ### Complaints -/

/-- What stands before a complaint of one of the shell's own commands. -/
def place (s : State) : String := s!"{s.name}: {s.line}: "

/-- Complains for one of the shell's own commands. -/
def complainFor (s : State) (command text : String) : State :=
  s.write 2 s!"{s.place}{command}: {text}\n"

/-- Complains. -/
def complain (s : State) (text : String) : State :=
  s.write 2 s!"{s.place}{s.context}{text}\n"

/-- Ends a command. -/
def ended (s : State) (status : Nat) : State := { s with status := status }

/-! ### Processes -/

/-- What commands run in. -/
def around (s : State) : Surroundings :=
  let input := (s.channel? 0).filter Channel.isReadable
  let source := input.bind Channel.file?
  let target := ((s.channel? 1).bind Channel.file?).map (·.1)
  ⟨s.files, s.exports, (input.map (·.rest s.tree)).getD "", input.isSome, s.sink 1, source, target,
    s.mask⟩

/-- Takes in what a command wrote and left. -/
def absorb (s : State) (o : Outcome) : State :=
  let s := { s with tree := { o.tree with working := s.tree.working } }
  let s := s.onChannel 0 (·.leave s.tree o.input)
  o.written.foldl (fun s w => s.write w.1 w.2) s

/-- The state at the start of a script. -/
def start (around : Surroundings) (options : List Char) (name : String) (args : List String) :
    State :=
  let given := around.env.bindings.filter fun v => isName v.1.toList
  let bindings := given.foldl (fun bs v =>
    let old := (bs.lookup v.1).getD ⟨none, true, false, false⟩
    putIn v.1 { old with value := some v.2, exported := true } bs) ownVariables
  let reset := fun (name value : String) (bs : List (String × Variable)) =>
    let old := (bs.lookup name).getD ⟨none, false, false, false⟩
    putIn name { old with value := some value } bs
  let bindings := reset "PPID" "1" (reset "OPTIND" "1" (reset "IFS" usualSeparators bindings))
  let physical := Bytes.ofText ("/" ++ "/".intercalate around.tree.working)
  let directory := match around.env.get? "PWD" with
    | some d =>
      if d.startsWith "/" && (placeAt around.tree d).toOption == some around.tree.working then d
      else physical
    | none => physical
  let old := (bindings.lookup "PWD").getD ⟨none, true, false, false⟩
  let bindings := putIn "PWD" { old with value := some directory, exported := true } bindings
  let output := match around.out with
    | .ready => [(1, 1)]
    | .closed => []
    | .full => [(1, 3)]
  { bindings, functions := [], aliases := [], name, args
    optionPlace := .first
    status := 0
    streams := (if around.reads then [(0, 0)] else []) ++ output ++ [(2, 2)]
    options
    traps := []
    ending := none
    line := 0
    context := ""
    mask := around.mask
    directory
    working := around.tree.working
    loops := 0
    calls := 0
    depth := 0
    substituted := none
    shadows := []
    documents := []
    nextDocument := 0
    tree := around.tree
    channels := #[.text around.input.toList, .out 1, .out 2, .full]
    written := []
    signals := [] }

/-- The state inside a subshell. -/
def inner (s : State) : State :=
  { s with
    traps := s.traps.filter (·.2.isEmpty)
    ending := none
    depth := s.depth + 1 }

/-- The state after a subshell, which changes only what all processes see. -/
def outer (s t : State) : State := { s with toWorld := t.toWorld }

end State

end Braceline.Toolbox.Shell
