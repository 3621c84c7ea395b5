import Braceline.Invocation

/-!
# Options of the command line

Options stand before the script, the script's arguments after it. Letters of one word may be
combined; a value stands right after its letter, after an equals sign, or in the next word. From
the first argument of the script on, and after a lone `--`, nothing is an option any more.

* `readArgs_escape`: a lone `--` ends the options.
-/

namespace Braceline.CommandLine

/-- An option with a value. -/
inductive Valued where
  | imports
  | wildcards
  | delimiter
  deriving DecidableEq, Repr

/-- What a letter after a hyphen stands for. -/
inductive Letter where
  | debug
  | help
  | version
  | valued (o : Valued)
  deriving DecidableEq, Repr

/-- The letter that a character is, if it is one. -/
def Letter.ofChar? (c : Char) : Option Letter :=
  match c with
  | 'd' => some debug
  | 'h' => some help
  | 'V' => some version
  | 'i' => some (valued .imports)
  | 'f' => some (valued .wildcards)
  | 'F' => some (valued .delimiter)
  | _ => none

/-- Why the command line does not lead to an invocation. -/
inductive Halt where
  | usage
  | help
  | version
  deriving DecidableEq, Repr

/-- What the words read so far say. -/
structure Draft where
  debug : Bool
  imports : List String
  wildcards : List String
  delimiter : Option String
  script : Option String
  deriving DecidableEq, Repr

namespace Draft

/-- Nothing is said. -/
def empty : Draft := ⟨false, [], [], none, none⟩

/-- The debug option, which may be given once. -/
def setDebug (d : Draft) : Except Halt Draft :=
  if d.debug then .error .usage else .ok { d with debug := true }

/-- A value for an option. Only imports may be given again. -/
def give (d : Draft) (o : Valued) (value : String) : Except Halt Draft :=
  match o with
  | .imports => .ok { d with imports := d.imports ++ [value] }
  | .wildcards => .ok { d with wildcards := d.wildcards ++ [value] }
  | .delimiter =>
    if d.delimiter.isSome then .error .usage else .ok { d with delimiter := some value }

/-- The invocation of a script with its arguments. -/
def finish (d : Draft) (script : String) (args : List String) : Invocation :=
  ⟨script, args, d.imports, d.wildcards, d.delimiter, d.debug⟩

end Draft

/-- What a word looks like. -/
inductive Shape where
  /-- A lone `--`. -/
  | escape
  /-- Two hyphens and a name, perhaps with a value after an equals sign. -/
  | long (name : List Char) (value : Bool)
  /-- A hyphen and letters. -/
  | cluster (letters : List Char)
  | plain
  deriving DecidableEq, Repr

/-- The shape of a word. A lone hyphen is plain. -/
def Shape.ofWord (word : String) : Shape :=
  match word.toList with
  | ['-', '-'] => escape
  | '-' :: '-' :: name => long (name.takeWhile (· != '=')) (name.contains '=')
  | '-' :: c :: cs => cluster (c :: cs)
  | _ => plain

/-- Reads the letters of a word. An option whose value must be in the next word is handed on. -/
def readCluster (d : Draft) : List Char → Except Halt (Draft × Option Valued)
  | [] => .ok (d, none)
  | c :: cs =>
    match Letter.ofChar? c with
    | none => .error .usage
    | some .help => .error .help
    | some .version => .error .version
    | some .debug =>
      match d.setDebug with
      | .ok d => readCluster d cs
      | .error e => .error e
    | some (.valued o) =>
      match cs with
      | [] => .ok (d, some o)
      | '=' :: value => (d.give o (String.ofList value)).map (·, none)
      | value => (d.give o (String.ofList value)).map (·, none)

/-- Reads words without looking for options: the script, if it has not been read, and its
arguments. -/
def verbatim (d : Draft) (words : List String) : Except Halt Invocation :=
  match d.script, words with
  | some script, args => .ok (d.finish script args)
  | none, script :: args => .ok (d.finish script args)
  | none, [] => .error .usage

/-- What to do with a word. -/
inductive Reading where
  /-- It stands for itself: a value that is awaited, the script, or its first argument. -/
  | itself
  /-- It ends the options. -/
  | ends
  | letters (cs : List Char)
  | stop (s : Halt)
  deriving DecidableEq, Repr

/-- What to do with a word. Once the script has been read, a word with a hyphen stands for itself
unless every letter, or its name, is known. -/
def Draft.reading (d : Draft) (word : String) : Reading :=
  match Shape.ofWord word with
  | .escape => .ends
  | .plain => .itself
  | .long name value =>
    if name = ['h', 'e', 'l', 'p'] then .stop (if value then .usage else .help)
    else if name = ['v', 'e', 'r', 's', 'i', 'o', 'n'] then
      .stop (if value then .usage else .version)
    else if d.script.isSome then .itself
    else .stop .usage
  | .cluster cs =>
    if d.script.isSome && cs.any (fun c => (Letter.ofChar? c).isNone) then .itself else .letters cs

/-- Reads the words of a command line. `awaiting` is an option whose value must be the next word. -/
def readArgs (d : Draft) (awaiting : Option Valued) : List String → Except Halt Invocation
  | [] =>
    match awaiting, d.script with
    | none, some script => .ok (d.finish script [])
    | _, _ => .error .usage
  | w :: ws =>
    match d.reading w, awaiting with
    | .itself, some o =>
      match d.give o w with
      | .ok d => readArgs d none ws
      | .error e => .error e
    | .itself, none =>
      match d.script with
      | none => readArgs { d with script := some w } none ws
      | some script => .ok (d.finish script (w :: ws))
    | _, some _ => .error .usage
    | .ends, none => verbatim d ws
    | .letters cs, none =>
      match readCluster d cs with
      | .ok (d, awaiting) => readArgs d awaiting ws
      | .error e => .error e
    | .stop s, none => .error s

/-- **The invocation that a command line asks for.** -/
def parse (args : List String) : Except Halt Invocation := readArgs .empty none args

/-- A lone `--` ends the options. -/
theorem readArgs_escape (d : Draft) (ws : List String) :
    readArgs d none ("--" :: ws) = verbatim d ws := by
  have : d.reading "--" = .ends := by
    unfold Draft.reading Shape.ofWord
    rfl
  simp [readArgs, this]

end Braceline.CommandLine
