import Braceline.Toolbox.Basic

/-!
# The command `env`

Changes the variables and then runs another command in them, or lists them if there is none.
-/

namespace Braceline.Toolbox.WithEnv

/-- What options have asked for. -/
structure Plan where
  /-- No variable is kept. -/
  clear : Bool
  unset : List String
  /-- The list of variables has a zero byte at the ends of its lines. -/
  listNul : Bool
  directory : Option String

namespace Plan

/-- The plan before any options. -/
def none : Plan := ⟨false, [], false, .none⟩

end Plan

/-- An option. -/
inductive Choice where
  | clear
  | listNul
  | unset
  | change
  deriving DecidableEq

namespace Choice

/-- Does an option go with a word? -/
def takesWord : Choice → Bool
  | clear | listNul => false
  | unset | change => true

/-- The option of a letter. -/
def ofLetter? (c : Char) : Option Choice :=
  [('i', clear), ('0', listNul), ('u', unset), ('C', change)].lookup c

/-- The options with long names. -/
def longNames : List (String × Choice) :=
  [("ignore-environment", clear), ("null", listNul), ("unset", unset), ("chdir", change)]

/-- The options that a long name stands for, which may be cut short. -/
def named (name : String) : List (String × Choice) :=
  match longNames.filter fun n => n.1 == name with
  | [] => longNames.filter fun n => n.1.startsWith name
  | ns => ns

end Choice

/-- How the command fails before it runs another one. -/
def failed (name text : String) : Saying := complained 125 s!"{name}: {text}\n"

/-- How the command fails when it is misused. -/
def misused (name text : String) : Saying :=
  failed name s!"{text}\nTry '{name} --help' for more information."

/-- Does as an option asks, given the word that goes with it. -/
def Plan.apply (p : Plan) (c : Choice) (word : String) : Plan :=
  match c with
  | .clear => { p with clear := true }
  | .listNul => { p with listNul := true }
  | .unset => { p with unset := p.unset ++ [word] }
  | .change => { p with directory := some word }

/-- How reading a word of options goes on. -/
inductive Reading where
  | done (p : Plan)
  /-- An option takes the next word. -/
  | wants (p : Plan) (c : Choice) (complaint : String)

/-- Reads a word of option letters. -/
def letters (name : String) (p : Plan) : List Char → Except Saying Reading
  | [] => .ok (.done p)
  | c :: cs =>
    match Choice.ofLetter? c with
    | none =>
      let hint := if c = ' ' ∨ c = '\t' then
          s!"\n{name}: use -[v]S to pass options in shebang lines"
        else ""
      .error (misused name (s!"invalid option -- '{c}'" ++ hint))
    | some o =>
      if o.takesWord then
        if cs.isEmpty then .ok (.wants p o s!"option requires an argument -- '{c}'")
        else .ok (.done (p.apply o (String.ofList cs)))
      else letters name (p.apply o "") cs

/-- Reads a word that is a long option, given what follows its two hyphens. -/
def longOption (name : String) (p : Plan) (cs : List Char) : Except Saying Reading :=
  let given := String.ofList cs
  match Choice.named (String.ofList (cs.takeWhile (· != '='))) with
  | [] => .error (misused name s!"unrecognized option '--{given}'")
  | [(long, o)] =>
    match o.takesWord, cs.dropWhile (· != '=') with
    | false, [] => .ok (.done (p.apply o ""))
    | true, [] => .ok (.wants p o s!"option '--{long}' requires an argument")
    | false, _ :: _ => .error (misused name s!"option '--{long}' doesn't allow an argument")
    | true, _ :: value => .ok (.done (p.apply o (String.ofList value)))
  | many =>
    let listed := String.join (many.map fun n => s!" '--{n.1}'")
    .error (misused name s!"option '--{given}' is ambiguous; possibilities:{listed}")

/-- Reads options: the plan that they leave, and the words after them. -/
def options (name : String) (p : Plan) : List String → Except Saying (Plan × List String)
  | [] => .ok (p, [])
  | w :: ws => do
    let reading ← match w.toList with
      | ['-', '-'] => return (p, ws)
      | '-' :: '-' :: cs => longOption name p cs
      | '-' :: c :: cs => letters name p (c :: cs)
      | _ => return (p, w :: ws)
    match reading, ws with
    | .done p, ws => options name p ws
    | .wants p o _, v :: ws => options name (p.apply o v) ws
    | .wants _ _ complaint, [] => .error (misused name complaint)

/-- The words after a setting, and the setting: a name and a value. -/
def setting? (w : String) : Option (String × String) :=
  match w.toList.dropWhile (· != '=') with
  | [] => none
  | _ :: value => some (String.ofList (w.toList.takeWhile (· != '=')), String.ofList value)

/-- Reads settings of variables: the environment that they leave, and the words after them. -/
def settings (env : Env) : List String → Env × List String
  | [] => (env, [])
  | w :: ws =>
    match setting? w with
    | none => (env, w :: ws)
    | some (name, value) => settings (env.set name value) ws

/-- Takes variables away. -/
def withdraw (name : String) (env : Env) : List String → Except Saying Env
  | [] => .ok env
  | v :: vs =>
    if v.isEmpty || v.toList.contains '=' then
      .error (failed name s!"cannot unset {quoted v}: Invalid argument")
    else withdraw name (env.unset v) vs

/-- The variables of an environment, one a line. -/
def listing (env : Env) (ending : String) : String :=
  String.join (env.bindings.map fun v => s!"{v.1}={v.2}{ending}")

/-- Runs a command, or tells why it cannot be run. -/
def start (run : Runner) (name : String) (around : Surroundings) (w : String)
    (ws : List String) : Outcome :=
  match search around.tree ((around.env.get? "PATH").getD barePath) w with
  | .ok command => run around command (w :: ws)
  | .error e =>
    let hint :=
      if e = .notFound ∧ w.toList.any isSpaceByte then
        s!"{name}: use -[v]S to pass options in shebang lines\n"
      else ""
    (complained (if e = .notFound then 127 else 126)
      (s!"{name}: {quoted w}: {e.reason}\n" ++ hint)).outcome around name 125

/-- Goes where a plan says. -/
def moved (name : String) (p : Plan) (tree : FileTree) : Except Saying FileTree :=
  match p.directory with
  | none => .ok tree
  | some d =>
    match tree.enter (Bytes.toText d) with
    | .ok tree => .ok tree
    | .error e => .error (failed name s!"cannot change directory to {asQuotedWord d}: {e.reason}")

/-- What is done once the options have been read. -/
def finish (run : Runner) (name : String) (around : Surroundings) (p : Plan)
    (words : List String) : Except Saying Outcome := do
  let (clear, words) :=
    if words.head? = some "-" then (true, words.tail) else (p.clear, words)
  let env ← if clear then pure Env.empty else withdraw name around.env p.unset
  let (env, words) := settings env words
  match words with
  | [] =>
    if p.directory.isSome then throw (misused name "must specify command with --chdir (-C)")
    return (said (listing env (if p.listNul then "\x00" else "\n"))).outcome around name 125
  | w :: ws =>
    if p.listNul then throw (misused name "cannot specify --null (-0) with command")
    let tree ← moved name p around.tree
    return start run name { around with tree := tree, env := env } w ws

/-- What comes of the command, whether it ended early or late. -/
def reached (around : Surroundings) (name : String) : Except Saying Outcome → Outcome
  | .ok o => o
  | .error s => s.outcome around name 125

/-- The command, under the name that it was started by. -/
def run (run : Runner) (around : Surroundings) (name : String) (words : List String) : Outcome :=
  reached around name do
    let (p, ws) ← options name .none words
    finish run name around p ws

end Braceline.Toolbox.WithEnv
