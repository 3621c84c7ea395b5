import Braceline.Toolbox.Shell.Builtin

/-!
# Running a shell script

A script is read and run line by line. Each command leaves a state and tells how the script goes
on. All that run a part of a script count down the same bound on how deep they are in one another;
rounds of a loop do not count.
-/

namespace Braceline.Toolbox.Shell

/-- A state, and how the script goes on from it. -/
abbrev Step := State × Flow

/-- Goes on after a command, if the script does. -/
def Step.andThen (x : Step) (f : State → Step) : Step :=
  match x.2 with
  | .next => f x.1
  | _ => x

/-- Repeats a step until it halts. The number bounds the rounds; if they are up, `last` tells what
comes of it. -/
def repeated {α β : Type} (step : α → α ⊕ β) (last : α → β) : Nat → α → β
  | 0, a => last a
  | n + 1, a =>
    match step a with
    | .inl a => repeated step last n a
    | .inr b => b

/-- How often a loop may run. -/
def maxRounds : Nat := 100000000

/-- How many functions may run one inside the other. -/
def maxCalls : Nat := 1000

namespace State

/-- Ends a script that cannot go on. -/
def giveUp (s : State) (reason : String) : Step :=
  ((s.complain reason).ended 2, .stop (.exited 2))

/-- Ends the script if a command has failed where none may. -/
def checked (s : State) (tested : Bool) : Step :=
  if s.status ≠ 0 ∧ !tested ∧ s.options.contains 'e' then (s, .stop (.exited s.status))
  else (s, .next)

/-- Breaks down. -/
def broken (s : State) : Step := (s, .stop (.killed 11))

/-- The signal that the shell has been sent and does not outlive. -/
def doom? (s : State) : Option Nat :=
  if s.depth = 0 then
    s.signals.find? fun n =>
      !Signal.isHarmless n && (n == 9 || (s.traps.lookup n).isNone)
  else none

/-- Tells of a command that a signal has ended, and gives its status. -/
def settled (s : State) : Status → State
  | .exited n => s.ended n
  | .killed n =>
    let s := match Signal.describe? n with
      | some text => s.write 2 (text ++ "\n")
      | none => s
    s.ended (128 + n)

/-- Gives back the variables of the innermost function or command. -/
def unshadowed (s : State) : State :=
  match s.shadows with
  | [] => s
  | inner :: others => Builtin.unshadow { s with shadows := others } inner

end State

/-- The text that has been kept in a channel. -/
def keptIn (s : State) (channel : Nat) : String :=
  match s.channels[channel]? with
  | some (.kept text _) => text
  | _ => ""

/-- The status that the last step of a process leaves. -/
def statusOf (x : Step) : Status :=
  match x.2 with
  | .stop status => status
  | _ => .exited (x.1.status % 256)

/-- How a loop goes on after a flow out of it: not at all, or again. -/
def leaving (f : Flow) : Option Flow :=
  match f with
  | .next | .again 0 | .again 1 => none
  | .leave n => some (if n ≤ 1 then .next else .leave (n - 1))
  | .again n => some (.again (n - 1))
  | f => some f

/-- The command that words stand for behind `command`, and whether programs are looked up in the
usual directories. There is none if the words are to be told about. -/
def behindCommand (usual : Bool) : List String → Option (Bool × List String)
  | [] => none
  | w :: ws =>
    match w.toList with
    | ['-', '-'] => if ws.isEmpty then none else some (usual, ws)
    | '-' :: c :: cs => if (c :: cs).all (· == 'p') then behindCommand true ws else none
    | _ => some (usual, w :: ws)

/-- The words of a command without `command` in front, whether functions count, and whether
programs are looked up in the usual directories. The first argument bounds the number of words. -/
def bareCommand (s : State) : Nat → Bool → Bool → List String → List String × Bool × Bool
  | 0, functions, usual, ws => (ws, functions, usual)
  | n + 1, functions, usual, ws =>
    match ws with
    | "command" :: rest =>
      if functions && (s.functions.lookup "command").isSome then (ws, functions, usual)
      else
        match behindCommand usual rest with
        | some (usual, rest) => bareCommand s n false usual rest
        | none => (ws, functions, usual)
    | ws => (ws, functions, usual)

/-- Do words begin with a command whose arguments may be assignments? -/
def takesAssignments (s : State) (words : List String) : Bool :=
  match bareCommand s words.length true false words with
  | (name :: _, functions, _) =>
    ["alias", "export", "local", "readonly"].contains name &&
      !(functions && (s.functions.lookup name).isSome)
  | _ => false

/-- The words of a command. -/
def argumentWords (capture : Capture) (before : List String) : List Word → Act (List String)
  | [] => return before
  | w :: ws => do
    let more ← if takesAssignments (← get) before && (assignment? w).isSome then
        List.singleton <$> Expansion.text capture { Mode.text with awaitsValue := true } w
      else Expansion.word capture w
    argumentWords capture (before ++ more) ws

/-- What stands before the commands that are shown. -/
def sign (capture : Capture) (s : State) : String × State :=
  let text := ((s.get? "PS4").getD "").toList
  match Reader.loose { Reader.ofScript text with aliases := s.aliases } with
  | .ok w =>
    match (Expansion.document capture w).run s with
    | (.ok cs, s) => (String.ofList cs, s)
    | (.error _, s) => ("", s)
  | .error _ => (String.ofList text, s)

/-- Shows a command that is about to be run, on a stream as it was before. -/
def shown (capture : Capture) (before s : State) (words : List String) : State :=
  if s.options.contains 'x' then
    let (front, s) := sign capture s
    let streams := s.streams
    { { s with streams := before.streams }.write 2 (front ++ " ".intercalate words ++ "\n") with
      streams := streams }
  else s

/-- Gives variables the values of assignments, one after the other, and gives the assignments as
they are shown. If they are `lent`, they belong to the command. -/
def assignAll (capture : Capture) (lent exported : Bool) :
    List (String × Word) → Act (List String)
  | [] => return []
  | (name, w) :: rest => do
    let v ← Expansion.text capture .value w
    if lent then modify fun s => Builtin.shadowOne s name
    let s ← get
    if s.isFixed name then throw s!"{name}: is read only"
    let s := s.assign name v
    let marked := fun (v : Variable) => { v with exported := v.exported || lent || exported }
    set (s.put name (marked ((s.bindings.lookup name).getD s.fresh)))
    return s!"{name}={v}" :: (← assignAll capture lent exported rest)

/-- The path of a program. -/
def programPath (s : State) (usual : Bool) (name : String) : Except SystemError String :=
  if name.toList.contains '/' then .ok name
  else
    let path := if usual then directories usualPath else Builtin.path s
    Builtin.search s name .notFound path

/-- Runs a program. -/
def start (run : Runner) (s : State) (usual : Bool) (words : List String) : State :=
  let name := words.headD ""
  match programPath s usual name with
  | .error e => (s.complain s!"{name}: {Builtin.notRun e}").ended 127
  | .ok path =>
    match commandAt s.files path with
    | .error e =>
      (s.complain s!"{name}: {Builtin.notRun e}").ended
        (if e = .notFound ∨ e = .notDirectory ∨ e = .nameTooLong then 127 else 126)
    | .ok command =>
      let o := run s.around command words
      (s.absorb o).settled o.status

/-- Runs a program in place of the shell. -/
def become (run : Runner) (s : State) (words : List String) : Step :=
  let name := words.headD ""
  let found := if name.toList.contains '/' then commandAt s.files name
    else lookUp s.files name false .notFound (Builtin.path s)
  match found with
  | .error e =>
    let status := if e = .notFound ∨ e = .notDirectory ∨ e = .nameTooLong then 127 else 126
    ((s.complainFor "exec" s!"{name}: {Builtin.notRun e}").ended status, .stop (.exited status))
  | .ok command =>
    let o := run s.around command words
    ({ s with traps := [] }.absorb o, .stop o.status)

/-- Does one of some patterns cover a text? -/
def coveredBy (capture : Capture) (text : String) : List Word → Act Bool
  | [] => return false
  | w :: ws => do
    if Pattern.fits (← Expansion.pattern capture w) text.toList then return true
    else coveredBy capture text ws

/-- Makes the redirections of a command: the state, in which they may have been made in part, and
whether they all have been. A word that cannot be expanded ends the script. -/
def withRedirects (capture : Capture) (kept : Bool) (s : State) (rs : List Redirect) :
    State × Except Step Bool :=
  match (Redirecting.aims capture rs).run s with
  | (.error e, s) => (s, .error (s.giveUp e))
  | (.ok aims, s) =>
    match (Redirecting.makeAll capture kept aims).run s with
    | (.error e, t) => (({ t.complain e with streams := s.streams }).ended 2, .ok false)
    | (.ok (), t) => (t, .ok true)

mutual

/-- Runs a text as a script. -/
def runScript (run : Runner) : Nat → State → Bool → List Char → Step
  | 0, s, _, _ => s.broken
  | n + 1, s, tested, cs => runLines run n s tested false (Reader.ofScript cs)

/-- Runs the lines that are left of a script, which are shown as they are read if they are to be and
the script `isFile`. A script without commands succeeds. -/
def runLines (run : Runner) : Nat → State → Bool → Bool → Reader → Step
  | 0, s, _, _, _ => s.broken
  | n + 1, s, tested, isFile, r =>
    let step := fun (x : State × Reader × Bool) =>
      let (s, r, ran) := x
      if r.isDone then .inr (if ran then s else s.ended 0, .next)
      else
        let before := r.text
        match { r with
          aliases := s.aliases
          documents := []
          nextDocument := s.nextDocument }.read with
        | .error e => .inr ({ s with line := e.line }.giveUp s!"Syntax error: {e.reason}")
        | .ok (tree, r) =>
          let s := if isFile && s.options.contains 'v' then
              s.write 2 (String.ofList (before.take (before.length - r.text.length)))
            else s
          let s := { s with
            documents := s.documents ++ r.documents
            nextDocument := r.nextDocument }
          let ran := ran || !tree.isNothing
          match runTree run n s tested tree with
          | (s, .next) => .inl (s, r, ran)
          | x => .inr x
    repeated step (fun x => x.1.broken) maxRounds (s, r, false)

/-- Does what is planned for the end of a process: the state, and how the process ended. -/
def runEnd (run : Runner) : Nat → Step → State × Status
  | 0, x => (x.1, statusOf x)
  | n + 1, x =>
    let status := statusOf x
    let s := x.1
    match s.traps.lookup 0, status with
    | some action, .exited code =>
      let t := { s with
        traps := s.traps.filter (·.1 != 0)
        ending := some (s.ending.getD code) }
      match runScript run n (t.ended code) false action.toList with
      | (t, .stop status) => (t, status)
      | (t, _) => (t, .exited code)
    | _, status => (s, status)

/-- Runs a subshell: the state of the shell after it, and how it ended. -/
def runInner (run : Runner) : Nat → State → Bool → Tree → State × Status
  | 0, s, _, _ => (s, .killed 11)
  | n + 1, s, tested, tree =>
    let (t, status) := runEnd run n (runTree run n s.inner tested tree)
    (s.outer t, status)

/-- Runs a script in a subshell and keeps what it writes. -/
def capture (run : Runner) : Nat → Capture
  | 0, s, _ => (s, "")
  | n + 1, s, tree =>
    if tree.isNothing then (s, "")
    else
      let channel := s.channels.size
      let (t, status) := runInner run n (s.lead 1 (.kept "" false)) false tree
      let text := keptIn t channel
      let code := (t.settled status).status
      let t := { t.settled status with
        channels := t.channels.setIfInBounds channel .nowhere
        streams := s.streams
        status := s.status
        substituted := some code }
      (t, text)

/-- Does what is planned for the signals that the shell has been sent. -/
def attend (run : Runner) : Nat → Step → Step
  | 0, x => x
  | n + 1, (s, f) =>
    if s.depth ≠ 0 || s.signals.isEmpty then
      if s.isFlooding then (s, .stop (.killed 13)) else (s, f)
    else
      match s.doom? with
      | some signal => (s, .stop (.killed signal))
      | none =>
        let pending := (s.signals.mergeSort fun a b => a ≤ b).eraseDups
        let saved := s.ending.getD s.status
        let act := fun (x : Step) (signal : Nat) =>
          match x.2, x.1.traps.lookup signal with
          | .next, some action =>
            let (t, f) := runScript run n x.1 false action.toList
            (if f = .back then t else t.ended saved, f)
          | _, _ => x
        let (t, g) := pending.foldl act ({ s with signals := [], ending := some saved }, .next)
        ({ t with ending := s.ending }, if g = .next then f else g)

/-- Runs a command, whose failure counts unless it is `tested`. -/
def runTree (run : Runner) : Nat → State → Bool → Tree → Step
  | 0, s, _, _ => s.broken
  | n + 1, s, tested, tree =>
    if s.options.contains 'n' then (s, .next)
    else
      match tree with
      | .nothing | .clause _ _ _ => (s, .next)
      | .simple line assigned words rs =>
        let x := runSimple run n { s with line := line } tested assigned words rs
        Step.andThen (attend run n x) (·.checked tested)
      | .seq a b => Step.andThen (runTree run n s tested a) fun s => runTree run n s tested b
      | .both a b =>
        Step.andThen (runTree run n s true a) fun s =>
          if s.status = 0 then runTree run n s tested b else (s, .next)
      | .either a b =>
        Step.andThen (runTree run n s true a) fun s =>
          if s.status = 0 then (s, .next) else runTree run n s tested b
      | .negated a =>
        Step.andThen (runTree run n s true a) fun s =>
          (s.ended (if s.status = 0 then 1 else 0), .next)
      | .pipe a b =>
        let x := runPipe run n s tested a b
        Step.andThen (attend run n x) (·.checked tested)
      | .branch test yes no =>
        Step.andThen (runTree run n s true test) fun s =>
          if s.status = 0 then runTree run n s tested yes
          else runTree run n (if no.isNothing then s.ended 0 else s) tested no
      | .loop fails test body => runLoop run n s tested fails test body
      | .each line name words body =>
        let s := { s with line := line }
        match words with
        | none => runEach run n s tested name s.args body
        | some ws =>
          match (Expansion.words (capture run n) ws).run s with
          | (.error e, s) => s.giveUp e
          | (.ok fields, s) => runEach run n s tested name fields body
      | .choose line w clauses =>
        match (Expansion.text (capture run n) .text w).run { s with line := line } with
        | (.error e, s) => s.giveUp e
        | (.ok text, s) => runClauses run n s tested text clauses
      | .subshell line a rs =>
        match withRedirects (capture run n) false { s with line := line } rs with
        | (_, .error x) => x
        | (t, .ok false) => Step.andThen (attend run n (t, .next)) (·.checked tested)
        | (t, .ok true) =>
          let (u, status) := runInner run n t tested a
          let u := { u with streams := s.streams }.settled status
          Step.andThen (attend run n (u, .next)) (·.checked tested)
      | .redirected line a rs =>
        match withRedirects (capture run n) true { s with line := line } rs with
        | (_, .error x) => x
        | (t, .ok false) => (t, .next)
        | (t, .ok true) =>
          let (u, f) := runTree run n t tested a
          (u.returning s (rs.map Redirect.stream), f)
      | .define _ name body => ({ s with functions := putIn name body s.functions }.ended 0, .next)

/-- Runs two commands, the first of which feeds the second. -/
def runPipe (run : Runner) : Nat → State → Bool → Tree → Tree → Step
  | 0, s, _, _, _ => s.broken
  | n + 1, s, tested, a, b =>
    let channel := s.channels.size
    let (t, status) := runInner run n (s.lead 1 (.kept "" true)) tested a
    let t := match status with
      | .killed _ => { t with streams := s.streams }.settled status
      | _ => { t with streams := s.streams }
    let kept := Channel.text (keptIn t channel).toList
    let t := { t with channels := t.channels.setIfInBounds channel kept }
    let (u, status) := match b with
      | .pipe c d =>
        let x := runPipe run n ((t.point 0 channel).ended s.status) tested c d
        (x.1, Status.exited x.1.status)
      | b => runInner run n ((t.point 0 channel).ended s.status) tested b
    let u := { u with
      channels := u.channels.setIfInBounds channel .nowhere
      streams := s.streams }
    (u.settled status, .next)

/-- Runs a simple command. -/
def runSimple (run : Runner) : Nat → State → Bool → List (String × Word) → List Word →
    List Redirect → Step
  | 0, s, _, _, _, _ => s.broken
  | n + 1, s, tested, assigned, words, rs =>
    match (argumentWords (capture run n) [] words).run { s with substituted := none } with
    | (.error e, s) => s.giveUp e
    | (.ok given, s) =>
      let (ws, functions, usual) := bareCommand s given.length true false given
      let name := ws.headD ""
      let body? := if functions then s.functions.lookup name else none
      let isSpecial := functions && body?.isNone && specialNames.contains name
      let lent := !given.isEmpty && !isSpecial
      match withRedirects (capture run n) true s rs with
      | (_, .error x) => x
      | (t, .ok false) => (t, if isSpecial then .stop (.exited 2) else .next)
      | (t, .ok true) =>
        let t := if lent then { t with shadows := [] :: t.shadows } else t
        let exported := name == "exec" && 1 < ws.length
        match (assignAll (capture run n) lent exported assigned).run t with
        | (.error e, t) =>
          let (u, f) := t.giveUp e
          (u.returning s (rs.map Redirect.stream), f)
        | (.ok values, t) =>
          let t := shown (capture run n) s t (values ++ given)
          match t.doom? with
          | some signal => (t, .stop (.killed signal))
          | none =>
            let (u, f) : Step :=
              if given.isEmpty then (t.ended (t.substituted.getD 0), .next)
              else runWords run n t tested functions usual isSpecial ws
            let u := if lent then u.unshadowed else u
            let keeps := name == "exec" && body?.isNone && ws.length = 1
            (if keeps then u else u.returning s (rs.map Redirect.stream), f)

/-- Runs the words of a command. A name is a function's first, if functions count. -/
def runWords (run : Runner) :
    Nat → State → Bool → Bool → Bool → Bool → List String → Step
  | 0, s, _, _, _, _, _ => s.broken
  | n + 1, s, tested, functions, usual, isSpecial, words =>
    let name := words.headD ""
    let args := words.tail
    match if functions then s.functions.lookup name else none with
    | some body =>
      if maxCalls ≤ s.calls then
        s.giveUp s!"Maximum function recursion depth ({maxCalls}) reached"
      else
        let t := { s with
          args := args
          optionPlace := .first
          loops := 0
          calls := s.calls + 1 }
        let (u, f) := runTree run n t tested body
        let u := { u with
          args := s.args
          optionPlace := s.optionPlace
          loops := s.loops
          calls := s.calls }
        (u, if f = .back then .next else f)
    | none =>
      match Builtin.perform s name args with
      | none => (start run s usual words, .next)
      | some deed =>
        match deed with
        | .done s => (s, .next)
        | .failed s reason status =>
          let s := (s.complainFor name reason).ended status
          (s, if isSpecial then .stop (.exited status) else .next)
        | .flow s f => (s, f)
        | .script s text =>
          let context := if name = "." then args.headD "" ++ ": " else "eval: "
          let (u, f) := runScript run n { s with context := context } tested text.toList
          ({ u with context := s.context }, if f = .back ∧ name = "." then .next else f)
        | .become s words => become run s words

/-- Runs a loop, whose status is that of the last command in it. -/
def runLoop (run : Runner) : Nat → State → Bool → Bool → Tree → Tree → Step
  | 0, s, _, _, _, _ => s.broken
  | n + 1, s, tested, fails, test, body =>
    let outside := s.loops
    let out := fun (x : Step) => (({ x.1 with loops := outside }, x.2) : Step)
    let step := fun (x : State × Nat) =>
      let (s, status) := x
      match runTree run n s true test with
      | (s, .next) =>
        if (s.status == 0) == fails then .inr (out (s.ended status, .next))
        else
          match runTree run n s tested body with
          | (s, f) =>
            match leaving f with
            | none => .inl (s, s.status)
            | some g => .inr (out (s, g))
      | (s, f) =>
        match leaving f with
        | none => .inl (s, status)
        | some .next => .inr (out (s.ended status, .next))
        | some g => .inr (out (s, g))
    repeated step (fun x => out x.1.broken) maxRounds ({ s with loops := s.loops + 1 }, 0)

/-- Runs a loop over fields. -/
def runEach (run : Runner) : Nat → State → Bool → String → List String → Tree → Step
  | 0, s, _, _, _, _ => s.broken
  | n + 1, s, tested, name, fields, body =>
    let outside := s.loops
    let out := fun (x : Step) => (({ x.1 with loops := outside }, x.2) : Step)
    let step := fun (x : State × List String) =>
      match x.2 with
      | [] => .inr (out (x.1, .next))
      | w :: ws =>
        if x.1.isFixed name then .inr (x.1.giveUp s!"{name}: is read only")
        else
          match runTree run n (x.1.assign name w) tested body with
          | (s, f) =>
            match leaving f with
            | none => .inl (s, ws)
            | some g => .inr (out (s, g))
    repeated step (fun x => out x.1.broken) (fields.length + 1)
      ({ if fields.isEmpty then s.ended 0 else s with loops := s.loops + 1 }, fields)

/-- Runs the first clause with a pattern that covers a text. -/
def runClauses (run : Runner) : Nat → State → Bool → String → Tree → Step
  | 0, s, _, _, _ => s.broken
  | n + 1, s, tested, text, .clause patterns body next =>
    match (coveredBy (capture run n) text patterns).run s with
    | (.error e, s) => s.giveUp e
    | (.ok true, s) => runTree run n (if body.isNothing then s.ended 0 else s) tested body
    | (.ok false, s) => runClauses run n s tested text next
  | _, s, _, _, _ => (s.ended 0, .next)

end

/-- How deep parts of a script may be in one another. -/
def maxDepth : Nat := 1000000

/-- What comes of a script that has been run up to its last step. -/
def finished (run : Runner) (around : Surroundings) (x : Step) : Outcome :=
  let (s, status) := runEnd run maxDepth x
  let input := (s.channels[0]?.map (·.rest s.tree)).getD ""
  ⟨status, s.written.reverse, { s.tree with working := around.tree.working }, input⟩

/-- The command `sh`, under the name that it was started by. -/
def sh (run : Runner) (around : Surroundings) (name : String) (words : List String) : Outcome :=
  let start := fun (x : Builtin.Choices) (own : String) (args : List String) =>
    State.start around x.on own args
  let lost := fun (reason : String) =>
    (complained 2 s!"{name}: 0: {reason}\n").outcome around name 2
  match Builtin.Choices.read true words.length ⟨[], false, "", words⟩ with
  | .error e => lost e
  | .ok (x, _) =>
    let go := fun (s : State) (isFile : Bool) (text : String) =>
      let s := s.write 1 x.out
      finished run around
        (runLines run maxDepth s false isFile (Reader.ofScript text.toList))
    if x.script then
      match x.words with
      | [] => lost "-c requires an argument"
      | [text] => go (start x name []) false text
      | text :: own :: args => go (start x own args) false text
    else
      let fromInput := fun (args : List String) =>
        let s := start { x with on := if x.on.contains 's' then x.on else 's' :: x.on } name args
        go { s with channels := s.channels.setIfInBounds 0 (.text []) } true around.input
      match x.words with
      | [] => fromInput []
      | file :: args =>
        if x.on.contains 's' then fromInput x.words
        else
          match Builtin.scriptAt around.tree file with
          | .ok text => go (start x file args) true text
          | .error e => lost s!"cannot open {file}: {notOpened e}"

end Braceline.Toolbox.Shell
