import Braceline.Toolbox.Shell.Builtin.Basic

/-!
# Commands on processes

The commands of a shell on signals, and on what new files may be used for.
-/

namespace Braceline.Toolbox.Shell.Builtin

/-! ### Signals -/

/-- Sends a signal to a process: the state, and whether there is one. The shell itself goes on only
if it has made plans for the signal. -/
def send (s : State) (signal id : Nat) : State × Option Flow × Bool :=
  if id = processId ∨ id = 0 then
    if signal = 0 then (s, none, true)
    else if s.depth = 0 ∧ (signal = 9 ∨ (s.traps.lookup signal).isNone) then
      if Signal.isHarmless signal then (s, none, true)
      else (s, some (.stop (.killed signal)), true)
    else ({ s with signals := s.signals ++ [signal] }, none, true)
  else (s, none, false)

/-- How `kill` is used. -/
def killUsage : String :=
  "Usage: kill [-s sigspec | -signum | -sigspec] [pid | job]... or\nkill -l [exitstatus]"

/-- Sends a signal to processes. -/
def sendAll (s : State) (signal : Nat) : List String → Deed
  | [] => .done s
  | w :: ws =>
    let digits := if w.startsWith "-" then (w.drop 1).toString else w
    match number? digits with
    | none => .failed s s!"Illegal number: {digits}" 2
    | some n =>
      match if w.startsWith "-" then none else some (send s signal n) with
      | some (s, none, true) => sendAll s signal ws
      | some (s, some f, _) => .flow s f
      | _ => sendAll ((s.complainFor "kill" "No such process\n").ended 1) signal ws

/-- The command `kill`. -/
def kill (s : State) (args : List String) : Deed :=
  let usage := Deed.failed s killUsage 2
  let go := fun (signal : Option Nat) (ws : List String) =>
    if ws.isEmpty then usage else sendAll (s.ended 0) (signal.getD Signal.usual) ws
  match args with
  | [] => usage
  | w :: ws =>
    match w.toList with
    | '-' :: cs =>
      match (Signal.inShell? (String.ofList cs)).filter fun n => n ≠ 0 || cs == ['0'] with
      | some n => go (some n) ws
      | none =>
        withOptions s "" "s" args fun os ws =>
          match (os.map fun o => (o.2, Signal.inShell? o.2)) with
          | [] => go none ws
          | (name, none) :: _ => .failed s s!"invalid signal number or name: {name}" 2
          | (_, some n) :: _ => go (some n) ws
    | _ => go none args

/-- Takes an action for signals, or none. -/
def takeAction (s : State) (action : Option String) : List String → State
  | [] => s.ended 0
  | w :: ws =>
    match Signal.inShell? w with
    | none => (s.write 2 s!"trap: {w}: bad trap\n").ended 1
    | some n =>
      let others := s.traps.filter fun t => t.1 != n
      let traps := match action with
        | none => others
        | some a => (n, a) :: others
      takeAction { s with traps := traps } action ws

/-- The command `trap`. -/
def trap (s : State) (args : List String) : Deed :=
  withOptions s "" "" args fun _ ws =>
    match ws with
    | [] =>
      let sorted := s.traps.mergeSort fun a b => a.1 ≤ b.1
      let lines := sorted.map fun (n, action) =>
        let name := (Signal.shellNames[n]?).getD ""
        s!"trap -- {inQuotes action} {name}\n"
      say s "trap" (String.join lines)
    | w :: rest =>
      let isSignal := !w.isEmpty && w.toList.all Char.isDigit && (Signal.inShell? w).isSome
      if rest.isEmpty || isSignal then .done (takeAction s none ws)
      else .done (takeAction s (if w = "-" then none else some w) rest)

/-! ### Permissions -/

/-- What permissions of one user, in three bits, are called. -/
def modeLetters (bits : Nat) : String :=
  String.join ([(4, "r"), (2, "w"), (1, "x")].map fun (b, l) => if bits &&& b ≠ 0 then l else "")

/-- Reads the letters of those whose permissions change: the bits that stand for them. -/
def whose : List Char → Nat × List Char
  | 'a' :: cs => let (n, rest) := whose cs; (n ||| 0o111, rest)
  | 'u' :: cs => let (n, rest) := whose cs; (n ||| 0o100, rest)
  | 'g' :: cs => let (n, rest) := whose cs; (n ||| 0o010, rest)
  | 'o' :: cs => let (n, rest) := whose cs; (n ||| 0o001, rest)
  | cs => (0, cs)

/-- Reads the letters of permissions: the bits that stand for them. The letters of users stand for
what these have. -/
def which (mode : Nat) : List Char → Nat × List Char
  | c :: cs =>
    let bits : Option Nat := match c with
      | 'r' => some 4
      | 'w' => some 2
      | 'x' => some 1
      | 'u' => some (mode / 64)
      | 'g' => some (mode / 8)
      | 'o' => some mode
      | 'X' => some (if mode &&& 0o111 ≠ 0 then 1 else 0)
      | 's' => some 0
      | _ => none
    match bits with
    | some b => let (n, rest) := which mode cs; (n ||| b, rest)
    | none => (0, c :: cs)
  | [] => (0, [])

/-- Bits that are not set in three digits of three bits. -/
def without (a b : Nat) : Nat := a &&& (0o777 - b % 512)

/-- Reads changes of permissions, given what they were before all changes. The first argument bounds
the number of changes, and `ahead` stands for those whose permissions change next. -/
def changes (mode : Nat) : Nat → Nat → Nat → List Char → Option Nat
  | 0, _, new, _ => some new
  | _, _, new, [] => some new
  | n + 1, ahead, new, cs =>
    let (users, cs) := whose cs
    let users := if users ||| ahead = 0 then 0o111 else users ||| ahead
    match cs with
    | op :: cs =>
      if op = '=' ∨ op = '+' ∨ op = '-' then
        let (bits, cs) := which mode cs
        let value := (bits &&& 7) * users
        let new := if op = '-' then without new value
          else if op = '+' then new ||| value
          else value ||| without new (users * 7)
        match cs with
        | [] => some new
        | ',' :: cs => changes mode n 0 new cs
        | c :: _ =>
          if c = '=' ∨ c = '+' ∨ c = '-' then changes mode n users new cs else none
      else none
    | [] => some new

/-- The permissions that new files do not get, as a command is told. -/
def mode? (mask : Nat) (word : String) : Except String Nat :=
  let cs := word.toList
  if cs.head?.any Char.isDigit then
    let (n, rest) := readDigits 8 cs.length 0 cs
    if rest.isEmpty then .ok (n % 512) else .error s!"Illegal number: {word}"
  else
    match changes (0o777 - mask) (cs.length + 1) 0 (0o777 - mask) cs with
    | some mode => .ok (0o777 - mode % 512)
    | none => .error s!"Illegal mode: {word}"

/-- The command `umask`. -/
def umask (s : State) (args : List String) : Deed :=
  withOptions s "S" "" args fun os ws =>
    match ws with
    | w :: _ =>
      match mode? s.mask w with
      | .ok mask => .done ({ s with mask := mask }.ended 0)
      | .error e => .failed s e 2
    | [] =>
      let open_ := 0o777 - s.mask
      if os.isEmpty then
        let digits := [512, 64, 8, 1].map fun b => Char.ofNat (s.mask / b % 8 + 48)
        say s "umask" (String.ofList digits ++ "\n")
      else
        let user := modeLetters (open_ / 64)
        let group := modeLetters (open_ / 8)
        let other := modeLetters open_
        say s "umask" s!"u={user},g={group},o={other}\n"

end Braceline.Toolbox.Shell.Builtin
