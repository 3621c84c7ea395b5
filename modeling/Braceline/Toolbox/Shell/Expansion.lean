import Braceline.Toolbox.Shell.Arithmetic
import Braceline.Toolbox.Shell.Fields

/-!
# Expansion

What words become when a script runs. Parameters, commands and sums are put in first, and a tilde
gives way to a home directory. Then what was put in outside quotes is split into fields, and fields
that are patterns become the paths that they cover.
-/

namespace Braceline.Toolbox.Shell

/-- What changes the state and may end in a complaint. -/
abbrev Act := ExceptT String (StateM State)

/-- What runs a script in a subshell and gives what it writes. -/
abbrev Capture := State → Tree → State × String

/-- What a word is expanded for. -/
structure Mode where
  /-- It becomes fields. -/
  isFields : Bool
  /-- It becomes a pattern. -/
  isPattern : Bool
  /-- It is a value, so that a tilde may stand after a colon. -/
  isValue : Bool
  /-- An equals sign ahead begins the value. -/
  awaitsValue : Bool
  /-- It goes with a parameter. -/
  isInner : Bool
  quoted : Bool

namespace Mode

/-- A word that becomes one text. -/
def text : Mode := ⟨false, false, false, false, false, false⟩

/-- A word that becomes fields. -/
def fields : Mode := { text with isFields := true }

/-- A word that becomes a pattern. -/
def pattern : Mode := { text with isPattern := true }

/-- The value of an assignment. -/
def value : Mode := { text with isValue := true }

/-- Does it matter which characters are quoted? -/
def keeps (m : Mode) : Bool := m.isFields || m.isPattern

/-- What is put in for a text. -/
def items (m : Mode) (cs : List Char) : List Item :=
  cs.map fun c => .char c (m.keeps && m.quoted && (isDelicate c || c == '\\'))

end Mode

namespace State

/-- The characters that fields are split at. -/
def separators (s : State) : List Char := ((s.get? "IFS").getD usualSeparators).toList

/-- The value of a parameter that is one text. -/
def value? (s : State) : Param → Option String
  | .variable name => s.get? name
  | .positional 0 => some s.name
  | .positional (n + 1) => s.args[n]?
  | .count => some (toString s.args.length)
  | .status => some (toString s.status)
  | .process => some (toString processId)
  | .options =>
    let order := "pubaCEVvxsnmiIfe".toList
    some (String.ofList (order.filter s.options.contains))
  | .all _ => none

end State

namespace Expansion

/-- What stands between arguments that are put in together, if anything does. -/
def joint (s : State) (m : Mode) (joined : Bool) : List Char :=
  if m.isFields && m.quoted && !joined then ['\x00']
  else
    match s.get? "IFS" with
    | none => [' ']
    | some separators =>
      if m.isFields && !m.quoted then ['\x00'] else separators.toList.take 1

/-- What is put in for a parameter, if it has a value. -/
def value (s : State) (m : Mode) (p : Param) : Option (List Item) :=
  match p with
  | .all joined => some (m.items ((joint s m joined).intercalate (s.args.map String.toList)))
  | p => (s.value? p).map fun v => m.items v.toList

/-- What is put in for a parameter as a span. -/
def put (s : State) (m : Mode) (p : Param) (items : List Item) : List Span :=
  if m.quoted then
    match p with
    | .all false => if s.args.isEmpty then [.kept items] else [.split true items]
    | _ => [.kept items]
  else [.split false items]

/-- A parameter has no value where it has to have one. -/
def unset {α : Type} (p : Param) (reason : String) : Act α := throw s!"{p.describe}: {reason}"

/-- The value of a parameter that is used without a word in place of it. -/
def checked (m : Mode) (p : Param) : Act (Option (List Item)) := do
  let s ← get
  match value s m p with
  | some is => return some is
  | none => if s.options.contains 'u' then unset p "parameter not set" else return none

/-- Changes a variable. -/
def assign (p : Param) (value : String) : Act Unit := do
  match p with
  | .variable name =>
    let s ← get
    if s.isFixed name then throw s!"{name}: is read only"
    set (s.assign name value)
  | _ => unset p "bad variable name"

/-- The spans of a parameter, given how its word is expanded, and whether it is empty. -/
def parameter (m : Mode) (p : Param) (use : Use) (isBare : Bool)
    (word : Mode → Act (List Span)) : Act (List Span) := do
  match use with
  | .bad => throw "Bad substitution"
  | .plain =>
    let is? ← checked m p
    return (is?.map (put (← get) m p)).getD []
  | .length =>
    let is? ← checked m p
    return put (← get) m p (m.items (toString (is?.getD []).length).toList)
  | .trim front longest =>
    match ← checked m p with
    | none => return []
    | some is =>
      let pattern := Item.pattern (Span.all (← word .pattern))
      let cs := Item.text is
      let rest := if front then
          is.drop ((Pattern.frontSize? longest pattern cs).getD 0)
        else is.take ((Pattern.backSize? longest pattern cs).getD cs.length)
      return put (← get) m p rest
  | .fallback kind orEmpty =>
    let s ← get
    let own := (value s m p).filter fun is => !(orEmpty && is.isEmpty)
    match kind, own with
    | .alternative, none => return put s m p []
    | .alternative, some _ | .use, none => word { m with isInner := true }
    | .use, some is | .assign, some is | .complain, some is => return put s m p is
    | .assign, none =>
      assign p (String.ofList (Item.text (Span.all (← word .text))))
      let s ← get
      return put s m p ((value s m p).getD [])
    | .complain, none =>
      let text := String.ofList (Item.text (Span.all (← word .text)))
      unset p (if !isBare then text
        else if orEmpty then "parameter not set or null" else "parameter not set")

/-- The home directory of a user, or of the one who runs the script. -/
def home? (s : State) (user : String) : Option String :=
  if user.isEmpty then s.get? "HOME"
  else
    let users := (contentAt s.tree "/etc/passwd").toOption.getD ""
    (users.splitOn "\n").findSome? fun line =>
      match line.splitOn ":" with
      | name :: _ :: _ :: _ :: _ :: dir :: _ => if name = user then some dir else none
      | _ => none

/-- The home directory that a word begins with, after its tilde, and the size of the name. -/
def tilde? (s : State) (m : Mode) (ps : List Piece) : Option (String × Nat) :=
  let isEnd := fun (c : Char) => c == '/' || (m.isValue && c == ':')
  let inName := fun (p : Piece) =>
    match p with
    | .plain c => !isEnd c
    | _ => false
  let name := Word.text (ps.takeWhile inName)
  match ps.drop name.length with
  | [] | .plain _ :: _ => (home? s (String.ofList name)).map (·, name.length)
  | _ => none

/-- The span of characters in a row. -/
def run (m : Mode) (chunk : List Item) : List Span :=
  if chunk.isEmpty then []
  else if m.isInner && !m.quoted then [.split false chunk.reverse]
  else [.kept chunk.reverse]

/-- A script's output without the line feeds at its end. -/
def captured (capture : Capture) (script : Tree) : Act (List Char) := do
  let (s, text) := capture (← get) script
  set s
  return ((text.toList.filter (· != '\x00')).reverse.dropWhile (· == '\n')).reverse

/-- The value of a sum. -/
def sum (text : List Char) : Act Int := do
  match Arithmetic.value (← get) text with
  | .ok (v, s) =>
    set s
    return v
  | .error e => throw e

mutual

/-- The spans of a word. `skipped` pieces count no more, a tilde counts if `atStart`, and `chunk`
holds the characters in a row before them, in reverse. A part of a word is quoted if the whole of it
is, or the mark before it is one that begins quoting. -/
def spans (capture : Capture) (whole m : Mode) (skipped : Nat) (atStart : Bool)
    (chunk : List Item) : List Piece → Act (List Span)
  | [] => return run m chunk
  | p :: ps => do
    match skipped with
    | k + 1 => spans capture whole m k false chunk ps
    | 0 =>
      match p with
      | .plain c =>
        let home ← if c = '~' && atStart then pure (tilde? (← get) m ps) else pure none
        match home with
        | some (dir, size) =>
          let dir := Mode.items { m with quoted := true } dir.toList
          return .kept dir :: (← spans capture whole m size false [] ps)
        | none =>
          let begins := m.awaitsValue && c == '='
          let m := if begins then { m with isValue := true, awaitsValue := false } else m
          let atStart := begins || (m.isValue && c == ':')
          spans capture whole m 0 atStart (.char c false :: chunk) ps
      | .mark =>
        match m.quoted && !whole.quoted, ps with
        | false, .param (.all false) .plain [] :: .mark :: _ =>
          let inner := { m with quoted := true }
          let first ← parameter inner (.all false) .plain true fun _ => return []
          return run m chunk ++ first ++ (← spans capture whole m 2 false [] ps)
        | inQuotes, _ =>
          let mark := if m.keeps then [Span.kept [.mark]] else []
          let next := { m with quoted := whole.quoted || !inQuotes }
          return run m chunk ++ mark ++ (← spans capture whole next 0 false [] ps)
      | p =>
        let first ← piece capture m p
        return run m chunk ++ first ++ (← spans capture whole m 0 false [] ps)

/-- The spans of a piece that is no plain character and no mark. -/
def piece (capture : Capture) (m : Mode) : Piece → Act (List Span)
  | .escaped c => return [.kept [.char c m.keeps]]
  | .param p use word => parameter m p use word.isEmpty fun m => spans capture m m 0 true [] word
  | .command script => do
    let is := m.items (← captured capture script)
    return [if m.quoted then .kept is else .split false is]
  | .sum text => do
    let inner ← spans capture .text .text 0 false [] text
    let is := m.items (toString (← sum (Item.text (Span.all inner)))).toList
    return [if m.quoted then .kept is else .split false is]
  | _ => return []

end

/-- The spans of a word. -/
def ofWord (capture : Capture) (m : Mode) (w : Word) : Act (List Span) :=
  spans capture m m 0 true [] w

/-- A word as one text. -/
def text (capture : Capture) (m : Mode) (w : Word) : Act String := do
  return String.ofList (Item.text (Span.all (← ofWord capture m w)))

/-- The text of a document. -/
def document (capture : Capture) (w : Word) : Act (List Char) := do
  let m := { Mode.text with quoted := true }
  return Item.text (Span.all (← spans capture m m 0 false [] w))

/-- The fields of a word. -/
def word (capture : Capture) (w : Word) : Act (List String) := do
  let ss ← ofWord capture .fields w
  let s ← get
  return (fields s.separators none ss).flatMap fun is =>
    let paths := if s.options.contains 'f' then [] else Pattern.files s.files (Item.pattern is)
    if paths.isEmpty then [String.ofList (Item.text is)] else paths

/-- The fields of words. -/
def words (capture : Capture) : List Word → Act (List String)
  | [] => return []
  | w :: ws => do return (← word capture w) ++ (← words capture ws)

/-- A word as a pattern. -/
def pattern (capture : Capture) (w : Word) : Act (List Glyph) := do
  return Item.pattern (Span.all (← ofWord capture .pattern w))

end Expansion

end Braceline.Toolbox.Shell
