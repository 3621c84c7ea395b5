import Braceline.Toolbox.Basic

/-!
# The command `test`

Conditions on texts, numbers and files. How many arguments there are decides how they are read. A
shell has its own reader, which looks for operators word by word.
-/

namespace Braceline.Toolbox.Condition

/-- A condition, or what is wrong with the arguments. -/
abbrev Reading (α : Type) := Except String α

/-! ### Files -/

/-- Does an entry fit a letter that asks about files? The answer for a letter that asks about no
property that files have here is no. -/
def fits (letter : Char) : Entry → Bool
  | .file content =>
    "aefrwOGN".toList.contains letter || (letter == 's' && !content.isEmpty)
  | .device _ => "aecrwOG".toList.contains letter
  | .program _ => "aefrwxsOG".toList.contains letter
  | .directory => "aedrwxsOG".toList.contains letter

/-- Does the file at a path fit a letter? -/
def holdsFor (tree : FileTree) (letter : Char) (path : String) : Bool :=
  match entryAt tree path with
  | .ok e => fits letter e
  | .error _ => false

/-- Are two paths the same file? -/
def sameFile (tree : FileTree) (a b : String) : Bool :=
  match placeAt tree a, placeAt tree b with
  | .ok x, .ok y => x == y
  | _, _ => false

/-! ### Numbers -/

/-- The whole number that a word is, with white space around it. -/
def integer? (word : String) : Option Int :=
  match readInteger? (some 10) word.toList with
  | some (n, rest) => if rest.all isSpaceByte then some n else none
  | none => none

/-- How a number operator compares. -/
def comparison? (op : String) : Option (Int → Int → Bool) :=
  match op with
  | "-eq" => some fun x y => x == y
  | "-ne" => some fun x y => x != y
  | "-lt" => some fun x y => x < y
  | "-le" => some fun x y => x ≤ y
  | "-gt" => some fun x y => y < x
  | "-ge" => some fun x y => y ≤ x
  | _ => none

/-! ### The program -/

/-- An operator between two arguments. -/
def isBinary (w : String) : Bool :=
  ["=", "==", "!=", "-nt", "-ot", "-ef"].contains w || (comparison? w).isSome

/-- A number, or a complaint. -/
def integer (word : String) : Reading Int :=
  match integer? word with
  | some n => .ok n
  | none => .error s!"invalid integer {quoted word}"

/-- What stands beside an operator: an argument, or the length of one. -/
inductive Operand where
  | word (w : String)
  | lengthOf (w : String)

/-- The argument of an operand. -/
def Operand.argument : Operand → String
  | .word w | .lengthOf w => w

/-- Is an operand a length? -/
def Operand.isLength : Operand → Bool
  | .word _ => false
  | .lengthOf _ => true

/-- The number that an operand stands for, or a complaint. -/
def Operand.number : Operand → Reading Int
  | .word w => integer w
  | .lengthOf w => .ok w.length

/-- An operator between two operands, applied. Where the second one is a length, texts are compared
with the operator itself in place of the first. -/
def binary (tree : FileTree) (a : Operand) (op : String) (b : Operand) : Reading Bool :=
  match comparison? op with
  | some f => do return f (← a.number) (← b.number)
  | none =>
    let first := if b.isLength then op else a.argument
    if op == "=" || op == "==" then .ok (first == b.argument)
    else if op == "!=" then .ok (first != b.argument)
    else if a.isLength || b.isLength then .error s!"{op} does not accept -l"
    else .ok (op == "-ef" && sameFile tree a.argument b.argument)

/-- An operator before an argument, if it is one: a hyphen and a letter. -/
def letter? (w : String) : Option Char :=
  match w.toList with
  | ['-', c] => some c
  | _ => none

/-- The letters that ask about the argument after them. -/
def unaryLetters : List Char := "bcdefghknprstuwxzGLNOS".toList

/-- An operator before an argument, applied. -/
def unary (tree : FileTree) (op : Char) (w : String) : Reading Bool :=
  if !unaryLetters.contains op then
    let word := String.ofList ['-', op]
    .error s!"{quoted word}: unary operator expected"
  else if op = 'n' then .ok (!w.isEmpty)
  else if op = 'z' then .ok w.isEmpty
  else if op = 't' then (integer w).map fun _ => false
  else .ok (holdsFor tree op w)

/-- The complaint that words are missing after the last one. -/
def beyond {α : Type} (last : String) : Reading α :=
  .error s!"missing argument after {quoted last}"

/-- Reads the second operand of an operator, and applies it: its truth and the words after it. -/
def applied (tree : FileTree) (last : String) (a : Operand) (op : String) :
    List String → Reading (Bool × List String)
  | "-l" :: w :: ws => do return (← binary tree a op (.lengthOf w), ws)
  | w :: ws => do return (← binary tree a op (.word w), ws)
  | [] => beyond last

/-- What a reader of a condition looks for. -/
inductive Part where
  /-- A condition of so many words. -/
  | words (n : Nat)
  | either
  | both
  | term

/-- Reads a condition, given the last word of all: its truth and the words after it. The first
argument bounds the number of steps. -/
def read (tree : FileTree) (last : String) : Nat → Part → List String →
    Reading (Bool × List String)
  | 0, _, _ => .error "too deep"
  | _ + 1, .words 1, w :: ws => .ok (w != "", ws)
  | n + 1, .words 2, w :: ws =>
    if w == "!" then do
      let (b, ws) ← read tree last n (.words 1) ws
      return (!b, ws)
    else
      match letter? w, ws with
      | some op, v :: ws => do return (← unary tree op v, ws)
      | _, _ => beyond last
  | n + 1, .words 3, w :: v :: ws =>
    if isBinary v then applied tree last (.word w) v ws
    else if w == "!" then do
      let (b, ws) ← read tree last n (.words 2) (v :: ws)
      return (!b, ws)
    else if w == "(" && ws.head? == some ")" then .ok (v != "", ws.tail)
    else if v == "-a" || v == "-o" then read tree last n .either (w :: v :: ws)
    else .error s!"{quoted v}: binary operator expected"
  | n + 1, .words 4, w :: ws =>
    if w == "!" then do
      let (b, ws) ← read tree last n (.words 3) ws
      return (!b, ws)
    else if w == "(" && ws[2]? == some ")" then do
      let (b, ws) ← read tree last n (.words 2) ws
      return (b, ws.tail)
    else read tree last n .either (w :: ws)
  | n + 1, .words _, ws => read tree last n .either ws
  | n + 1, .either, ws => do
    let (a, ws) ← read tree last n .both ws
    match ws with
    | "-o" :: ws =>
      let (b, ws) ← read tree last n .either ws
      return (a || b, ws)
    | ws => return (a, ws)
  | n + 1, .both, ws => do
    let (a, ws) ← read tree last n .term ws
    match ws with
    | "-a" :: ws =>
      let (b, ws) ← read tree last n .both ws
      return (a && b, ws)
    | ws => return (a, ws)
  | n + 1, .term, ws =>
    match ws with
    | [] => beyond last
    | "!" :: ws =>
      if ws.isEmpty then beyond last
      else do
        let (b, ws) ← read tree last n .term ws
        return (!b, ws)
    | "(" :: ws =>
      if ws.isEmpty then beyond last
      else do
        let inside := 1 + ((ws.drop 1).takeWhile (· != ")")).length
        let size := if 4 ≤ inside then ws.length else inside
        let (b, ws) ← read tree last n (.words size) ws
        match ws with
        | ")" :: ws => return (b, ws)
        | [] => throw (quoted ")" ++ " expected")
        | w :: _ => throw (quoted ")" ++ s!" expected, found {quoted w}")
    | w :: v :: u :: ws =>
      if w == "-l" && isBinary u && !ws.isEmpty then applied tree last (.lengthOf v) u ws
      else if isBinary v then applied tree last (.word w) v (u :: ws)
      else
        match letter? w with
        | some op => do return (← unary tree op v, u :: ws)
        | none => .ok (w != "", v :: u :: ws)
    | [w, v] =>
      match letter? w with
      | some op => do return (← unary tree op v, [])
      | none => .ok (w != "", [v])
    | [w] =>
      match letter? w with
      | some op =>
        if unaryLetters.contains op then beyond last else (unary tree op "").map (·, [])
      | none => .ok (w != "", [])

/-- The truth of a condition. -/
def holds (tree : FileTree) (words : List String) : Reading Bool :=
  match words.getLast? with
  | none => .ok false
  | some last => do
    match ← read tree last (4 * words.length + 4) (.words words.length) words with
    | (b, []) => return b
    | (_, w :: _) => throw s!"extra argument {quoted w}"

/-- The end of a command that decides a condition. -/
def ended (name : String) : Reading Bool → Saying
  | .ok true => silent 0
  | .ok false => silent 1
  | .error text => complained 2 s!"{name}: {text}\n"

/-- The words of a condition that a bracket has to close. -/
def closed (missing : String) (words : List String) : Reading (List String) :=
  if words.getLast? = some "]" then .ok words.dropLast else .error s!"missing {missing}"

/-- The command as a program, under the name that it was started by. -/
def run (tree : FileTree) (name : String) (bracket : Bool) (words : List String) : Saying :=
  ended name
    (if bracket then closed (quoted "]") words >>= holds tree else holds tree words)

/-! ### The shell's own -/

/-- What a shell's condition is made of. -/
inductive Lexeme where
  | finish
  | operand
  | unary (letter : Char)
  | binary (op : String)
  | no
  | and
  | or
  | opening
  | closing
  deriving DecidableEq

/-- The operator that a word is by itself. -/
def operator? (w : String) : Option Lexeme :=
  match w with
  | "!" => some .no
  | "-a" => some .and
  | "-o" => some .or
  | "(" => some .opening
  | ")" => some .closing
  | "<" | ">" => some (.binary w)
  | _ =>
    if w != "==" && isBinary w then some (.binary w)
    else (letter? w).bind fun c =>
      if "rwxefdcbpugkstznhOGLS".toList.contains c then some (.unary c) else none

/-- What the first of some words is, given the words after it. -/
def lexeme : List String → Lexeme
  | [] => .finish
  | w :: ws =>
    match operator? w with
    | none => .operand
    | some (.unary c) =>
      match ws with
      | [] => .operand
      | [_] => .unary c
      | v :: _ =>
        match operator? v with
        | some (.binary _) => .operand
        | _ => .unary c
    | some .opening => if ws.isEmpty then .operand else .opening
    | some l => l

/-- A number, or a shell's complaint. -/
def shellInteger (word : String) : Reading Int :=
  match integer? word with
  | some n =>
    if minInteger ≤ n ∧ n ≤ maxInteger then .ok n
    else .error s!"Illegal number: {word}"
  | none => .error s!"Illegal number: {word}"

/-- An operator between two arguments, applied by a shell. -/
def shellBinary (tree : FileTree) (a op b : String) : Reading Bool :=
  match comparison? op with
  | some f => do return f (← shellInteger a) (← shellInteger b)
  | none =>
    if op == "<" then .ok (a < b)
    else if op == ">" then .ok (b < a)
    else binary tree (.word a) op (.word b)

/-- An operator before an argument, applied by a shell. -/
def shellUnary (tree : FileTree) (op : Char) (w : String) : Reading Bool :=
  if op = 'n' then .ok (!w.isEmpty)
  else if op = 'z' then .ok w.isEmpty
  else if op = 't' then (shellInteger w).map fun _ => false
  else .ok (holdsFor tree op w)

/-- What a shell's reader of a condition looks for. -/
inductive ShellPart where
  | either
  | both
  | negated
  | primary

/-- Reads a condition in a shell, given what its first word is: its truth, and the words from its
last one on. The first argument bounds the number of steps. -/
def shellRead (tree : FileTree) : Nat → ShellPart → Lexeme → List String →
    Reading (Bool × List String)
  | 0, _, _, ws => .ok (false, ws)
  | n + 1, .either, l, ws => do
    let (a, ws) ← shellRead tree n .both l ws
    if lexeme ws.tail = .or then
      let (b, ws) ← shellRead tree n .either (lexeme (ws.drop 2)) (ws.drop 2)
      return (a || b, ws)
    else return (a, ws)
  | n + 1, .both, l, ws => do
    let (a, ws) ← shellRead tree n .negated l ws
    if lexeme ws.tail = .and then
      let (b, ws) ← shellRead tree n .both (lexeme (ws.drop 2)) (ws.drop 2)
      return (a && b, ws)
    else return (a, ws)
  | n + 1, .negated, l, ws =>
    if l = .no then do
      let next := lexeme ws.tail
      let (b, ws) ← shellRead tree n .negated next (if next = .finish then ws else ws.tail)
      return (!b, ws)
    else shellRead tree n .primary l ws
  | n + 1, .primary, l, ws =>
    match l, ws with
    | .finish, _ | _, [] => .ok (false, ws)
    | .opening, _ :: ws =>
      if lexeme ws = .closing then .ok (false, ws)
      else do
        let (b, ws) ← shellRead tree n .either (lexeme ws) ws
        if lexeme ws.tail = .closing then return (b, ws.tail)
        else throw "closing paren expected"
    | .unary c, w :: ws =>
      match ws with
      | [] => .error s!"{w}: argument expected"
      | v :: _ => do return (← shellUnary tree c v, ws)
    | _, w :: ws =>
      match lexeme ws with
      | .binary op =>
        match ws.tail with
        | [] => .error s!"{op}: argument expected"
        | v :: _ => do return (← shellBinary tree w op v, ws.tail)
      | _ => .ok (w != "", w :: ws)

/-- The truth of a condition in a shell, given what its first word is. -/
def shellAll (tree : FileTree) (l : Lexeme) (words : List String) : Reading Bool := do
  match ← shellRead tree (4 * words.length + 4) .either l words with
  | (_, w :: _ :: _) =>
    throw ((if w.isEmpty then "" else w ++ ": ") ++ "unexpected operator")
  | (b, _) => return b

/-- The truth of a condition in a shell. Three and four words have readings of their own. -/
def shellHolds (tree : FileTree) : List String → Reading Bool
  | [] => .ok false
  | [a, op, b] =>
    match operator? op with
    | some (.binary _) => shellAll tree .operand [a, op, b]
    | _ =>
      if a == "(" && b == ")" then shellAll tree (lexeme [op]) [op]
      else if a == "!" then (shellAll tree (lexeme [op, b]) [op, b]).map (!·)
      else shellAll tree (lexeme [a, op, b]) [a, op, b]
  | [a, b, c, d] =>
    if a == "(" && d == ")" then shellAll tree (lexeme [b, c]) [b, c]
    else if a == "!" then (shellHolds tree [b, c, d]).map (!·)
    else shellAll tree (lexeme [a, b, c, d]) [a, b, c, d]
  | words => shellAll tree (lexeme words) words
termination_by words => words.length

/-- The command inside a shell, given what stands before its complaints. -/
def inShell (tree : FileTree) (place name : String) (words : List String) : Saying :=
  ended s!"{place}{name}"
    (if name == "[" then closed "]" words >>= shellHolds tree else shellHolds tree words)

end Braceline.Toolbox.Condition
