import Braceline.Toolbox.Shell.Syntax

/-!
# Where a reader of a script stands

A script is read character by character, on demand, as what has been run may change how the rest is
read. The text of an alias is read in place of its name, before the text that follows.
-/

namespace Braceline.Toolbox.Shell

/-- The text of an alias, as far as it has not been read. -/
structure Substitute where
  name : String
  rest : List Char
  /-- It ends with a blank, so that the next word may be an alias, too. -/
  blank : Bool

/-- What the next token is looked at for. -/
structure Checks where
  /-- Line feeds before it are passed over. -/
  lines : Bool
  keywords : Bool
  aliases : Bool
  /-- It is the mark that closes a document, in which nothing is put in. -/
  closing : Bool

/-- The token is looked at for nothing. -/
def Checks.none : Checks := ⟨false, false, false, false⟩

/-- A document that a redirection reads and that has not been read. -/
structure Pending where
  id : Nat
  /-- The line that closes it. -/
  closer : List Char
  /-- Tabs at the beginning of lines do not count. -/
  stripped : Bool
  /-- Parameters, commands and sums are put in. -/
  expands : Bool

/-- What a script is made of. -/
inductive Token where
  | finish
  | newline
  | redirect
  | word
  | operator (text : String)
  | keyword (text : String)
  deriving DecidableEq, Repr

namespace Token

/-- How a complaint calls it. -/
def describe : Token → String
  | finish => "end of file"
  | newline => "newline"
  | redirect => "redirection"
  | word => "word"
  | operator t | keyword t => s!"\"{t}\""

/-- The words that mean something of their own where a command may begin. -/
def keywords : List String :=
  ["!", "case", "do", "done", "elif", "else", "esac", "fi", "for", "if", "in", "then", "until",
    "while", "\x7b", "\x7d"]

/-- Does it end a list of commands inside a command? -/
def endsList : Token → Bool
  | finish => true
  | operator t => t == ")" || t == ";;"
  | keyword t => ["do", "done", "elif", "else", "esac", "fi", "then", "\x7d"].contains t
  | _ => false

end Token

/-- Where a reader of a script stands: what is ahead, the line, the last token, which is read again
if `again`, with the last word and redirection, and documents. -/
structure Reader where
  substitutes : List Substitute
  /-- Aliases whose texts have come to their end at the last character. -/
  spent : List String
  /-- Aliases whose texts are being read where the reader will go back to. -/
  busy : List String
  text : List Char
  /-- No more characters than these are ahead. -/
  limit : Nat
  line : Nat
  token : Token
  again : Bool
  word : Word
  /-- The last word holds a quoted character. -/
  quoted : Bool
  stream : Nat
  redirection : Redirection
  /-- The document that is redirected from has tabs that do not count. -/
  stripped : Bool
  checks : Checks
  pending : List Pending
  documents : List (Nat × Word)
  nextDocument : Nat
  aliases : List (String × String)

/-- Why a script cannot be read, and on which line. -/
structure Fault where
  line : Nat
  reason : String

/-- Reads a script. -/
abbrev Read := StateT Reader (Except Fault)

namespace Reader

/-- Where a reader of a script begins. -/
def ofScript (cs : List Char) : Reader :=
  ⟨[], [], [], cs, cs.length, 1, .newline, false, [], false, 0, .read, false, .none, [], [], 0, []⟩

/-- The alias of a name, unless its text is being read. -/
def alias? (r : Reader) (name : String) : Option String :=
  if r.busy.contains name || r.spent.contains name || r.substitutes.any (·.name == name) then none
  else r.aliases.lookup name

/-- Is nothing left to read? -/
def isDone (r : Reader) : Bool := r.text.isEmpty && r.substitutes.all (·.rest.isEmpty)

end Reader

namespace Read

/-- Gives up. -/
def fault {α : Type} (reason : String) : Read α := do throw ⟨(← get).line, reason⟩

/-- The next character. Where the text of an alias is at its end, what follows it is read. -/
def getc : Read (Option Char) := do
  let rec go (spent : List String) : List Substitute → Read (Option Char)
    | [] => do
      let r ← get
      match r.text with
      | [] =>
        set { r with substitutes := [], spent := spent }
        return none
      | c :: cs =>
        set { r with substitutes := [], spent := spent, text := cs }
        return some c
    | s :: others =>
      match s.rest with
      | [] => do
        if s.blank then modify fun r => { r with checks := { r.checks with aliases := true } }
        go (s.name :: spent) others
      | c :: cs => do
        modify fun r =>
          { r with substitutes := { s with rest := cs } :: others, spent := spent }
        return some c
  go [] (← get).substitutes

/-- Puts characters back. -/
def back (cs : List Char) : Read Unit :=
  modify fun r =>
    match r.substitutes with
    | [] => { r with text := cs ++ r.text }
    | s :: others => { r with substitutes := { s with rest := cs ++ s.rest } :: others }

/-- Puts a character back, if there was one. -/
def ungetc (c : Option Char) : Read Unit := back c.toList

/-- Goes to the next line. -/
def nextLine : Read Unit := modify fun r => { r with line := r.line + 1 }

/-- The next character after lines that are continued. The first argument bounds their number. -/
def getcJoined : Nat → Read (Option Char)
  | 0 => getc
  | n + 1 => do
    match ← getc with
    | some '\\' =>
      match ← getc with
      | some '\n' =>
        nextLine
        getcJoined n
      | d =>
        ungetc d
        return some '\\'
    | c => return c

/-- The next character after lines that are continued. -/
def next : Read (Option Char) := do getcJoined ((← get).limit + 1)

/-- Puts the text of an alias in the place of its name. -/
def substitute (name text : String) : Read Unit :=
  modify fun r =>
    let blank := text.endsWith " " || text.endsWith "\t"
    { r with
      substitutes := ⟨name, text.toList, blank⟩ :: r.substitutes
      limit := r.limit + text.length }

/-- Reads another text in place of what is ahead. -/
def elsewhere {α : Type} (cs : List Char) (line : Nat) (read : Read α) : Read α := do
  let r ← get
  let busy := r.substitutes.map (·.name) ++ r.busy
  set { r with substitutes := [], busy := busy, text := cs, line := line }
  let a ← read
  modify fun s =>
    { s with substitutes := r.substitutes, busy := r.busy, text := r.text, line := r.line }
  return a

end Read

end Braceline.Toolbox.Shell
