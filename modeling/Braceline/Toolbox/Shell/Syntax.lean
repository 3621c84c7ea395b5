import Braceline.Toolbox.Basic

/-!
# Commands of a shell script

The words and commands that a script is made of. A word is a row of pieces: characters, quote marks,
and what stands for a text that is known only when the script runs, which is a parameter, a command
or a sum.
-/

namespace Braceline.Toolbox.Shell

/-- A parameter of the shell. -/
inductive Param where
  | variable (name : String)
  | positional (n : Nat)
  | count
  | status
  | process
  | options
  /-- All positional ones; joined to one word if quoted with a star. -/
  | all (joined : Bool)
  deriving DecidableEq, Repr

namespace Param

/-- The parameter of a special character. -/
def ofSpecial? (c : Char) : Option Param :=
  match c with
  | '#' => some .count
  | '?' => some .status
  | '$' => some .process
  | '-' => some .options
  | '@' => some (.all false)
  | '*' => some (.all true)
  | _ => none

/-- How a complaint calls a parameter. -/
def describe : Param → String
  | .variable name => name
  | .positional n => toString n
  | .count => "#"
  | .status => "?"
  | .process => "$"
  | .options => "-"
  | .all joined => if joined then "*" else "@"

end Param

/-- What happens where a parameter has no value, or where it has one. -/
inductive Fallback where
  | use
  | assign
  | alternative
  | complain
  deriving DecidableEq, Repr

/-- How a parameter is used, where a word may go with it. -/
inductive Use where
  | plain
  | length
  /-- With the word in place of no value, and of an empty one if `orEmpty`. -/
  | fallback (kind : Fallback) (orEmpty : Bool)
  /-- Without what matches the word at one end. -/
  | trim (front longest : Bool)
  /-- In no way that there is. -/
  | bad
  deriving DecidableEq, Repr

/-- What a redirection does with a stream. -/
inductive Redirection where
  | read
  | write
  /-- Writes over a file even where that is not wanted. -/
  | clobber
  | append
  | readWrite
  /-- Makes it the same as another one. -/
  | copy
  /-- Reads a text that stands in the script, by its number. -/
  | document (id : Nat)
  deriving DecidableEq, Repr

mutual

/-- A stretch of a word. -/
inductive Piece where
  | plain (c : Char)
  /-- A character that stands for itself, whatever it is. -/
  | escaped (c : Char)
  /-- A quote mark, which begins or ends quoting and makes a word even if nothing is quoted. -/
  | mark
  | param (p : Param) (use : Use) (word : List Piece)
  | command (script : Tree)
  | sum (text : List Piece)

/-- A redirection of a command's stream. -/
inductive Redirect where
  | mk (stream : Nat) (kind : Redirection) (target : List Piece)

/-- A command. -/
inductive Tree where
  | nothing
  /-- Assignments, words and redirections, on a line. -/
  | simple (line : Nat) (assigned : List (String × List Piece)) (words : List (List Piece))
    (redirects : List Redirect)
  | seq (a b : Tree)
  | both (a b : Tree)
  | either (a b : Tree)
  | negated (a : Tree)
  | pipe (a b : Tree)
  | branch (test yes no : Tree)
  /-- Repeats `body` as long as `test` holds, or fails if `fails`. -/
  | loop (fails : Bool) (test body : Tree)
  /-- Repeats `body` for each field of the words, or for each argument. -/
  | each (line : Nat) (name : String) (words : Option (List (List Piece))) (body : Tree)
  | choose (line : Nat) (word : List Piece) (clauses : Tree)
  | clause (patterns : List (List Piece)) (body next : Tree)
  | subshell (line : Nat) (a : Tree) (redirects : List Redirect)
  | redirected (line : Nat) (a : Tree) (redirects : List Redirect)
  | define (line : Nat) (name : String) (body : Tree)

end

instance : Inhabited Tree := ⟨.nothing⟩

/-- The stream that a redirection is about. -/
def Redirect.stream : Redirect → Nat
  | .mk stream _ _ => stream

/-- Does a command do nothing? -/
def Tree.isNothing : Tree → Bool
  | .nothing => true
  | _ => false

/-- A word. -/
abbrev Word := List Piece

namespace Word

/-- The text of a word that is made of plain characters. -/
def bare? (w : Word) : Option String :=
  let plain := fun (p : Piece) =>
    match p with
    | .plain c => some c
    | _ => none
  (w.mapM plain).map String.ofList

/-- The characters of a word that holds nothing else but quote marks. -/
def text (w : Word) : List Char :=
  w.filterMap fun p =>
    match p with
    | .plain c | .escaped c => some c
    | _ => none

end Word

/-- May a character stand in a name? -/
def isNameChar (c : Char) : Bool := c.isAlphanum || c == '_'

/-- May a character begin a name? -/
def isNameStart (c : Char) : Bool := c.isAlpha || c == '_'

/-- Is a text the name of a variable? -/
def isName (cs : List Char) : Bool := cs.head?.any isNameStart && cs.all isNameChar

/-- The assignment that a word is: the name and the value. -/
def assignment? (w : Word) : Option (String × Word) :=
  let beforeEquals := fun (p : Piece) =>
    match p with
    | .plain c => c != '='
    | _ => false
  match w.dropWhile beforeEquals with
  | .plain '=' :: value =>
    match Word.bare? (w.takeWhile beforeEquals) with
    | some name => if isName name.toList then some (name, value) else none
    | none => none
  | _ => none

/-- The commands of a shell that no function can take the name of. -/
def specialNames : List String :=
  [".", ":", "break", "continue", "eval", "exec", "exit", "export", "local", "readonly", "return",
    "set", "shift", "trap", "unset"]

end Braceline.Toolbox.Shell
