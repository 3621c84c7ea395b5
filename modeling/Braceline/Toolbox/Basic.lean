import Braceline.Command
import Braceline.Environment
import Braceline.Toolbox.Bytes
import Braceline.FileTree

/-!
# Standard commands

Commands that write text and tell how they ended, as functions of their arguments. They are what an
interpreter setting can be tried with where there is no interpreter. All their texts are texts of
bytes. This module holds what they share: what they run in and what comes of them, looking for
programs, arguments quoted in complaints and as words of a script, whole numbers in arguments, and
escapes.
-/

namespace Braceline.Toolbox

/-! ### Files under paths of bytes -/

/-- What stands under a path. -/
def entryAt (tree : FileTree) (path : String) : Except SystemError Entry :=
  tree.find (Bytes.toText path)

/-- The place that a path leads to. -/
def placeAt (tree : FileTree) (path : String) : Except SystemError (List String) :=
  tree.resolve (Bytes.toText path)

/-- The content of the file at a path, as a text of bytes. -/
def contentAt (tree : FileTree) (path : String) : Except SystemError String :=
  (tree.read (Bytes.toText path)).map Bytes.ofByteArray

/-- The command that the program at a path holds. -/
def commandAt (tree : FileTree) (path : String) : Except SystemError String :=
  tree.commandAt (Bytes.toText path)

/-! ### What commands run in, and what comes of them -/

/-- Can a stream be written to? -/
inductive Sink where
  | ready
  /-- It has been closed. -/
  | closed
  /-- It leads to a place without space. -/
  | full
  deriving DecidableEq, Repr

/-- Why nothing can be written, if so. -/
def Sink.refusal? : Sink → Option String
  | ready => none
  | closed => some "Bad file descriptor"
  | full => some "No space left on device"

/-- What a command runs in: files, variables, the text on standard input, and where what it writes
goes. -/
structure Surroundings where
  tree : FileTree
  env : Env
  input : String
  /-- Standard input can be read. -/
  reads : Bool
  out : Sink
  /-- The file that standard input is read from, and the byte that is read next, if it is one. -/
  source : Option (List String × Nat)
  /-- The file that standard output goes to, if it is one. -/
  target : Option (List String)
  /-- The permissions that new files do not get. -/
  mask : Nat

/-- What comes of a command: how it ended, what it wrote to which stream, in order, and what it left
of the files and of standard input. -/
structure Outcome where
  status : Status
  written : List (Nat × String)
  tree : FileTree
  input : String

/-- What runs the command that a program holds, given the words that it was started by. -/
abbrev Runner := Surroundings → String → List String → Outcome

/-- What a command says, apart from what it leaves. -/
structure Saying where
  code : Nat
  stdout : String
  stderr : String
  deriving DecidableEq, Repr

/-- A command that wrote to standard output. -/
def said (stdout : String) : Saying := ⟨0, stdout, ""⟩

/-- A command that wrote nothing. -/
def silent (code : Nat) : Saying := ⟨code, "", ""⟩

/-- A command that complained. -/
def complained (code : Nat) (stderr : String) : Saying := ⟨code, "", stderr⟩

/-- What comes of a command that writes all its output at its end, and leaves all else as it is.
What cannot be written is complained of, with a status for that. -/
def Saying.outcome (s : Saying) (around : Surroundings) (name : String) (lost : Nat) :
    Outcome :=
  match s.stdout.isEmpty, around.out.refusal? with
  | false, some reason =>
    ⟨.exited lost, [(2, s!"{s.stderr}{name}: write error: {reason}\n")], around.tree,
      around.input⟩
  | _, _ => ⟨.exited s.code, [(2, s.stderr), (1, s.stdout)], around.tree, around.input⟩

/-- What an outcome wrote to a stream. -/
def Outcome.text (o : Outcome) (stream : Nat) : String :=
  String.join ((o.written.filter (·.1 == stream)).map (·.2))

/-! ### Looking for programs -/

/-- The path that commands are looked up on where no other is given. -/
def usualPath : String := "/usr/local/sbin:/usr/local/bin:/usr/sbin:/usr/bin:/sbin:/bin"

/-- The path that commands are looked up on in an environment that names none. -/
def barePath : String := "/bin:/usr/bin"

/-- The directories that a path lists. -/
def directories (path : String) : List String :=
  (Text.pieces ':' path.toList).map String.ofList

/-- Looks for a program in directories, given what the last look came to. A file that is no program
is remembered in case there is no other; a refusal of another kind ends the search. -/
def lookUp (tree : FileTree) (name : String) (denied : Bool) (last : SystemError) :
    List String → Except SystemError String
  | [] => .error (if denied then .denied else last)
  | d :: ds =>
    match commandAt tree (if d.isEmpty then name else s!"{d}/{name}") with
    | .ok command => .ok command
    | .error .denied => lookUp tree name true .denied ds
    | .error .notFound => lookUp tree name denied .notFound ds
    | .error .notDirectory => lookUp tree name denied .notDirectory ds
    | .error e => .error e

/-- The command that a program holds, which is named by a path or looked up on one. -/
def search (tree : FileTree) (path program : String) : Except SystemError String :=
  if program.isEmpty then .error .notFound
  else if program.toList.contains '/' then commandAt tree program
  else lookUp tree program false .notFound (directories path)

/-! ### Quoted arguments -/

/-- The letter that stands for a control character after a backslash. -/
def controlLetter? (c : Char) : Option Char :=
  [('\x07', 'a'), ('\x08', 'b'), ('\x0c', 'f'), ('\n', 'n'), ('\r', 'r'), ('\t', 't'),
    ('\x0b', 'v')].lookup c

/-- A byte as a backslash and three octal digits. -/
def octal (c : Char) : List Char :=
  '\\' :: [64, 8, 1].map fun n => Char.ofNat (c.toNat / n % 8 + 48)

/-- Is a byte a character that is written as it is? -/
def isPrintable (c : Char) : Bool := 0x20 ≤ c.toNat && c.toNat < 0x7F

/-- A character of an argument as a complaint shows it. -/
def quotedChar (c : Char) : List Char :=
  if c = '\'' then ['\\', '\'']
  else if c = '\\' then ['\\', '\\']
  else
    match controlLetter? c with
    | some l => ['\\', l]
    | none =>
      if isPrintable c then [c] else octal c

/-- An argument as a complaint shows it. -/
def quoted (word : String) : String :=
  String.ofList ('\'' :: word.toList.flatMap quotedChar ++ ['\''])

/-! ### Arguments as words of a script -/

/-- Does a word with such a character need quotes? Some characters need them at the start of a word
or as the whole of it. -/
def needsQuotes (start alone : Bool) (c : Char) : Bool :=
  if c = '{' ∨ c = '}' then alone
  else if c = '#' ∨ c = '~' then start
  else c == ' ' || !isPrintable c || "?\\!\"$&()*;<=>[^`|'".toList.contains c

/-- May a character stand between double quotes, in a word that needs quotes? -/
def isMild (start alone : Bool) (c : Char) : Bool :=
  if c = '{' ∨ c = '}' then alone
  else if c = '#' ∨ c = '~' then start
  else isPrintable c && !"?\\!\"$&()*;<=>[^`|".toList.contains c

/-- Does a predicate hold of every character, told where it stands? -/
def everywhere (p : Bool → Bool → Char → Bool) : List Char → Bool
  | [] => true
  | [c] => p true true c
  | c :: cs => p true false c && cs.all (p false false)

/-- A character that a word of a script shows by an escape. -/
def wordEscape? (c : Char) : Option (List Char) :=
  match controlLetter? c with
  | some l => some ['\\', l]
  | none => if isPrintable c then none else some (octal c)

/-- The inside of a quoted word. The first argument tells whether the text before is an escape. -/
def wordBody : Bool → List Char → List Char
  | _, [] => []
  | escaping, c :: cs =>
    match wordEscape? c with
    | some e => (if escaping then e else ['\'', '$', '\''] ++ e) ++ wordBody true cs
    | none =>
      if c = '\'' then "'\\''".toList ++ wordBody false cs
      else (if escaping then ['\'', '\'', c] else [c]) ++ wordBody false cs

/-- An argument as a word of a script, in quotes. -/
def asQuotedWord (word : String) : String :=
  let cs := word.toList
  let single := cs.contains '\''
  if single && everywhere isMild cs then String.ofList ('"' :: cs ++ ['"'])
  else
    let escaping := single && (cs.getLast?.bind wordEscape?).isSome
    String.ofList ('\'' :: wordBody escaping cs ++ ['\''])

/-- An argument as a word of a script. -/
def asWord (word : String) : String :=
  let plain := everywhere fun start alone c => !needsQuotes start alone c
  if !word.isEmpty && plain word.toList then word else asQuotedWord word

/-! ### Whole numbers -/

/-- White space in front of a number. -/
def isSpaceByte (c : Char) : Bool := c == ' ' || (9 ≤ c.toNat && c.toNat ≤ 13)

/-- The value of a digit, in bases up to sixteen. -/
def digitValue? (c : Char) : Option Nat :=
  if c.isDigit then some (c.toNat - 48)
  else if 'a' ≤ c ∧ c ≤ 'f' then some (c.toNat - 87)
  else if 'A' ≤ c ∧ c ≤ 'F' then some (c.toNat - 55)
  else none

/-- Reads digits of a base after a value, and at most so many: the value and the rest. -/
def readDigits (base : Nat) : Nat → Nat → List Char → Nat × List Char
  | most + 1, value, c :: cs =>
    match digitValue? c with
    | some d => if d < base then readDigits base most (base * value + d) cs else (value, c :: cs)
    | none => (value, c :: cs)
  | _, value, cs => (value, cs)

/-- Reads a whole number, which may have a sign: the value and the rest. With no base given, `0x`
stands before hexadecimal digits and `0` before octal ones. -/
def readInteger? (base : Option Nat) (cs : List Char) : Option (Int × List Char) :=
  let (sign, cs) : Int × List Char := match cs.dropWhile isSpaceByte with
    | '-' :: cs => (-1, cs)
    | '+' :: cs => (1, cs)
    | cs => (1, cs)
  let (base, body) := match base, cs with
    | some b, _ => (b, cs)
    | none, '0' :: x :: d :: _ =>
      if (x == 'x' || x == 'X') && (digitValue? d).isSome then (16, cs.drop 2) else (8, cs)
    | none, '0' :: _ => (8, cs)
    | none, _ => (10, cs)
  let (value, rest) := readDigits base body.length 0 body
  if rest.length = body.length then none else some (sign * value, rest)

/-- The largest and the smallest number of 64 bits, and the largest without a sign. -/
def maxInteger : Int := 0x7FFFFFFFFFFFFFFF

@[inherit_doc maxInteger] def minInteger : Int := -0x8000000000000000

@[inherit_doc maxInteger] def maxUnsigned : Int := 0xFFFFFFFFFFFFFFFF

/-! ### Escapes -/

/-- Which escapes a text may hold besides letters. -/
structure Escapes where
  /-- More letters, with what they stand for. -/
  letters : List (Char × Char)
  /-- Up to three octal digits may follow the backslash. -/
  octal : Bool
  /-- Up to three octal digits may follow the backslash and a zero. -/
  zeroOctal : Bool
  /-- One or two hexadecimal digits may follow the backslash and an `x`. -/
  hex : Bool
  /-- A `c` ends all output. -/
  stops : Bool

/-- What every backslash escape of one letter stands for. -/
def escapeLetters : List (Char × Char) :=
  [('a', '\x07'), ('b', '\x08'), ('f', '\x0c'), ('n', '\n'), ('r', '\r'), ('t', '\t'),
    ('v', '\x0b'), ('\\', '\\')]

/-- What the text after a backslash stands for. -/
inductive Escaped where
  | char (c : Char) (rest : List Char)
  | stop
  /-- The backslash stands for itself. -/
  | none

/-- The byte of a number. -/
def byteChar (n : Nat) : Char := Char.ofNat (n % 256)

/-- What the text after a backslash stands for. -/
def Escapes.read (e : Escapes) : List Char → Escaped
  | [] => .none
  | c :: cs =>
    let isOctal := (digitValue? c).any (· < 8)
    match (escapeLetters ++ e.letters).lookup c with
    | some x => .char x cs
    | none =>
      if c = 'c' ∧ e.stops then .stop
      else if c = '0' ∧ e.zeroOctal then
        let (n, rest) := readDigits 8 3 0 cs
        .char (byteChar n) rest
      else if e.octal && isOctal then
        let (n, rest) := readDigits 8 3 0 (c :: cs)
        .char (byteChar n) rest
      else if c = 'x' ∧ e.hex then
        let (n, rest) := readDigits 16 2 0 cs
        if rest.length = cs.length then .none else .char (byteChar n) rest
      else .none

/-- A text with its escapes resolved, and whether it has been cut off. The first argument bounds
the number of steps. -/
def Escapes.resolve (e : Escapes) : Nat → List Char → List Char × Bool
  | 0, cs => (cs, false)
  | _, [] => ([], false)
  | n + 1, '\\' :: cs =>
    match e.read cs with
    | .stop => ([], true)
    | .char c rest =>
      let r := e.resolve n rest
      (c :: r.1, r.2)
    | .none =>
      let r := e.resolve n cs
      ('\\' :: r.1, r.2)
  | n + 1, c :: cs =>
    let r := e.resolve n cs
    (c :: r.1, r.2)

/-- A word with its escapes resolved, and whether it has been cut off. -/
def Escapes.resolveWord (e : Escapes) (word : String) : List Char × Bool :=
  e.resolve word.length word.toList

/-- Words with their escapes resolved and a space between them, up to where they are cut off. -/
def Escapes.resolveWords (e : Escapes) : List String → List Char × Bool
  | [] => ([], false)
  | [w] => e.resolveWord w
  | w :: ws =>
    let (cs, cut) := e.resolveWord w
    if cut then (cs, true)
    else
      let r := e.resolveWords ws
      (cs ++ ' ' :: r.1, r.2)

end Braceline.Toolbox
