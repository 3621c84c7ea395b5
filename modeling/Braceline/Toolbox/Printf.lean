import Braceline.Toolbox.Basic

/-!
# The command `printf`

Writes a format, which is text with escapes and directives. Each directive takes an argument, and
the format is used again for as long as it takes arguments and some are left. Numbers are whole
ones. There are two tellers of the same command, one a program and one inside a shell: they differ
in escapes, in what ends them, and in the words of their complaints.
-/

namespace Braceline.Toolbox.Printf

/-- Who runs the command. -/
inductive Teller where
  /-- A program, under the name that it was started by. -/
  | program (name : String)
  /-- A shell, with what stands before its complaints. -/
  | shell (place : String)

namespace Teller

/-- What stands before a complaint. -/
def name : Teller → String
  | program name => name
  | shell place => s!"{place}printf"

/-- The escapes in a format. -/
def formatEscapes : Teller → Escapes
  | program _ => ⟨[('e', '\x1b'), ('"', '"')], true, false, true, true⟩
  | shell _ => ⟨[('e', '\x1b')], true, false, false, false⟩

/-- The escapes in an argument that is asked to have some. -/
def argumentEscapes : Teller → Escapes
  | program _ => ⟨[('e', '\x1b'), ('"', '"')], true, true, true, true⟩
  | shell _ => ⟨[('e', '\x1b')], true, true, false, true⟩

/-- A complaint about an argument. -/
def about (t : Teller) (word said : String) : String :=
  match t with
  | program _ => s!"{t.name}: {quoted word}: {said}\n"
  | shell _ => s!"{t.name}: {word}: {said}\n"

/-- What is said of an argument that is no number. -/
def notNumeric : Teller → String
  | program _ => "expected a numeric value"
  | shell _ => "expected numeric value"

/-- What is said of a number with something behind it. -/
def notWhole : Teller → String
  | program _ => "value not completely converted"
  | shell _ => "not completely converted"

end Teller

/-- A directive: its flags, the width, the precision, and the conversion. -/
structure Directive where
  flags : List Char
  width : Option Int
  precision : Option Int
  conversion : Char

/-- Where the writing of a format stands. -/
structure Sheet where
  /-- What has been written, in reverse. -/
  out : List Char
  /-- What has been complained. -/
  err : String
  args : List String
  code : Nat
  /-- Nothing more is written. -/
  ended : Bool
  /-- Something could not be written. -/
  spoiled : Bool

/-- A whole number held to 64 bits with a sign. -/
def holdSigned (n : Int) : Int := max minInteger (min maxInteger n)

/-- A whole number held to 64 bits without a sign, which may yet have been written with one. -/
def holdUnsigned (n : Int) : Int := if n.natAbs ≤ maxUnsigned then n else maxUnsigned

namespace Sheet

/-- Writes text. -/
def write (s : Sheet) (cs : List Char) : Sheet := { s with out := cs.reverse ++ s.out }

/-- Complains, and goes on. -/
def complain (s : Sheet) (text : String) : Sheet := { s with err := s.err ++ text, code := 1 }

/-- Complains, and ends all output. -/
def fail (s : Sheet) (text : String) (code : Nat) : Sheet :=
  { s with err := s.err ++ text, code := code, ended := true }

/-- Takes the next argument, if there is one. -/
def take (s : Sheet) : Option String × Sheet := (s.args.head?, { s with args := s.args.tail })

/-- A character that a number is asked for by a quote before it, if an argument is one. -/
def character? (t : Teller) (w : String) (s : Sheet) : Option (Nat × Sheet) :=
  match w.toList with
  | '\'' :: c :: cs | '"' :: c :: cs =>
    match t, cs with
    | .program _, _ :: _ =>
      some (c.toNat, { s with
        err := s.err ++ s!"{t.name}: warning: {String.ofList cs}: " ++
          "character(s) following character constant have been ignored\n" })
    | _, _ => some (c.toNat, s)
  | _ => none

/-- Complains about what is left of an argument that is no number, or not only one. -/
def settle (t : Teller) (w : String) (s : Sheet) : Option (List Char) → Sheet
  | none => if w.isEmpty then s else s.complain (t.about w t.notNumeric)
  | some rest => if rest.isEmpty then s else s.complain (t.about w t.notWhole)

/-- Takes the next argument as a whole number, which is held to what can be taken. -/
def takeNumber (t : Teller) (hold : Int → Int) (s : Sheet) : Int × Sheet :=
  match s.take with
  | (none, s) => (0, s)
  | (some w, s) =>
    match character? t w s with
    | some (n, s) => (n, s)
    | none =>
      match readInteger? none w.toList with
      | none => (0, settle t w s none)
      | some (n, rest) =>
        if hold n ≠ n then
          (hold n, s.complain (t.about w "Numerical result out of range"))
        else (n, settle t w s (some rest))

end Sheet

/-- Text filled up to a width, which is negative if the text stands on the left. -/
def pad (d : Directive) (cs : List Char) : List Char :=
  let blanks := List.replicate ((d.width.getD 0).natAbs - cs.length) ' '
  if d.flags.contains '-' || d.width.any (· < 0) then cs ++ blanks else blanks ++ cs

/-- A precision that counts: a negative one is none. -/
def Directive.digits? (d : Directive) : Option Nat :=
  d.precision.bind fun n => if n < 0 then none else some n.toNat

/-- A number as a directive writes it: what stands before the digits, and the digits. -/
def number (d : Directive) (lead digits : List Char) : List Char :=
  let digits := match d.digits? with
    | some 0 => if digits = ['0'] then [] else digits
    | some n => List.replicate (n - digits.length) '0' ++ digits
    | none => digits
  let toLeft := d.flags.contains '-' || d.width.any (· < 0)
  if d.flags.contains '0' && !toLeft && d.digits?.isNone then
    let width := (d.width.getD 0).natAbs - lead.length
    lead ++ List.replicate (width - digits.length) '0' ++ digits
  else pad d (lead ++ digits)

/-- A number with a sign. -/
def signed (d : Directive) (n : Int) : List Char :=
  let lead :=
    if n < 0 then ['-']
    else if d.flags.contains '+' then ['+']
    else if d.flags.contains ' ' then [' ']
    else []
  number d lead (Nat.toDigits 10 n.natAbs)

/-- A number without a sign, of 64 bits. -/
def unsigned (d : Directive) (n : Int) : List Char :=
  let n := (n % 0x10000000000000000).toNat
  let alternate := d.flags.contains '#'
  match d.conversion with
  | 'o' =>
    let digits := Nat.toDigits 8 n
    number d [] (if alternate && n != 0 then '0' :: digits else digits)
  | 'x' => number d (if alternate && n != 0 then ['0', 'x'] else []) (Nat.toDigits 16 n)
  | 'X' =>
    number d (if alternate && n != 0 then ['0', 'X'] else [])
      ((Nat.toDigits 16 n).map Char.toUpper)
  | _ => number d [] (Nat.toDigits 10 n)

/-- A text as a directive writes it. -/
def text (d : Directive) (cs : List Char) : List Char :=
  pad d (match d.digits? with
    | some n => cs.take n
    | none => cs)

/-- Writes what a directive stands for. -/
def Sheet.direct (t : Teller) (d : Directive) (s : Sheet) : Sheet :=
  match d.conversion with
  | 'd' | 'i' =>
    let (n, s) := s.takeNumber t holdSigned
    s.write (signed d n)
  | 's' =>
    let (w, s) := s.take
    s.write (text d (w.getD "").toList)
  | 'b' =>
    let (w, s) := s.take
    let (cs, cut) := t.argumentEscapes.resolveWord (w.getD "")
    let code := match t with
      | .program _ => if cut then 0 else s.code
      | .shell _ => s.code
    { s.write (text d cs) with ended := cut, code := code }
  | 'c' =>
    let (w, s) := s.take
    s.write (pad d [(w.getD "").toList.headD '\x00'])
  | _ =>
    let (n, s) := s.takeNumber t holdUnsigned
    s.write (unsigned d n)

/-- The largest width and precision. -/
def maxSize : Int := 0x7FFFFFFF

/-- A number as one of 32 bits with a sign. -/
def wrapped (n : Int) : Int := (n + 0x80000000) % 0x100000000 - 0x80000000

/-- A number that a star has taken as a size, given what the size is called. A negative precision is
none, however large. -/
def starred (t : Teller) (called : String) (word : String) (n : Int) (s : Sheet) : Int × Sheet :=
  match t with
  | .shell _ => (wrapped n, s)
  | .program _ =>
    if maxSize < n ∨ (n < -maxSize - 1 ∧ called ≠ "precision") then
      (n, s.fail s!"{t.name}: invalid {called}: {quoted word}\n" 1)
    else (n, s)

/-- Reads a number of a directive, which may be a star that takes it from the arguments. -/
def readSize (t : Teller) (called : String) (s : Sheet) :
    List Char → Option Int × Sheet × List Char
  | '*' :: cs =>
    let word := s.args.headD ""
    let (n, s) := s.takeNumber t holdSigned
    let (n, s) := starred t called word n s
    (some n, s, cs)
  | cs =>
    let digits := cs.takeWhile Char.isDigit
    let value := if digits.isEmpty then none else some ((readDigits 10 cs.length 0 cs).1 : Int)
    (value, s, cs.dropWhile Char.isDigit)

/-- Does a directive ask for more than can be written? -/
def Directive.isTooLarge (d : Directive) : Bool :=
  d.width.any (maxSize < ·) || d.precision.any (maxSize < ·)

/-- The conversions. -/
def conversions : List Char := "diouxXcsb".toList

/-- A flag of a directive. -/
def isFlag (t : Teller) (c : Char) : Bool :=
  match t with
  | .program _ => "-+ 0'#I".toList.contains c
  | .shell _ => "-+ 0#".toList.contains c

/-- May the conversion have such flags, and a precision? -/
def allowed (d : Directive) : Bool :=
  !(d.flags.contains '\'' && "cosxXb".toList.contains d.conversion) &&
    !(d.flags.contains 'I' && "cosxXb".toList.contains d.conversion) &&
    !(d.flags.contains '#' && "cdisu".toList.contains d.conversion) &&
    !(d.flags.contains '0' && "cs".toList.contains d.conversion) &&
    !(d.precision.isSome && d.conversion == 'c') &&
    !(d.conversion == 'b' && (!d.flags.isEmpty || d.width.isSome || d.precision.isSome))

/-- Reads a directive after its percent sign and writes what it stands for. Gives the rest of the
format. -/
def directive (t : Teller) (s : Sheet) (format : List Char) : Sheet × List Char :=
  let flags := format.takeWhile (isFlag t)
  let (width, s, cs) := readSize t "field width" s (format.dropWhile (isFlag t))
  let (precision, s, cs) : Option Int × Sheet × List Char := match cs with
    | '.' :: cs =>
      if s.ended then (none, s, cs)
      else
        let (n, s, cs) := readSize t "precision" s cs
        (some (n.getD 0), s, cs)
    | cs => (none, s, cs)
  let cs := match t with
    | .program _ => cs.dropWhile "hlLjtz".toList.contains
    | .shell _ => cs
  let read := String.ofList ('%' :: format.take (format.length - cs.length) ++ cs.take 1)
  if s.ended then (s, [])
  else match cs with
  | [] =>
    match t with
    | .program _ => (s.fail s!"{t.name}: {read}: invalid conversion specification\n" 1, [])
    | .shell _ => (s.fail s!"{t.name}: missing format character\n" 2, [])
  | c :: rest =>
    let d : Directive := ⟨flags, width, precision, c⟩
    let known := conversions.contains c
    match t with
    | .program _ =>
      if known && allowed d then
        if d.isTooLarge then
          let s' := s.direct t { d with width := none, precision := none }
          ({ s' with out := s.out, spoiled := true }, rest)
        else (s.direct t d, rest)
      else (s.fail s!"{t.name}: {read}: invalid conversion specification\n" 1, [])
    | .shell _ =>
      if known then
        if d.isTooLarge then (s.fail s!"{t.name}: xvsnprintf failed\n" 2, [])
        else (s.direct t d, rest)
      else (s.fail s!"{t.name}: {read}: invalid directive\n" 2, [])

/-- One pass over a format. The first argument bounds the number of steps. -/
def once (t : Teller) : Nat → Sheet → List Char → Sheet
  | 0, s, _ | _, s, [] => s
  | n + 1, s, '\\' :: cs =>
    match t.formatEscapes.read cs with
    | .stop => { s with ended := true, code := 0 }
    | .char c rest => once t n (s.write [c]) rest
    | .none =>
      match t, cs with
      | .program _, 'x' :: _ =>
        s.fail s!"{t.name}: missing hexadecimal number in escape\n" 1
      | .program _, c :: cs => once t n (s.write ['\\', c]) cs
      | _, _ => once t n (s.write ['\\']) cs
  | n + 1, s, '%' :: '%' :: cs => once t n (s.write ['%']) cs
  | n + 1, s, '%' :: cs =>
    match t, cs with
    | .program _, 'q' :: rest =>
      let (w, s) := s.take
      once t n (s.write ((w.map asWord).getD "").toList) rest
    | _, _ =>
      let (s, rest) := directive t s cs
      if s.ended then s else once t n s rest
  | n + 1, s, c :: cs => once t n (s.write [c]) cs

/-- Passes over a format for as long as it takes up arguments and some are left. The first argument
bounds the number of passes. -/
def passes (t : Teller) (format : List Char) : Nat → Sheet → Sheet
  | 0, s => s
  | n + 1, s =>
    let s' := once t (format.length + 1) s format
    if s'.ended || s'.args.isEmpty || s.args.length ≤ s'.args.length then s'
    else passes t format n s'

/-- Writes a format with arguments. -/
def written (t : Teller) (format : String) (args : List String) : Saying :=
  let s := passes t format.toList (args.length + 1) ⟨[], "", args, 0, false, false⟩
  let excess := match t, s.args with
    | .program _, w :: _ =>
      if s.ended then ""
      else s!"{t.name}: warning: ignoring excess arguments, starting with {quoted w}\n"
    | _, _ => ""
  let lost := if s.spoiled then s!"{t.name}: write error\n" else ""
  ⟨if s.spoiled then 1 else s.code, String.ofList s.out.reverse, s.err ++ excess ++ lost⟩

/-- The command as a program, under the name that it was started by. -/
def run (name : String) : List String → Saying
  | [] | ["--"] =>
    complained 1 s!"{name}: missing operand\nTry '{name} --help' for more information.\n"
  | "--" :: format :: args | format :: args => written (.program name) format args

/-- The command inside a shell, given what stands before its complaints. -/
def inShell (place : String) : List String → Saying
  | [] | ["--"] => complained 2 s!"{place}printf: usage: printf format [arg ...]\n"
  | "--" :: format :: args => written (.shell place) format args
  | format :: args =>
    match format.toList with
    | '-' :: c :: _ => complained 2 s!"{place}printf: Illegal option -{c}\n"
    | _ => written (.shell place) format args

end Braceline.Toolbox.Printf
