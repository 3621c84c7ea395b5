import Braceline.Toolbox.Shell.Reader

/-!
# Words of a script

Words are read character by character, by what a character means where it stands: outside quotes,
between quotes, or in a sum. The pieces of a word come out in a row, in which what belongs to a
parameter or to a sum stands between a beginning and an end; `nest` puts it into its place.
-/

namespace Braceline.Toolbox.Shell

/-- A stretch of a word as it is read. -/
inductive Stretch where
  | piece (p : Piece)
  /-- What a parameter is used with begins here. -/
  | opens (p : Param) (use : Use)
  | closes
  | sumOpens
  | sumCloses

namespace Stretch

/-- Puts what belongs together into its place: the pieces up to an end, and the stretches after it.
The first argument bounds the number of stretches. -/
def nestTo : Nat → List Stretch → List Piece × List Stretch
  | 0, ss => ([], ss)
  | _, [] => ([], [])
  | n + 1, s :: ss =>
    let further := fun (p : Piece) (rest : List Stretch) =>
      let (ps, rest) := nestTo n rest
      (p :: ps, rest)
    match s with
    | .piece p => further p ss
    | .opens p use =>
      let (inner, rest) := nestTo n ss
      further (.param p use inner) rest
    | .sumOpens =>
      let (inner, rest) := nestTo n ss
      further (.sum inner) rest
    | .closes | .sumCloses => ([], ss)

/-- The word that stretches make. -/
def nest (ss : List Stretch) : Word := (nestTo ss.length ss).1

end Stretch

/-- What characters mean where they stand. -/
inductive Setting where
  | base
  | double
  | single
  | sum
  deriving DecidableEq, Repr

/-- What is open at a place in a word. -/
structure Level where
  setting : Setting
  /-- Double quotes are around. -/
  double : Bool
  /-- Double quotes are around inside the braces of a parameter. -/
  innerDouble : Bool
  /-- The braces of a parameter have opened the level. -/
  ofBraces : Bool
  /-- How many braces of parameters are open. -/
  braces : Nat
  /-- How many of them are between double quotes. -/
  quotedBraces : Nat
  /-- How many parentheses are open in a sum. -/
  parens : Nat

namespace Level

/-- A level with nothing open. -/
def ofSetting (s : Setting) : Level := ⟨s, s = .double || s = .sum, false, false, 0, 0, 0⟩

end Level

/-- Where the reading of a word stands: what has been read, in reverse, and what is open. -/
structure Scan where
  out : List Stretch
  level : Level
  outer : List Level
  /-- A character has been quoted. -/
  quoted : Bool
  /-- The word is a document. -/
  isDocument : Bool

namespace Scan

/-- Adds a stretch. -/
def add (s : Scan) (x : Stretch) : Scan := { s with out := x :: s.out }

/-- Adds a piece. -/
def put (s : Scan) (p : Piece) : Scan := s.add (.piece p)

/-- Adds a quote mark, which means nothing in a document. -/
def putMark (s : Scan) : Scan := if s.isDocument then s else s.put .mark

/-- Changes the innermost level. -/
def alter (s : Scan) (f : Level → Level) : Scan := { s with level := f s.level }

/-- Opens a level. -/
def push (s : Scan) (l : Level) : Scan := { s with level := l, outer := s.level :: s.outer }

/-- Closes a level. -/
def pop (s : Scan) : Scan :=
  match s.outer with
  | [] => s
  | l :: ls => { s with level := l, outer := ls }

/-- Turns the quoting inside the braces of a parameter on or off, and marks it. -/
def toggle (s : Scan) : Scan :=
  (if s.level.braces = 0 then s
    else s.alter fun l => { l with innerDouble := !l.innerDouble }).putMark

end Scan

/-- The fallback of a character. -/
def Fallback.ofChar? (c : Char) : Option Fallback :=
  match c with
  | '-' => some .use
  | '=' => some .assign
  | '+' => some .alternative
  | '?' => some .complain
  | _ => none

/-- Is it a character that means something in patterns and paths, so that quotes keep it from
that? -/
def isDelicate (c : Char) : Bool := "!*?[=~:/-]".toList.contains c

/-- May it stand after a dollar sign as a parameter's name? -/
def isParameterChar (c : Char) : Bool := isNameChar c || (Param.ofSpecial? c).isSome

namespace Read

/-- Reads the characters of a name after its first ones: the name, and the character after it. The
first argument bounds their number. -/
def nameFrom (p : Char → Bool) : Nat → List Char → Read (List Char × Option Char)
  | 0, cs => return (cs.reverse, none)
  | n + 1, cs => do
    let c ← next
    match c with
    | some x => if p x then nameFrom p n (x :: cs) else return (cs.reverse, c)
    | none => return (cs.reverse, none)

/-- What a parameter is used for, as far as its name tells. -/
inductive Naming where
  /-- A name, and the character after it. -/
  | named (p : Param) (c : Option Char)
  /-- A number sign in front of a name, which asks for a length. -/
  | measured (p : Param) (c : Option Char)
  /-- No name; the character is read again. -/
  | unnamed (c : Option Char)

/-- Reads a name that begins with a character, and the character after it, unless none does. -/
def plainName? (braced : Bool) (c : Option Char) : Read (Option (Param × Option Char)) := do
  let size := (← get).limit + 1
  match c with
  | none => return none
  | some x =>
    if isNameStart x then
      let (name, d) ← nameFrom isNameChar size [x]
      return some (.variable (String.ofList name), d)
    else if x.isDigit then
      if braced then
        let (name, d) ← nameFrom Char.isDigit size [x]
        return some (.positional (readDigits 10 name.length 0 name).1, d)
      else return some (.positional (x.toNat - 48), ← next)
    else return none

/-- Reads the name of a parameter that begins with a character. -/
def naming (braced : Bool) (c : Option Char) : Read Naming := do
  match ← plainName? braced c with
  | some (p, d) => return .named p d
  | none =>
    match c with
    | none | some '\x7d' => return .unnamed c
    | some x =>
      let d ← next
      if braced && x == '#' then
        match ← plainName? braced d with
        | some (p, e) => return .measured p e
        | none =>
          let e ← next
          if d = some '\x7d' ∨ e ≠ some '\x7d' then
            ungetc e
            return .named .count d
          else
            match d.bind Param.ofSpecial? with
            | some p => return .measured p e
            | none => return .unnamed e
      else
        match Param.ofSpecial? x with
        | some p => return .named p d
        | none => return .unnamed d

/-- Reads how a parameter in braces is used, given the character after its name. -/
def usage (c : Option Char) : Read Use := do
  let (orEmpty, c) ← if c = some ':' then pure (true, ← next) else pure (false, c)
  match c with
  | none => return .bad
  | some '\x7d' => return .plain
  | some x =>
    match Fallback.ofChar? x with
    | some kind => return .fallback kind orEmpty
    | none =>
      if !orEmpty && (x == '%' || x == '#') then
        let d ← next
        if d = c then return .trim (x == '#') true
        else
          ungetc d
          return .trim (x == '#') false
      else return .bad

/-- Adds a parameter whose braces are to be closed. Without one, the text up to there counts as if
it stood before the braces. -/
def openBraces (s : Scan) (opened : Option (Param × Use)) : Scan :=
  let setting := match opened with
    | some (_, .trim _ _) => .base
    | _ => if s.level.setting = .sum then .double else s.level.setting
  let s :=
    if setting ≠ s.level.setting ∨ s.level.innerDouble then
      s.push { Level.ofSetting setting with ofBraces := true, double := setting ≠ .base }
    else s
  let s := s.alter fun l =>
    { l with
      braces := l.braces + 1
      quotedBraces := if l.double then l.quotedBraces + 1 else l.quotedBraces }
  match opened with
  | some (p, use) => s.add (.opens p use)
  | none => s

/-- Reads a parameter after its dollar sign, given the first character. -/
def parameter (s : Scan) (c : Option Char) : Read Scan := do
  let braced := c = some '\x7b'
  let c ← if braced then next else pure c
  match ← naming braced c with
  | .unnamed d =>
    ungetc d
    return openBraces s (some (.status, .bad))
  | .measured p d =>
    ungetc d
    return openBraces s (some (p, if d = some '\x7d' then .length else .bad))
  | .named p d =>
    if braced then
      match ← usage d with
      | .plain =>
        let s := s.put (.param p .plain [])
        return if d = some ':' then openBraces s none else s
      | use => return openBraces s (some (p, use))
    else
      ungetc d
      return s.put (.param p .plain [])

/-- Reads a script between back quotes, without the backslashes that keep it together. The first
argument bounds its size. -/
def backquoted (double : Bool) : Nat → Read (List Char)
  | 0 => fault "EOF in backquote substitution"
  | n + 1 => do
    match ← next with
    | none => fault "EOF in backquote substitution"
    | some '`' => return []
    | some '\\' =>
      let c ← getc
      match c with
      | none => fault "EOF in backquote substitution"
      | some x =>
        let cs ← backquoted double n
        if x == '\\' || x == '`' || x == '$' || (double && x == '"') then return x :: cs
        else return '\\' :: x :: cs
    | some c =>
      if c = '\n' then nextLine
      return c :: (← backquoted double n)

/-- Looks for the end of a document at the beginning of a line, given the line's first character:
nothing is left of the document where it is. -/
def atCloser (p : Pending) (c : Option Char) : Read (Option Char) := do
  let size := (← get).limit + 1
  let rec skipTabs : Nat → Option Char → Read (Option Char)
    | n + 1, some '\t' => do skipTabs n (← getc)
    | _, c => return c
  let c ← if p.stripped then skipTabs size c else pure c
  let rec follow (taken : List Char) : List Char → Option Char → Read (Option (Option Char))
    | [], d => do
      if d = some '\n' ∨ d = none then
        nextLine
        return none
      else
        back (taken.reverse ++ d.toList)
        return some c
    | x :: xs, d => do
      if d = some x then follow (x :: taken) xs (← getc)
      else
        back (taken.reverse ++ d.toList)
        return some c
  match ← follow [] p.closer c with
  | none => return none
  | some _ => getc

/-- What a word may hold. -/
structure Kind where
  /-- The document that it is. -/
  document : Option Pending
  /-- It is the mark that closes a document. -/
  closing : Bool

/-- Takes back the characters of a dollar sign that begins nothing. -/
def bareDollar (s : Scan) (c : Option Char) : Read Scan := do
  ungetc c
  return s.put (.plain '$')

/-- Reads what a dollar sign begins. `script` reads a script up to a closing parenthesis. -/
def dollar (script : Read Tree) (kind : Kind) (s : Scan) : Read Scan := do
  let c ← next
  match c with
  | none => bareDollar s c
  | some x =>
    if kind.closing || !(x == '(' || x == '\x7b' || isParameterChar x) then bareDollar s c
    else if x = '(' then
      let d ← next
      if d = some '(' then return (s.push (Level.ofSetting .sum)).add .sumOpens
      else
        ungetc d
        return s.put (.command (← script))
    else parameter s c

/-- Reads what a backslash begins. -/
def backslash (kind : Kind) (s : Scan) : Read Scan := do
  match ← getc with
  | none => return s.put (.escaped '\\')
  | some c =>
    let l := s.level
    let keeps := l.double && c != '\\' && c != '`' && c != '$' &&
      (c != '"' || (kind.document.isSome && l.braces == 0)) && (c != '\x7d' || l.braces == 0)
    let s := if keeps then s.put (.escaped '\\') else s
    return { s.put (.escaped c) with quoted := true }

/-- Reads a closing parenthesis in a sum. -/
def closeParen (s : Scan) : Read Scan := do
  if s.level.parens > 0 then
    return (s.put (.plain ')')).alter fun l => { l with parens := l.parens - 1 }
  else
    let d ← next
    if d = some ')' then return s.pop.add .sumCloses
    else
      ungetc d
      return s.put (.plain ')')

/-- Closes the braces of a parameter, if some are open here. -/
def closeBrace (s : Scan) : Scan :=
  let l := s.level
  if l.innerDouble || l.braces == 0 then s.put (.plain '\x7d')
  else
    let s := s.alter fun l => { l with braces := l.braces - 1 }
    let s :=
      if s.level.braces == 0 && l.ofBraces then s.pop
      else s.alter fun l => { l with quotedBraces := l.quotedBraces - 1 }
    s.add .closes

/-- Reads a character that ends no word. `scripts` reads a script up to a closing parenthesis, and
one that makes up the rest of the text. -/
def step (scripts : Read Tree × Read Tree) (kind : Kind) (s : Scan) (c : Char) : Read Scan := do
  let l := s.level
  let closesQuote : Scan :=
    if kind.document.isSome && l.braces == 0 then s.put (.plain c)
    else
      let s := if l.quotedBraces = 0 then
          s.alter fun l => { l with setting := .base, double := false }
        else s
      let s := { s with quoted := true }
      if c = '"' then s.toggle else s.putMark
  let plain := s.put (.plain c)
  if c = '\n' then
    nextLine
    return plain
  else
    match l.setting with
    | .single =>
      if c = '\'' then return closesQuote
      else if isDelicate c || c == '\\' then
        return if kind.document.isNone || l.double then s.put (.escaped c) else plain
      else return plain
    | setting =>
      if c = '\\' then backslash kind s
      else if c = '$' then dollar scripts.1 kind s
      else if c = '`' then
        if kind.closing then return plain
        else
          let cs ← backquoted l.double ((← get).limit + 1)
          return s.put (.command (← elsewhere cs 1 scripts.2))
      else if c = '\x7d' then return closeBrace s
      else
        match setting with
        | .sum =>
          if c = '(' then return plain.alter fun l => { l with parens := l.parens + 1 }
          else if c = ')' then closeParen s
          else return plain
        | .double =>
          if c = '"' then return closesQuote
          else if isDelicate c then return s.put (.escaped c)
          else return plain
        | _ =>
          if c = '\'' then
            return (s.alter fun l => { l with setting := .single }).putMark
          else if c = '"' then
            return (s.alter fun l => { l with setting := .double, double := true }).toggle
          else return plain

/-- Does a character end a word here? -/
def ends (s : Scan) (c : Char) : Bool :=
  s.level.setting = .base && s.level.braces == 0 && "\n<>();&| \t".toList.contains c

/-- Reads the characters of a word from a first one on: what has been read, and the character that
ends it. The first argument bounds their number. -/
def scan (scripts : Read Tree × Read Tree) (kind : Kind) :
    Nat → Bool → Scan → Option Char → Read (Scan × Option Char)
  | 0, _, s, c => return (s, c)
  | n + 1, fresh, s, c => do
    let c ← match fresh, kind.document with
      | true, some p => atCloser p c
      | _, _ => pure c
    match c with
    | none => return (s, none)
    | some x =>
      if ends s x then return (s, c)
      else
        let s ← step scripts kind s x
        let d ← if s.level.setting = .single then getc else next
        scan scripts kind n (x == '\n') s d

/-- Complains about what is left open at the end of a word. -/
def settle (kind : Kind) (s : Scan) : Read Unit := do
  if s.level.setting = .sum then fault "Missing '))'"
  else if s.level.setting ≠ .base ∧ kind.document.isNone then fault "Unterminated quoted string"
  else if s.level.braces ≠ 0 then fault "Missing '\x7d'"

/-- Reads the body of a document. -/
def document (scripts : Read Tree × Read Tree) (p : Pending) : Read Unit := do
  let setting := if p.expands then .double else .single
  let level := { Level.ofSetting setting with double := p.expands }
  let kind : Kind := ⟨some p, false⟩
  let c ← if p.expands then next else getc
  let size := (← get).limit + 2
  let (s, _) ← scan scripts kind size true ⟨[], level, [], false, true⟩ c
  settle kind s
  let body := Stretch.nest s.out.reverse
  modify fun r => { r with documents := r.documents ++ [(p.id, body)] }

/-- Reads a text as the body of a document that no line closes. -/
def loose (scripts : Read Tree × Read Tree) : Read Word := do
  let level := Level.ofSetting .double
  let size := (← get).limit + 2
  let kind : Kind := ⟨some ⟨0, [], false, true⟩, false⟩
  let (s, _) ← scan scripts kind size false ⟨[], level, [], false, true⟩ (← next)
  settle kind s
  return Stretch.nest s.out.reverse

/-- Reads the bodies of all documents that have not been read. -/
def allDocuments (scripts : Read Tree × Read Tree) : Read Unit := do
  let ps := (← get).pending
  modify fun r => { r with pending := [] }
  ps.forM (document scripts)

/-- Reads a redirection that begins with a character. -/
def redirection (c : Char) : Read Token := do
  let d ← next
  let (stream, kind) : Nat × Option Redirection := match c, d with
    | '>', some '>' => (1, some .append)
    | '>', some '|' => (1, some .clobber)
    | '>', some '&' => (1, some .copy)
    | '>', _ => (1, none)
    | _, some '<' => (0, some (.document 0))
    | _, some '&' => (0, some .copy)
    | _, some '>' => (0, some .readWrite)
    | _, _ => (0, none)
  if kind.isNone then ungetc d
  let usual := if c = '>' then .write else .read
  let stripped ← match kind with
    | some (.document _) => do
      let e ← next
      if e ≠ some '-' then ungetc e
      pure (decide (e = some '-'))
    | _ => pure false
  modify fun r =>
    { r with stream := stream, redirection := kind.getD usual, stripped := stripped }
  return .redirect

/-- Reads a word that begins with a character, or a redirection. -/
def wordFrom (scripts : Read Tree × Read Tree) (c : Option Char) : Read Token := do
  let kind : Kind := ⟨none, (← get).checks.closing⟩
  let size := (← get).limit + 2
  let (s, d) ← scan scripts kind size false ⟨[], Level.ofSetting .base, [], false, false⟩ c
  settle kind s
  let stream? : Option (Option Nat) := match s.out, s.quoted with
    | [], false => some none
    | [.piece (.plain x)], false => if x.isDigit then some (some (x.toNat - 48)) else none
    | _, _ => none
  match d, stream? with
  | some x, some stream =>
    if x = '<' ∨ x = '>' then
      let t ← redirection x
      modify fun r => { r with stream := stream.getD r.stream }
      return t
  | _, _ => pure ()
  ungetc d
  modify fun r => { r with word := Stretch.nest s.out.reverse, quoted := s.quoted }
  return .word

/-- Passes over a comment. The first argument bounds its size. -/
def comment : Nat → Read Unit
  | 0 => return ()
  | n + 1 => do
    match ← getc with
    | some '\n' => back ['\n']
    | none => return ()
    | some _ => comment n

/-- Reads a token. The first argument bounds the number of steps. -/
def token (scripts : Read Tree × Read Tree) : Nat → Read Token
  | 0 => return .finish
  | n + 1 => do
    let either := fun (x : Char) (long short : String) => do
      let d ← next
      if d = some x then return Token.operator long
      else
        ungetc d
        return Token.operator short
    match ← next with
    | none => return .finish
    | some ' ' | some '\t' => token scripts n
    | some '#' =>
      comment ((← get).limit + 1)
      token scripts n
    | some '\n' =>
      nextLine
      return .newline
    | some '&' => either '&' "&&" "&"
    | some '|' => either '|' "||" "|"
    | some ';' => either ';' ";;" ";"
    | some '(' => return .operator "("
    | some ')' => return .operator ")"
    | c => wordFrom scripts c

end Read

end Braceline.Toolbox.Shell
