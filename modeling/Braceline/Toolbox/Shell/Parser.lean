import Braceline.Toolbox.Shell.Lexer

/-!
# Commands of a shell script

How commands are read. A script is read line by line: each step reads the commands of one line, and
as many more lines as they need, so that what one line has defined counts for the next.
-/

namespace Braceline.Toolbox.Shell

/-- The readers of scripts inside words: up to a closing parenthesis, and up to the end. -/
abbrev Inner := Read Tree × Read Tree

namespace Read

/-- Gives up on the last token, given what stands there otherwise. -/
def unexpected {α : Type} (wanted : Option Token) : Read α := do
  let more := match wanted with
    | some t => s!" (expecting {t.describe})"
    | none => ""
  fault (((← get).token.describe ++ " unexpected" ++ more).take 63).toString

/-- The last token, if it is to be read again, or the next one. -/
def fetch (inner : Inner) : Read Token := do
  let r ← get
  if r.again then
    set { r with again := false }
    return r.token
  else
    let t ← token inner (r.limit + 2)
    modify ({ · with token := t })
    return t

/-- The token after line feeds, each of which begins the documents of its line. The first argument
bounds their number. -/
def afterLines (inner : Inner) : Nat → Token → Read Token
  | n + 1, .newline => do
    allDocuments inner
    afterLines inner n (← fetch inner)
  | _, t => pure t

/-- The next token, looked at for what the reader checks. The first argument bounds the number of
aliases that are put in. -/
def look (inner : Inner) : Nat → Checks → Read Token
  | 0, _ => fault "too long"
  | n + 1, checks => do
    let t ← fetch inner
    let t ← if checks.lines then afterLines inner ((← get).limit + 1) t else pure t
    let r ← get
    let keywords := checks.keywords || r.checks.keywords
    let aliases := checks.aliases || r.checks.aliases
    set { r with checks := .none }
    match t, if r.quoted then none else Word.bare? r.word with
    | .word, some name =>
      if keywords && Token.keywords.contains name then
        modify ({ · with token := .keyword name })
        return .keyword name
      else
        match if aliases then r.alias? name else none with
        | some text =>
          if !text.isEmpty then substitute name text
          look inner n { checks with keywords := keywords, aliases := aliases }
        | none => return t
    | _, _ => return t

/-- The next token, looked at for some things. -/
def take (inner : Inner) (checks : Checks) : Read Token := do
  modify ({ · with checks := checks })
  look inner ((← get).limit + 2) checks

/-- The next token. -/
def plain (inner : Inner) : Read Token := take inner .none

/-- Reads the last token again. -/
def again : Read Unit := modify ({ · with again := true })

/-- Passes over a token that has to stand next. -/
def expect (inner : Inner) (t : Token) : Read Unit := do
  if (← plain inner) ≠ t then unexpected (some t)

/-- Reads what a redirection leads to, for the redirection that is the last token. -/
def target (inner : Inner) : Read Redirect := do
  let r ← get
  match r.redirection with
  | .document _ =>
    if (← take inner { Checks.none with closing := true }) ≠ .word then unexpected none
    let id := r.nextDocument
    modify fun s =>
      { s with
        nextDocument := id + 1
        pending := s.pending ++ [⟨id, Word.text s.word, r.stripped, !s.quoted⟩] }
    return .mk r.stream (.document id) []
  | kind =>
    if (← plain inner) ≠ .word then unexpected none
    return .mk r.stream kind (← get).word

/-- Redirections after a command. -/
def redirects (inner : Inner) : Nat → Checks → Read (List Redirect)
  | 0, _ => return []
  | n + 1, checks => do
    match ← take inner checks with
    | .redirect =>
      let r ← target inner
      return r :: (← redirects inner n .none)
    | _ =>
      again
      return []

/-- Words up to something else. -/
def words (inner : Inner) : Nat → Read (List Word)
  | 0 => return []
  | n + 1 => do
    match ← plain inner with
    | .word =>
      let w := (← get).word
      return w :: (← words inner n)
    | _ => return []

/-- The patterns of a clause, the first of which is the last word. -/
def patterns (inner : Inner) : Nat → Read (List Word)
  | 0 => return []
  | n + 1 => do
    let w := (← get).word
    match ← plain inner with
    | .operator "|" =>
      let _ ← plain inner
      return w :: (← patterns inner n)
    | _ => return [w]

end Read

/-- What is checked where a command may begin. -/
def Checks.command : Checks := ⟨false, true, true, false⟩

/-- What is checked where a command may begin on a later line. -/
def Checks.later : Checks := ⟨true, true, true, false⟩

/-- How a list of commands ends. -/
inductive ListEnd where
  /-- With its line. -/
  | line
  /-- Before what ends lists, with one command at least. -/
  | inner
  /-- Before what ends lists. -/
  | clause
  deriving DecidableEq

mutual

/-- Reads a script inside a word, up to a closing parenthesis if `closes`. Its documents stand in
it. All readers of commands count down the same bound on steps. -/
def readInner : Nat → Bool → Read Tree
  | 0, _ => Read.fault "too long"
  | n + 1, closes => do
    let inner : Inner := (readInner n true, readInner n false)
    let outside := (← get).pending
    modify ({ · with pending := [], again := false })
    let tree ← readList n .clause .nothing
    if closes then
      Read.expect inner (.operator ")")
      Read.elsewhere [] (← get).line (Read.allDocuments inner)
    else Read.allDocuments inner
    modify ({ · with pending := outside, again := false })
    return tree

/-- Reads a list of commands. -/
def readList : Nat → ListEnd → Tree → Read Tree
  | 0, _, _ => Read.fault "too long"
  | n + 1, ending, before => do
    let inner : Inner := (readInner n true, readInner n false)
    let t ← Read.take inner (if ending = .line then .command else .later)
    match t with
    | .newline =>
      Read.allDocuments inner
      return before
    | .finish =>
      Read.allDocuments inner
      modify ({ · with token := .finish, again := true })
      return before
    | _ =>
      Read.again
      if ending = .clause && t.endsList then return before
      else
        let a ← readAndOr n
        let sep ← Read.plain inner
        let all := match before with
          | .nothing => a
          | b => .seq b a
        let next : ListEnd := if ending = .line then .line else .clause
        match sep with
        | .finish =>
          Read.allDocuments inner
          modify ({ · with token := .finish, again := true })
          return all
        | .newline =>
          Read.again
          readList n next all
        | .operator ";" => readList n next all
        | _ =>
          if ending = .line then Read.unexpected none
          else
            Read.again
            return all

/-- Reads commands that depend on one another. -/
def readAndOr : Nat → Read Tree
  | 0 => Read.fault "too long"
  | n + 1 => do
    let a ← readPipeline n .none
    readAndOrRest n a

/-- Reads what depends on a command. -/
def readAndOrRest : Nat → Tree → Read Tree
  | 0, _ => Read.fault "too long"
  | n + 1, a => do
    let inner : Inner := (readInner n true, readInner n false)
    match ← Read.plain inner with
    | .operator "&&" =>
      let b ← readPipeline n .later
      readAndOrRest n (.both a b)
    | .operator "||" =>
      let b ← readPipeline n .later
      readAndOrRest n (.either a b)
    | _ =>
      Read.again
      return a

/-- Reads commands that feed one another. -/
def readPipeline : Nat → Checks → Read Tree
  | 0, _ => Read.fault "too long"
  | n + 1, checks => do
    let inner : Inner := (readInner n true, readInner n false)
    if (← Read.take inner checks) = .keyword "!" then
      let a ← readCommand n .command
      return .negated (← readPipelineRest n a)
    else
      Read.again
      let a ← readCommand n .none
      readPipelineRest n a

/-- Reads what a command feeds. -/
def readPipelineRest : Nat → Tree → Read Tree
  | 0, _ => Read.fault "too long"
  | n + 1, a => do
    let inner : Inner := (readInner n true, readInner n false)
    match ← Read.plain inner with
    | .operator "|" =>
      let b ← readCommand n .later
      return .pipe a (← readPipelineRest n b)
    | _ =>
      Read.again
      return a

/-- Reads one command. -/
def readCommand : Nat → Checks → Read Tree
  | 0, _ => Read.fault "too long"
  | n + 1, checks => do
    let inner : Inner := (readInner n true, readInner n false)
    let line := (← get).line
    let t ← Read.take inner checks
    match t with
    | .keyword "if" =>
      let a ← readBranch n
      Read.expect inner (.keyword "fi")
      redirected n line a
    | .keyword "while" | .keyword "until" =>
      let test ← readList n .inner .nothing
      Read.expect inner (.keyword "do")
      let body ← readList n .inner .nothing
      Read.expect inner (.keyword "done")
      redirected n line (.loop (t = .keyword "until") test body)
    | .keyword "for" =>
      let t ← Read.plain inner
      let r ← get
      match t, if r.quoted then none else Word.bare? r.word with
      | .word, some name =>
        if isName name.toList then readEach n line name else Read.fault "Bad for loop variable"
      | _, _ => Read.fault "Bad for loop variable"
    | .keyword "case" =>
      if (← Read.plain inner) ≠ .word then Read.unexpected (some .word)
      let w := (← get).word
      if (← Read.take inner .later) ≠ .keyword "in" then Read.unexpected (some (.keyword "in"))
      redirected n line (.choose line w (← readClauses n))
    | .operator "(" =>
      let a ← readList n .inner .nothing
      Read.expect inner (.operator ")")
      return .subshell line a (← Read.redirects inner n .command)
    | .keyword "\x7b" =>
      let a ← readList n .inner .nothing
      Read.expect inner (.keyword "\x7d")
      redirected n line a
    | .word | .redirect =>
      Read.again
      readSimple n (← get).line true [] [] []
    | _ => Read.unexpected none

/-- A command with the redirections that stand after it. Those after a group that is a subshell and
no more take the place of the subshell's own. -/
def redirected : Nat → Nat → Tree → Read Tree
  | 0, _, a => pure a
  | n + 1, line, a => do
    match ← Read.redirects (readInner n true, readInner n false) n .command with
    | [] => return a
    | rs =>
      match a with
      | .subshell line a _ => return .subshell line a rs
      | a => return .redirected line a rs

/-- Reads a condition and what depends on it. -/
def readBranch : Nat → Read Tree
  | 0 => Read.fault "too long"
  | n + 1 => do
    let inner : Inner := (readInner n true, readInner n false)
    let test ← readList n .inner .nothing
    Read.expect inner (.keyword "then")
    let yes ← readList n .inner .nothing
    match ← Read.plain inner with
    | .keyword "elif" => return .branch test yes (← readBranch n)
    | .keyword "else" => return .branch test yes (← readList n .inner .nothing)
    | _ =>
      Read.again
      return .branch test yes .nothing

/-- Reads a loop over words after its variable. -/
def readEach : Nat → Nat → String → Read Tree
  | 0, _, _ => Read.fault "too long"
  | n + 1, line, name => do
    let inner : Inner := (readInner n true, readInner n false)
    let t ← Read.take inner .later
    let words ← if t = .keyword "in" then
        let ws ← Read.words inner n
        let last := (← get).token
        if last ≠ .newline ∧ last ≠ .operator ";" then Read.unexpected none
        else pure (some ws)
      else
        if t ≠ .operator ";" then Read.again
        pure none
    if (← Read.take inner .later) ≠ .keyword "do" then Read.unexpected (some (.keyword "do"))
    let body ← readList n .inner .nothing
    Read.expect inner (.keyword "done")
    redirected n line (.each line name words body)

/-- Reads the clauses of a choice and the keyword that ends them. -/
def readClauses : Nat → Read Tree
  | 0 => Read.fault "too long"
  | n + 1 => do
    let inner : Inner := (readInner n true, readInner n false)
    let checks : Checks := { Checks.later with aliases := false }
    let t ← Read.take inner checks
    if t = .keyword "esac" then return .nothing
    else
      if t = .operator "(" then
        let _ ← Read.plain inner
      let patterns ← Read.patterns inner n
      if (← get).token ≠ .operator ")" then Read.unexpected (some (.operator ")"))
      let body ← readList n .clause .nothing
      match ← Read.take inner checks with
      | .keyword "esac" => return .clause patterns body .nothing
      | .operator ";;" => return .clause patterns body (← readClauses n)
      | _ => Read.unexpected (some (.operator ";;"))

/-- Reads a simple command, or the definition of a function. Assignments stand before words. -/
def readSimple : Nat → Nat → Bool → List (String × Word) → List Word → List Redirect → Read Tree
  | 0, _, _, _, _, _ => Read.fault "too long"
  | n + 1, line, mayAssign, assigned, words, rs => do
    let inner : Inner := (readInner n true, readInner n false)
    match ← Read.take inner { Checks.none with aliases := mayAssign } with
    | .word =>
      let w := (← get).word
      match if mayAssign then assignment? w else none with
      | some a => readSimple n line true (a :: assigned) words rs
      | none => readSimple n line false assigned (w :: words) rs
    | .redirect =>
      let r ← Read.target inner
      readSimple n line mayAssign assigned words (r :: rs)
    | .operator "(" =>
      match assigned, words, rs with
      | [], [w], [] =>
        Read.expect inner (.operator ")")
        match w.bare? with
        | some name =>
          if isName name.toList && !specialNames.contains name then
            let line := (← get).line
            return .define line name (← readCommand n .later)
          else Read.fault "Bad function name"
        | none => Read.fault "Bad function name"
      | _, _, _ =>
        Read.again
        return .simple line assigned.reverse words.reverse rs.reverse
    | _ =>
      Read.again
      return .simple line assigned.reverse words.reverse rs.reverse

end

namespace Reader

/-- How many steps may be taken one inside the other to read a script. -/
def bound (r : Reader) : Nat := 20 * r.limit + 40

/-- Reads the commands of the next line, and where the reader stands then. -/
def read (r : Reader) : Except Fault (Tree × Reader) :=
  (readList r.bound .line .nothing).run { r with again := false, pending := [] }

/-- Reads a text as the body of a document that no line closes. -/
def loose (r : Reader) : Except Fault Word :=
  ((Read.loose (readInner r.bound true, readInner r.bound false)).run r).map (·.1)

end Reader

end Braceline.Toolbox.Shell
