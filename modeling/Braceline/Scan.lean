import Braceline.ScriptError

/-!
# Scanning a script

A scan marks each character of a script as live (code, where braces and semicolons are structure)
or inert (inside a literal, its fences included, or inside a comment). The line break that ends a
comment is live.

* `marks_char`: the marked characters are those of the text, each once and in order.
* `repeats_iff`: when a quote is taken for a triple fence.
* `openAt?_eq_some_iff`: which literal the scan stands in.
-/

namespace Braceline

/-- A character of a script with its byte offset, marked as live or inert. -/
structure Mark where
  offset : Nat
  char : Char
  live : Bool
  deriving DecidableEq, Repr

namespace Scan

/-- The part of a script that the scan stands in. A literal knows where it began and whether its
next character is escaped. -/
inductive Region where
  | code
  | literal (fence : Fence) (start : Nat) (escaped : Bool)
  | comment
  deriving DecidableEq, Repr

/-- Where a scan stands. The first quote of a triple fence already changes the region; the other
two are then owed, and pass as inert whatever the region. -/
structure State where
  region : Region
  owed : Nat
  deriving DecidableEq, Repr

/-- A scan starts in code. -/
def State.start : State := ⟨.code, 0⟩

/-- The mode that the scan stands in. -/
def State.mode (s : State) : Mode :=
  match s.region with
  | .code => .code
  | .literal f _ _ => .literal f
  | .comment => .comment

/-- The offset at which the literal that the scan stands in began. -/
def State.openAt? (s : State) : Option Nat :=
  match s.region with
  | .literal _ start _ => some start
  | _ => none

/-- A scan may stop in code or in a comment, but not in a literal. -/
def State.finish (s : State) : Except ScriptError Unit :=
  match s.region with
  | .literal f start _ => .error (.unterminatedLiteral start f)
  | _ => .ok ()

/-- Do two more of `c` follow? -/
def repeats (c : Char) (rest : List Char) : Bool := rest.take 2 == [c, c]

/-- The state after a quote `q` at `offset`, read in code. -/
def opened (q : Quote) (offset : Nat) (rest : List Char) : State :=
  let triple := repeats q.char rest
  ⟨.literal ⟨q, triple⟩ offset false, if triple then 2 else 0⟩

/-- Reading `c` in code, and whether it is live. -/
def stepCode (offset : Nat) (c : Char) (rest : List Char) : State × Bool :=
  match Quote.ofChar? c with
  | some q => (opened q offset rest, false)
  | none => if c = '#' then (⟨.comment, 0⟩, false) else (⟨.code, 0⟩, true)

/-- Reading `c` in a literal. A triple fence closes only where its quote stands three times. -/
def stepLiteral (f : Fence) (start : Nat) (escaped : Bool) (c : Char) (rest : List Char) : State :=
  if escaped then ⟨.literal f start false, 0⟩
  else if c = '\\' then ⟨.literal f start true, 0⟩
  else if c ≠ f.quote.char then ⟨.literal f start false, 0⟩
  else if !f.triple then ⟨.code, 0⟩
  else if repeats c rest then ⟨.code, 2⟩
  else ⟨.literal f start false, 0⟩

/-- **One step of the scan:** the state after `c`, which stands at `offset` before `rest`, and
whether `c` is live. -/
def State.step (s : State) (offset : Nat) (c : Char) (rest : List Char) : State × Bool :=
  match s.owed with
  | n + 1 => (⟨s.region, n⟩, false)
  | 0 =>
    match s.region with
    | .code => stepCode offset c rest
    | .comment => if c = '\n' then (⟨.code, 0⟩, true) else (⟨.comment, 0⟩, false)
    | .literal f start escaped => (stepLiteral f start escaped c rest, false)

/-- The scan of a text that begins at `offset`: each character's mark and the state after it. -/
def readings (s : State) (offset : Nat) : List Char → List (Mark × State)
  | [] => []
  | c :: rest =>
    let (s', live) := s.step offset c rest
    (⟨offset, c, live⟩, s') :: readings s' (offset + c.utf8Size) rest

/-- The state after a stretch of readings that began in `s`. -/
def stateAfter (s : State) (rs : List (Mark × State)) : State :=
  (rs.getLast?.map Prod.snd).getD s

/-- The marks of a text that begins at `offset`. -/
def marks (s : State) (offset : Nat) (cs : List Char) : List Mark :=
  (readings s offset cs).map Prod.fst

/-- The state at the end of a text that begins at `offset`. -/
def endState (s : State) (offset : Nat) (cs : List Char) : State :=
  stateAfter s (readings s offset cs)

/-- The text from byte `target` on, and the offset it begins at: the first character boundary that
is not before `target`. Its first argument is the offset that the given text begins at. -/
def seek (offset target : Nat) : List Char → Nat × List Char
  | [] => (offset, [])
  | c :: rest =>
    if offset < target then seek (offset + c.utf8Size) target rest else (offset, c :: rest)

/-- The readings of a script from byte `target` on, in code mode. -/
def readingsFrom (target : Nat) (script : String) : List (Mark × State) :=
  let (offset, rest) := seek 0 target script.toList
  readings .start offset rest

variable {s : State} {o : Nat}

/-- A quote is repeated when the next two characters are the same quote. -/
theorem repeats_iff {c : Char} {rest : List Char} :
    repeats c rest = true ↔ ∃ tail, rest = c :: c :: tail := by
  match rest with
  | [] => simp [repeats]
  | [a] => simp [repeats]
  | a :: b :: tail => simp [repeats]

/-- **The literal that a scan stands in** is the one that it would leave open if it stopped. -/
theorem openAt?_eq_some_iff :
    s.openAt? = some o ↔ ∃ f, s.finish = .error (.unterminatedLiteral o f) := by
  obtain ⟨r, owed⟩ := s
  cases r with
  | literal f start escaped => simp [State.openAt?, State.finish]
  | code | comment => simp [State.openAt?, State.finish]

@[simp]
theorem readings_nil : readings s o [] = [] := rfl

theorem readings_cons (c : Char) (rest : List Char) :
    readings s o (c :: rest) =
      (⟨o, c, (s.step o c rest).2⟩, (s.step o c rest).1) ::
        readings (s.step o c rest).1 (o + c.utf8Size) rest := rfl

@[simp]
theorem length_readings (s : State) (o : Nat) (cs : List Char) :
    (readings s o cs).length = cs.length := by
  induction cs generalizing s o with
  | nil => rfl
  | cons c cs ih => simp [readings_cons, ih]

@[simp]
theorem marks_nil : marks s o [] = [] := rfl

theorem marks_cons (c : Char) (rest : List Char) :
    marks s o (c :: rest) =
      ⟨o, c, (s.step o c rest).2⟩ :: marks (s.step o c rest).1 (o + c.utf8Size) rest := rfl

/-- The marked characters are those of the text, each once and in order. -/
@[simp]
theorem marks_char (s : State) (o : Nat) (cs : List Char) : (marks s o cs).map Mark.char = cs := by
  induction cs generalizing s o with
  | nil => rfl
  | cons c cs ih => simp [marks_cons, ih]

@[simp]
theorem endState_nil : endState s o [] = s := rfl

theorem stateAfter_cons (r : Mark × State) (rs : List (Mark × State)) :
    stateAfter s (r :: rs) = stateAfter r.2 rs := by
  cases rs <;> simp [stateAfter, List.getLast?_cons]

theorem endState_cons (c : Char) (rest : List Char) :
    endState s o (c :: rest) = endState (s.step o c rest).1 (o + c.utf8Size) rest := by
  rw [endState, readings_cons, stateAfter_cons]; rfl

end Scan

end Braceline
