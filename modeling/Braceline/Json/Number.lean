import Braceline.Decimal.Shortest

/-!
# Numbers of a JSON text

A number is a whole number if it is written as one and fits 64 bits, and a binary one otherwise.
A binary number is read from its leading digits, as many as fit 64 bits, and a power of ten.

* `length_read_lt`: a number uses up at least one character.
-/

namespace Braceline.Json

/-- Why a text is not JSON. -/
inductive Fault where
  /-- A character that cannot stand where it stands. -/
  | malformed
  /-- The text ends too early. -/
  | cutShort
  deriving DecidableEq, Repr

/-- What a number is read as. -/
inductive Number where
  | natural (n : Nat)
  /-- The number below zero by `n`, which is positive. -/
  | negative (n : Nat)
  | real (x : Float)
  deriving Repr

namespace Number

/-- The greatest significand. -/
def maxSignificand : Nat := 0xFFFFFFFFFFFFFFFF

/-- The greatest exponent whose digits are read to the end. -/
def maxExponent : Nat := 0x7FFFFFFF

/-- Digits appended to a number for as long as it stays within `limit`: the number, and how many
digits are left. -/
def absorb (limit : Nat) (n : Nat) : List Char → Nat × Nat
  | [] => (n, 0)
  | d :: ds =>
    let n' := 10 * n + (d.toNat - '0'.toNat)
    if n' ≤ limit then absorb limit n' ds else (n, ds.length + 1)

/-- A power of ten, rounded to a binary number. Its exponent is at most 308. -/
def powerOfTen (k : Nat) : Float := Float.ofScientific 1 false k

/-- A binary number divided by a power of ten, in steps that are binary numbers themselves. -/
def divided (x : Float) (k : Nat) : Float :=
  if k ≤ 308 then x / powerOfTen k
  else if x == 0 then x
  else divided (x / powerOfTen 308) (k - 308)
termination_by k

/-- The binary number for a significand and a power of ten, if there is one that large. -/
def ofParts? (significand : Nat) (exponent : Int) : Option Float :=
  let x := significand.toUInt64.toFloat
  if exponent < 0 then some (divided x exponent.natAbs)
  else if exponent.natAbs ≤ 308 then
    let y := x * powerOfTen exponent.natAbs
    if y.isInf then none else some y
  else if x == 0 then some x
  else none

/-- A number with its sign. -/
def signed (isNegative : Bool) (x : Float) : Number := .real (if isNegative then -x else x)

/-- The number for a significand and a power of ten. One that is too large is a fault. -/
def scaled (isNegative : Bool) (significand : Nat) (exponent : Int) : Except Fault Number :=
  match ofParts? significand exponent with
  | some x => .ok (signed isNegative x)
  | none => .error .malformed

/-- A whole number. Zero with a sign, and what does not fit 64 bits with one, is a binary number. -/
def whole (isNegative : Bool) (n : Nat) : Number :=
  if !isNegative then .natural n
  else if 1 ≤ n ∧ n ≤ 0x8000000000000000 then .negative n
  else .real (-n.toUInt64.toFloat)

/-- The number for a significand whose power of ten is `exponent` and what the exponent's digits
say, down or up. With too many of them zero stays zero, a number that far down is zero, and a number
that far up is a fault. -/
def withExponent (isNegative : Bool) (significand : Nat) (exponent : Int) (down : Bool)
    (ds : List Char) : Except Fault Number :=
  let (k, left) := absorb maxExponent 0 ds
  if left = 0 then scaled isNegative significand (exponent + if down then -(k : Int) else k)
  else if significand = 0 ∨ down then .ok (signed isNegative 0)
  else .error .malformed

/-- Reads the digits of an exponent. -/
def readExponentDigits (isNegative : Bool) (significand : Nat) (exponent : Int) (down : Bool)
    (cs : List Char) : Except Fault (Number × List Char) :=
  match cs with
  | [] => .error .cutShort
  | c :: _ =>
    if c.isDigit then
      (withExponent isNegative significand exponent down (cs.takeWhile Char.isDigit)).map
        (·, cs.dropWhile Char.isDigit)
    else .error .malformed

/-- Reads the exponent of a number, after its letter. -/
def readExponent (isNegative : Bool) (significand : Nat) (exponent : Int) (cs : List Char) :
    Except Fault (Number × List Char) :=
  match cs with
  | '-' :: cs => readExponentDigits isNegative significand exponent true cs
  | '+' :: cs => readExponentDigits isNegative significand exponent false cs
  | _ => readExponentDigits isNegative significand exponent false cs

/-- Reads the exponent of a number, if there is one. Without one the number is `value`. -/
def readExponent? (isNegative : Bool) (significand : Nat) (exponent : Int)
    (value : Except Fault Number) (cs : List Char) : Except Fault (Number × List Char) :=
  match cs with
  | 'e' :: rest | 'E' :: rest => readExponent isNegative significand exponent rest
  | _ => value.map (·, cs)

/-- Reads the digits after the point of a number, and its exponent. -/
def readFraction (isNegative : Bool) (significand : Nat) (exponent : Int) (cs : List Char) :
    Except Fault (Number × List Char) :=
  match cs with
  | [] => .error .cutShort
  | c :: _ =>
    if c.isDigit then
      let ds := cs.takeWhile Char.isDigit
      let (significand, left) := absorb maxSignificand significand ds
      let exponent := exponent - (ds.length - left : Nat)
      readExponent? isNegative significand exponent (scaled isNegative significand exponent)
        (cs.dropWhile Char.isDigit)
    else .error .malformed

/-- The number for a run of digits, as many of which are left out as `left` says. -/
def ofDigits (isNegative : Bool) (significand left : Nat) : Except Fault Number :=
  if left = 0 then .ok (whole isNegative significand) else scaled isNegative significand left

/-- Reads a number after its first digits, which `ds` are. -/
def readAfter (isNegative : Bool) (ds cs : List Char) : Except Fault (Number × List Char) :=
  let r := absorb maxSignificand 0 ds
  match cs with
  | '.' :: rest => readFraction isNegative r.1 r.2 rest
  | _ => readExponent? isNegative r.1 r.2 (ofDigits isNegative r.1 r.2) cs

/-- Reads a number, after its sign. A zero in front of other digits is a fault. -/
def readUnsigned (isNegative : Bool) (cs : List Char) : Except Fault (Number × List Char) :=
  match cs with
  | [] => .error .cutShort
  | c :: rest =>
    if c = '0' then
      if rest.head?.any Char.isDigit then .error .malformed else readAfter isNegative ['0'] rest
    else if c.isDigit then
      readAfter isNegative (c :: rest.takeWhile Char.isDigit) (rest.dropWhile Char.isDigit)
    else .error .malformed

/-- Reads a number. -/
def read (cs : List Char) : Except Fault (Number × List Char) :=
  match cs with
  | '-' :: cs => readUnsigned true cs
  | _ => readUnsigned false cs

section Length

variable {neg : Bool} {m : Nat} {e : Int} {ds cs rest : List Char} {n : Number}

theorem eq_of_map_pair {x : Except Fault Number} {a b : List Char}
    (h : x.map (·, a) = .ok (n, b)) : b = a := by
  cases x with
  | error f => cases h
  | ok y => cases h; rfl

theorem length_readExponentDigits_le {down : Bool}
    (h : readExponentDigits neg m e down cs = .ok (n, rest)) : rest.length ≤ cs.length := by
  unfold readExponentDigits at h
  split at h
  · cases h
  split at h
  · rw [eq_of_map_pair h]; exact (List.dropWhile_sublist _).length_le
  · cases h

theorem length_readExponent_le (h : readExponent neg m e cs = .ok (n, rest)) :
    rest.length ≤ cs.length := by
  unfold readExponent at h
  split at h
  · have := length_readExponentDigits_le h; simp only [List.length_cons]; omega
  · have := length_readExponentDigits_le h; simp only [List.length_cons]; omega
  · exact length_readExponentDigits_le h

theorem length_readExponent?_le {value : Except Fault Number}
    (h : readExponent? neg m e value cs = .ok (n, rest)) : rest.length ≤ cs.length := by
  unfold readExponent? at h
  split at h
  · have := length_readExponent_le h; simp only [List.length_cons]; omega
  · have := length_readExponent_le h; simp only [List.length_cons]; omega
  · exact Nat.le_of_eq (congrArg List.length (eq_of_map_pair h))

theorem length_readFraction_le (h : readFraction neg m e cs = .ok (n, rest)) :
    rest.length ≤ cs.length := by
  unfold readFraction at h
  split at h
  · cases h
  split at h
  · exact Nat.le_trans (length_readExponent?_le h) ((List.dropWhile_sublist _).length_le)
  · cases h

theorem length_readAfter_le (h : readAfter neg ds cs = .ok (n, rest)) :
    rest.length ≤ cs.length := by
  unfold readAfter at h
  split at h
  · have := length_readFraction_le h; simp only [List.length_cons]; omega
  · exact length_readExponent?_le h

theorem length_readUnsigned_lt (h : readUnsigned neg cs = .ok (n, rest)) :
    rest.length < cs.length := by
  unfold readUnsigned at h
  split at h
  · cases h
  rw [List.length_cons, Nat.lt_succ_iff]
  split at h
  · split at h
    · cases h
    · exact length_readAfter_le h
  split at h
  · exact Nat.le_trans (length_readAfter_le h) ((List.dropWhile_sublist _).length_le)
  · cases h

/-- A number uses up at least one character. -/
theorem length_read_lt (h : read cs = .ok (n, rest)) : rest.length < cs.length := by
  unfold read at h
  split at h
  · have := length_readUnsigned_lt h; simp only [List.length_cons]; omega
  · exact length_readUnsigned_lt h

end Length

/-- How a binary number is written in a message. -/
def layout : Decimal.Layout := ⟨-4, 16, true⟩

end Number

end Braceline.Json
