/-!
# Shortest decimals

The decimal text of a binary number: as few digits as read back as that number, and of those the
nearest to it. Layout is a matter of its own: where the point may stand before an exponent is
written instead.
-/

namespace Braceline.Decimal

/-- A decimal: its digits, without zeros at either end, and the place of the point. The number is
`0.` and the digits, times ten to the `point`. -/
structure Digits where
  digits : List Char
  point : Int
  deriving DecidableEq, Repr

/-- The numbers that round to a binary one, in a common unit: `center` is the number itself, and
the ends belong to the range if `closed`. One is `unit` of these units. -/
structure Range where
  low : Nat
  center : Nat
  high : Nat
  unit : Nat
  closed : Bool
  deriving DecidableEq, Repr

namespace Range

/-- The range around `mantissa * 2 ^ exponent`. Below a power of two the spacing is half as wide. -/
def ofBinary (mantissa : Nat) (exponent : Int) (halfBelow : Bool) : Range :=
  let up := (exponent - 2).toNat
  let down := (2 - exponent).toNat
  { low := (4 * mantissa - if halfBelow then 1 else 2) * Nat.pow 2 up
    center := 4 * mantissa * Nat.pow 2 up
    high := (4 * mantissa + 2) * Nat.pow 2 up
    unit := Nat.pow 2 down
    closed := mantissa % 2 == 0 }

/-- The range divided by ten to the `k`. -/
def shift (r : Range) (k : Int) : Range :=
  let up := Nat.pow 10 (-k).toNat
  { r with
    low := r.low * up, center := r.center * up, high := r.high * up
    unit := r.unit * Nat.pow 10 k.toNat }

/-- Does the whole number `d` round to the number in the center? -/
def holds (r : Range) (d : Nat) : Bool :=
  if r.closed then r.low ≤ d * r.unit && d * r.unit ≤ r.high
  else r.low < d * r.unit && d * r.unit < r.high

/-- The whole number in the range that is nearest to its center, among the two next to it. -/
def nearest? (r : Range) : Option Nat :=
  let d := r.center / r.unit
  let below := r.center - d * r.unit
  let above := (d + 1) * r.unit - r.center
  match r.holds d, r.holds (d + 1) with
  | true, true =>
    some (if below < above ∨ below = above ∧ d % 2 = 0 then d else d + 1)
  | true, false => some d
  | false, true => some (d + 1)
  | false, false => none

/-- The number of tens that a positive number below one must be multiplied with to reach one. -/
def leadingZeros (center unit : Nat) : Nat → Nat
  | 0 => 0
  | fuel + 1 => if unit ≤ center then 0 else leadingZeros (center * 10) unit fuel + 1

/-- The place of the point of the center. -/
def point (r : Range) : Int :=
  if r.unit ≤ r.center then (Nat.toDigits 10 (r.center / r.unit)).length
  else 1 - (leadingZeros r.center r.unit 400 : Int)

/-- The shortest decimal in the range. Seventeen digits are always enough. -/
def shortest (r : Range) : Digits :=
  let point := r.point
  let found := (List.range 17).findSome? fun (n : Nat) =>
    let k : Int := point - (n + 1 : Nat)
    ((r.shift k).nearest?).map fun d => (d, k)
  match found with
  | some (d, k) =>
    let ds := Nat.toDigits 10 d
    ⟨(ds.reverse.dropWhile (· == '0')).reverse, ds.length + k⟩
  | none => ⟨['0'], 1⟩

end Range

/-- The shortest decimal for a positive number. -/
def ofFloat (x : Float) : Digits :=
  let bits : Nat := x.toBits.toNat
  let fraction : Nat := bits % 0x10000000000000
  let biased : Nat := bits / 0x10000000000000 % 0x800
  if biased = 0 then (Range.ofBinary fraction (-1074) false).shortest
  else
    let halfBelow := fraction == 0 && biased != 1
    (Range.ofBinary (fraction + 0x10000000000000) ((biased : Int) - 1075) halfBelow).shortest

/-- Where the point may stand in a text without an exponent, and whether a positive exponent has
a sign. -/
structure Layout where
  leastPoint : Int
  greatestPoint : Int
  plus : Bool
  deriving DecidableEq, Repr

/-- A whole number with its sign. A positive one may have one too. -/
def signed (plus : Bool) (n : Int) : String :=
  if n < 0 then s!"-{n.natAbs}" else if plus then s!"+{n.natAbs}" else s!"{n.natAbs}"

/-- A decimal as text. There is a digit on either side of the point, except where an exponent
follows a single digit. -/
def Digits.text (d : Digits) (l : Layout) : String :=
  let n : Int := d.digits.length
  let zeros := fun (k : Int) => List.replicate k.toNat '0'
  if l.leastPoint ≤ d.point ∧ d.point ≤ l.greatestPoint then
    if d.point ≤ 0 then String.ofList ('0' :: '.' :: zeros (-d.point) ++ d.digits)
    else if n ≤ d.point then String.ofList (d.digits ++ zeros (d.point - n) ++ ['.', '0'])
    else
      String.ofList (d.digits.take d.point.toNat ++ '.' :: d.digits.drop d.point.toNat)
  else
    let fraction := d.digits.drop 1
    String.ofList (d.digits.take 1 ++ if fraction.isEmpty then [] else '.' :: fraction) ++ "e" ++
      signed l.plus (d.point - 1)

/-- A number as text. -/
def text (l : Layout) (x : Float) : String :=
  let sign := if x.toBits.toNat / 0x8000000000000000 % 2 = 1 then "-" else ""
  if x == 0 then sign ++ "0.0" else sign ++ (ofFloat x).text l

end Braceline.Decimal
