/-!
# Texts of bytes

Commands handle bytes. Inside them a text is a row of bytes, each as the character with its number;
what they are given is taken apart into bytes, and what they write is put together to characters.
Bytes that make no character show as unreadable, one for each stretch that could have begun one.
-/

namespace Braceline.Toolbox.Bytes

/-- Bytes as a text. -/
def ofByteArray (b : ByteArray) : String :=
  String.ofList (b.toList.map fun x => Char.ofNat x.toNat)

/-- The bytes of a text of bytes. -/
def toByteArray (s : String) : ByteArray :=
  ⟨(s.toList.map fun c => c.toNat.toUInt8).toArray⟩

/-- A text taken apart into bytes. -/
def ofText (s : String) : String := ofByteArray s.toUTF8

/-- What the first byte of several tells: the bits that it holds, how many bytes follow it, and the
bounds of the next one. -/
structure Lead where
  bits : Nat
  more : Nat
  low : Nat
  high : Nat

/-- The first byte of several. -/
def Lead.ofByte? (b : Nat) : Option Lead :=
  if b < 0xC2 then none
  else if b < 0xE0 then some ⟨b - 0xC0, 1, 0x80, 0xBF⟩
  else if b = 0xE0 then some ⟨0, 2, 0xA0, 0xBF⟩
  else if b = 0xED then some ⟨0xD, 2, 0x80, 0x9F⟩
  else if b < 0xF0 then some ⟨b - 0xE0, 2, 0x80, 0xBF⟩
  else if b = 0xF0 then some ⟨0, 3, 0x90, 0xBF⟩
  else if b = 0xF4 then some ⟨4, 3, 0x80, 0x8F⟩
  else if b < 0xF4 then some ⟨b - 0xF0, 3, 0x80, 0xBF⟩
  else none

/-- Takes bytes that follow a first one: the character, unless a byte is out of bounds, and the
bytes after it. -/
def Lead.take (l : Lead) : Nat → List Char → Option Char × List Char
  | 0, cs => (some (Char.ofNat l.bits), cs)
  | _, [] => (none, [])
  | n + 1, c :: cs =>
    if l.low ≤ c.toNat ∧ c.toNat ≤ l.high then
      Lead.take ⟨l.bits * 64 + (c.toNat - 0x80), l.more, 0x80, 0xBF⟩ n cs
    else (none, c :: cs)

/-- The characters that bytes make. The first argument bounds their number. -/
def decode : Nat → List Char → List Char
  | 0, _ | _, [] => []
  | n + 1, c :: cs =>
    if c.toNat < 0x80 then c :: decode n cs
    else
      match Lead.ofByte? c.toNat with
      | none => '\uFFFD' :: decode n cs
      | some l =>
        let (x, rest) := l.take l.more cs
        x.getD '\uFFFD' :: decode n rest

/-- A text of bytes put together. -/
def toText (s : String) : String := String.ofList (decode s.length s.toList)

end Braceline.Toolbox.Bytes
