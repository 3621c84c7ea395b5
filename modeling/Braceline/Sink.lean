/-!
# Sinks

Where a listing is written to. A sink is offered bytes and takes some of them, from the front, or
refuses. The rest is offered again, until all bytes are taken or none of them are.
-/

namespace Braceline

/-- Bytes in order. -/
abbrev Bytes := List UInt8

/-- The bytes of a text. -/
def bytesOf (s : String) : Bytes := s.toUTF8.data.toList

/-- **What takes bytes.** An offer that is interrupted is made again, and only what comes of it in
the end counts. -/
structure Writer where
  /-- How many bytes are taken, or why none are, after all that was offered before. -/
  answer : List Bytes → Bytes → Except String Nat
  le_length : ∀ before bytes n, answer before bytes = .ok n → n ≤ bytes.length

/-- What came of bytes that were offered. -/
structure Writing where
  /-- All that was offered, also before. -/
  offers : List Bytes
  taken : Bytes
  fault : Option String

namespace Writer

/-- What is said of a sink that takes nothing and does not say why. -/
def noProgress : String := "failed to write whole buffer"

/-- **Offers bytes until all are taken**, after other offers. -/
def writeAll (k : Writer) (before : List Bytes) (bytes : Bytes) : Writing :=
  if bytes = [] then ⟨before, [], none⟩
  else
    match k.answer before bytes with
    | .error reason => ⟨before ++ [bytes], [], some reason⟩
    | .ok 0 => ⟨before ++ [bytes], [], some noProgress⟩
    | .ok (n + 1) =>
      let w := k.writeAll (before ++ [bytes]) (bytes.drop (n + 1))
      { w with taken := bytes.take (n + 1) ++ w.taken }
termination_by bytes.length
decreasing_by
  have : 0 < bytes.length := List.length_pos_iff.2 ‹_›
  rw [List.length_drop]
  omega

/-- Writes a text and a line break, one after the other. -/
def writeLine (k : Writer) (text : String) : Writing :=
  let w := k.writeAll [] (bytesOf text)
  match w.fault with
  | some _ => w
  | none =>
    let w' := k.writeAll w.offers (bytesOf "\n")
    { w' with taken := w.taken ++ w'.taken }

/-- A writer that takes everything. -/
def endless : Writer where
  answer _ bytes := .ok bytes.length
  le_length _ _ _ h := Nat.le_of_eq (Except.ok.inj h).symm

end Writer

/-- A sink of limited room: how many bytes it takes, if there is a limit, and what it says when it
takes no more. -/
structure Sink where
  room : Option Nat
  refusal : String
  deriving DecidableEq, Repr

namespace Sink

/-- How many bytes are taken of offers, where there is room for `room` bytes. -/
def used (room : Nat) (offers : List Bytes) : Nat :=
  offers.foldl (fun n bytes => min room (n + bytes.length)) 0

/-- What takes bytes as long as there is room. -/
def writer (k : Sink) : Writer where
  answer before bytes :=
    match k.room with
    | none => .ok bytes.length
    | some room =>
      if used room before < room then .ok (min (room - used room before) bytes.length)
      else .error k.refusal
  le_length before bytes n h := by
    split at h
    · exact Nat.le_of_eq (Except.ok.inj h).symm
    · split at h
      · rw [← Except.ok.inj h]
        exact Nat.min_le_right _ _
      · cases h

instance : Coe Sink Writer := ⟨writer⟩

end Sink

end Braceline
