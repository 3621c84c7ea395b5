import Braceline.Json.Number
import Braceline.Text.Quoted

/-!
# Strings of a JSON text

The inside of a string, read up to its closing quote. A character above the first plane may be
escaped as a pair of surrogates; a surrogate without its partner is a fault, and so is a control
character that is not escaped.

* `length_readEscape_le`, `length_readString_lt`: reading uses up what it reads.
-/

namespace Braceline.Json

/-- The size of a text in bytes. -/
def byteLength (cs : List Char) : Nat := cs.foldl (fun n c => n + c.utf8Size) 0

/-- Reads four hexadecimal digits. With fewer than four bytes left the text is cut short. -/
def readHex (cs : List Char) : Except Fault (Nat × List Char) :=
  if byteLength (cs.take 4) < 4 then .error .cutShort
  else
    match cs with
    | a :: b :: c :: d :: rest =>
      match Text.Quoted.hexValue? a, Text.Quoted.hexValue? b, Text.Quoted.hexValue? c,
        Text.Quoted.hexValue? d with
      | some a, some b, some c, some d => .ok (0x1000 * a + 0x100 * b + 0x10 * c + d, rest)
      | _, _, _, _ => .error .malformed
    | _ => .error .malformed

/-- The character for a pair of surrogates. -/
def ofSurrogates (high low : Nat) : Char :=
  Char.ofNat (0x10000 + 0x400 * (high - 0xD800) + (low - 0xDC00))

/-- Reads the second half of a surrogate pair, which is an escape of its own. -/
def readLowSurrogate (high : Nat) : List Char → Except Fault (Char × List Char)
  | [] => .error .cutShort
  | c :: cs =>
    if c ≠ '\\' then .error .malformed
    else
      match cs with
      | [] => .error .cutShort
      | u :: rest =>
        if u ≠ 'u' then .error .malformed
        else
          match readHex rest with
          | .error f => .error f
          | .ok (low, rest') =>
            if 0xDC00 ≤ low ∧ low ≤ 0xDFFF then .ok (ofSurrogates high low, rest')
            else .error .malformed

/-- Reads an escape, after its backslash. -/
def readEscape : List Char → Except Fault (Char × List Char)
  | [] => .error .cutShort
  | e :: cs =>
    if e = 'u' then
      match readHex cs with
      | .error f => .error f
      | .ok (n, rest) =>
        if 0xDC00 ≤ n ∧ n ≤ 0xDFFF then .error .malformed
        else if 0xD800 ≤ n ∧ n ≤ 0xDBFF then readLowSurrogate n rest
        else .ok (Char.ofNat n, rest)
    else if e = '/' then .ok ('/', cs)
    else
      match Text.Quoted.ofShortEscape? e with
      | some c => .ok (c, cs)
      | none => .error .malformed

theorem length_readHex_le {cs rest : List Char} {n : Nat} (h : readHex cs = .ok (n, rest)) :
    rest.length ≤ cs.length := by
  unfold readHex at h
  split at h
  · cases h
  · split at h
    · split at h
      · cases h; simp only [List.length_cons]; omega
      · cases h
    · cases h

theorem length_readLowSurrogate_le {high : Nat} {cs rest : List Char} {c : Char}
    (h : readLowSurrogate high cs = .ok (c, rest)) : rest.length ≤ cs.length := by
  unfold readLowSurrogate at h
  repeat' split at h
  all_goals simp only [reduceCtorEq, Except.ok.injEq, Prod.mk.injEq] at h
  obtain ⟨-, rfl⟩ := h
  rename_i hx _
  have := length_readHex_le hx
  simp only [List.length_cons]
  omega

/-- An escape leaves no more than stood before it. -/
theorem length_readEscape_le {cs rest : List Char} {c : Char}
    (h : readEscape cs = .ok (c, rest)) : rest.length ≤ cs.length := by
  unfold readEscape at h
  split at h
  · cases h
  split at h
  · split at h
    · cases h
    next hx =>
    have hle := length_readHex_le hx
    split at h
    · cases h
    split at h
    · have := length_readLowSurrogate_le h
      simp only [List.length_cons]
      omega
    · simp only [Except.ok.injEq, Prod.mk.injEq] at h
      obtain ⟨-, rfl⟩ := h
      simp only [List.length_cons]
      omega
  · repeat' split at h
    all_goals simp only [reduceCtorEq, Except.ok.injEq, Prod.mk.injEq] at h
    all_goals
      obtain ⟨-, rfl⟩ := h
      simp

/-- Reads the inside of a string and its closing quote. -/
def readString : List Char → Except Fault (List Char × List Char)
  | [] => .error .cutShort
  | c :: cs =>
    if c = '"' then .ok ([], cs)
    else if c.toNat < 0x20 then .error .malformed
    else if c = '\\' then
      match h : readEscape cs with
      | .error f => .error f
      | .ok (x, rest) =>
        have := length_readEscape_le h
        (readString rest).map fun r => (x :: r.1, r.2)
    else (readString cs).map fun r => (c :: r.1, r.2)
termination_by cs => cs.length

/-- A string uses up at least its closing quote. -/
theorem length_readString_lt {cs text rest : List Char} (h : readString cs = .ok (text, rest)) :
    rest.length < cs.length := by
  fun_induction readString cs generalizing text rest with
  | case1 => cases h
  | case2 => cases h; simp
  | case3 => cases h
  | case4 => cases h
  | case5 cs x rest' _ _ _ _ ih =>
    cases hr : readString rest' with
    | error f => rw [hr] at h; cases h
    | ok r => rw [hr] at h; cases h; have := ih hr; simp only [List.length_cons]; omega
  | case6 c cs _ _ _ ih =>
    cases hr : readString cs with
    | error f => rw [hr] at h; cases h
    | ok r => rw [hr] at h; cases h; have := ih hr; simp only [List.length_cons]; omega

end Braceline.Json
