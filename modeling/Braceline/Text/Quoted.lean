/-!
# Quoted text

A text written as a literal between double quotes. A quote, a backslash and a control character are
escaped; every other character stands for itself.

* `decode_encode`: a reader of literals finds the text, and stops right after the closing quote.
* `le_toNat_of_mem_encode`: a literal holds no control character.
-/

namespace Braceline.Text.Quoted

/-- The digits of an escape by code. -/
def hexDigits : List Char :=
  ['0', '1', '2', '3', '4', '5', '6', '7', '8', '9', 'a', 'b', 'c', 'd', 'e', 'f']

/-- The hexadecimal digit for `n % 16`. -/
def hexDigit (n : Nat) : Char := hexDigits.getD (n % 16) '0'

/-- The letter of a short escape. -/
def shortEscape? (c : Char) : Option Char :=
  if c = '"' then some '"'
  else if c = '\\' then some '\\'
  else if c = '\x08' then some 'b'
  else if c = '\x0c' then some 'f'
  else if c = '\n' then some 'n'
  else if c = '\r' then some 'r'
  else if c = '\t' then some 't'
  else none

/-- A character as it is written inside a literal. -/
def escape (c : Char) : List Char :=
  match shortEscape? c with
  | some e => ['\\', e]
  | none =>
    if c.toNat < 0x20 then ['\\', 'u', '0', '0', hexDigit (c.toNat / 16), hexDigit c.toNat]
    else [c]

/-- The inside of the literal for a text. -/
def body (cs : List Char) : List Char := cs.flatMap escape

/-- The literal for a text. -/
def encode (cs : List Char) : List Char := '"' :: body cs ++ ['"']

/-- The literal for a string. -/
def quote (s : String) : String := String.ofList (encode s.toList)

/-- The value of a hexadecimal digit. -/
def hexValue? (c : Char) : Option Nat :=
  if '0' ≤ c ∧ c ≤ '9' then some (c.toNat - 0x30)
  else if 'a' ≤ c ∧ c ≤ 'f' then some (c.toNat - 0x57)
  else if 'A' ≤ c ∧ c ≤ 'F' then some (c.toNat - 0x37)
  else none

/-- The character that four hexadecimal digits name. -/
def ofHex? (a b c d : Char) : Option Char := do
  let n := 0x1000 * (← hexValue? a) + 0x100 * (← hexValue? b) + 0x10 * (← hexValue? c) +
    (← hexValue? d)
  if h : n.isValidChar then some (Char.ofNatAux n h) else none

/-- The character that a short escape stands for. -/
def ofShortEscape? (e : Char) : Option Char :=
  if e = '"' then some '"'
  else if e = '\\' then some '\\'
  else if e = 'b' then some '\x08'
  else if e = 'f' then some '\x0c'
  else if e = 'n' then some '\n'
  else if e = 'r' then some '\r'
  else if e = 't' then some '\t'
  else none

/-- Reads the rest of a literal: its text, and what follows the closing quote. A literal does not
go on after a line break, and no program holds the character of code zero. -/
def decodeBody : List Char → Option (List Char × List Char)
  | [] => none
  | '\\' :: 'u' :: a :: b :: c :: d :: rest => do
    let x ← ofHex? a b c d
    let (text, rest') ← decodeBody rest
    some (x :: text, rest')
  | '\\' :: e :: rest => do
    let x ← ofShortEscape? e
    let (text, rest') ← decodeBody rest
    some (x :: text, rest')
  | x :: rest =>
    if x = '"' then some ([], rest)
    else if x = '\n' ∨ x = '\r' ∨ x = '\x00' ∨ x = '\\' then none
    else do
      let (text, rest') ← decodeBody rest
      some (x :: text, rest')

/-- Reads the literal at the head of a text. -/
def decode : List Char → Option (List Char × List Char)
  | '"' :: rest => decodeBody rest
  | _ => none

/-- The escaped control characters are read back. -/
theorem ofHex?_hexDigit {c : Char} (h : c.toNat < 0x20) :
    ofHex? '0' '0' (hexDigit (c.toNat / 16)) (hexDigit c.toNat) = some c := by
  have key : ∀ n : Fin 32, ofHex? '0' '0' (hexDigit (n.val / 16)) (hexDigit n.val) =
      some (Char.ofNat n.val) := by decide
  have := key ⟨c.toNat, h⟩
  rwa [Char.ofNat_toNat] at this

theorem ofShortEscape?_shortEscape? {c e : Char} (h : shortEscape? c = some e) :
    ofShortEscape? e = some c ∧ e ≠ 'u' := by
  unfold shortEscape? at h
  repeat' split at h
  all_goals first
    | (cases h; subst_vars; decide)
    | cases h

/-- What a character is written as is read back as that character. -/
theorem decodeBody_escape (c : Char) (rest : List Char) :
    decodeBody (escape c ++ rest) = (decodeBody rest).map fun r => (c :: r.1, r.2) := by
  unfold escape
  split
  · next e he =>
    obtain ⟨h1, h2⟩ := ofShortEscape?_shortEscape? he
    rw [List.cons_append, List.cons_append, List.nil_append]
    rw [decodeBody]
    · rw [h1]
      cases decodeBody rest <;> rfl
    · rintro a b c d r rfl
      simp at h2
  · next he =>
    split
    · next hc =>
      simp only [List.cons_append, List.nil_append, decodeBody, ofHex?_hexDigit hc]
      cases decodeBody rest <;> rfl
    · next hc =>
      have h1 : c ≠ '"' := by rintro rfl; simp [shortEscape?] at he
      have h2 : c ≠ '\\' := by rintro rfl; simp [shortEscape?] at he
      have h3 : c ≠ '\n' := by rintro rfl; simp [shortEscape?] at he
      have h4 : c ≠ '\r' := by rintro rfl; simp [shortEscape?] at he
      have h5 : c ≠ '\x00' := by rintro rfl; exact hc (by decide)
      rw [List.cons_append, List.nil_append]
      rw [decodeBody]
      · simp only [h1, h2, h3, h4, h5, if_false, or_self]
        cases decodeBody rest <;> rfl
      · rintro a b c d r rfl; exact absurd rfl h2
      · rintro e r rfl; exact absurd rfl h2

theorem decodeBody_body (cs rest : List Char) :
    decodeBody (body cs ++ '"' :: rest) = some (cs, rest) := by
  induction cs with
  | nil => rw [body, List.flatMap_nil, List.nil_append, decodeBody] <;> simp
  | cons c cs ih =>
    have hb : body (c :: cs) = escape c ++ body cs := rfl
    rw [hb, List.append_assoc, decodeBody_escape, ih]
    rfl

/-- **A reader of literals finds the text,** and stops right after the closing quote. -/
theorem decode_encode (cs rest : List Char) : decode (encode cs ++ rest) = some (cs, rest) := by
  simpa [decode, encode] using decodeBody_body cs rest

/-- The inside of a literal does not begin with a quote. -/
theorem head?_body_ne_quote (cs : List Char) : ∀ c ∈ (body cs).head?, c ≠ '"' := by
  cases cs with
  | nil => exact fun c hc => by cases hc
  | cons d cs =>
    rw [body, List.flatMap_cons, escape]
    split
    · rintro c hc rfl
      cases hc
    · next hnone =>
      split
      · rintro c hc rfl
        cases hc
      · rintro c hc rfl
        obtain rfl : d = '"' := Option.some.inj hc
        cases hnone

theorem le_toNat_of_mem_escape {c d : Char} (h : d ∈ escape c) : 0x20 ≤ d.toNat := by
  have hdigit (n : Nat) : 0x20 ≤ (hexDigit n).toNat := by
    have key : ∀ m : Fin 16, 0x20 ≤ (hexDigits.getD m.val '0').toNat := by decide
    exact key ⟨n % 16, Nat.mod_lt n (by decide)⟩
  unfold escape at h
  split at h
  · next e he =>
    have hletter : 0x20 ≤ e.toNat := by
      unfold shortEscape? at he
      repeat' split at he
      all_goals first
        | (cases he; decide)
        | cases he
    rcases List.mem_cons.1 h with rfl | h
    · decide
    · rw [List.mem_singleton.1 h]
      exact hletter
  · split at h
    · simp only [List.mem_cons, List.not_mem_nil, or_false] at h
      rcases h with rfl | rfl | rfl | rfl | rfl | rfl
      · decide
      · decide
      · decide
      · decide
      · exact hdigit _
      · exact hdigit _
    · next hc =>
      rw [List.mem_singleton.1 h]
      exact Nat.le_of_not_lt hc

/-- **A literal holds no control character.** -/
theorem le_toNat_of_mem_encode {cs : List Char} {d : Char} (h : d ∈ encode cs) :
    0x20 ≤ d.toNat := by
  rcases List.mem_append.1 h with h | h
  · rcases List.mem_cons.1 h with rfl | h
    · decide
    · obtain ⟨c, -, hd⟩ := List.mem_flatMap.1 h
      exact le_toNat_of_mem_escape hd
  · rw [List.mem_singleton.1 h]
    decide

end Braceline.Text.Quoted
