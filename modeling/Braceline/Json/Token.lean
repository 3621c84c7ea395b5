import Braceline.Json.Text

/-!
# Tokens of a JSON text

A text is read as tokens up to the first one that is broken, which stands last and says why. So a
reader of tokens that stops early has not looked at what is wrong further on.

* `tokens_cons_of_isSpace`: white space between tokens does not count.
-/

namespace Braceline.Json

/-- A token. -/
inductive Token where
  | beginObject
  | endObject
  | beginArray
  | endArray
  | colon
  | comma
  | null
  | bool (b : Bool)
  | string (text : String)
  | number (n : Number)
  /-- A token that begins with `first` and cannot be read on. -/
  | broken (first : Char) (fault : Fault)
  deriving Repr

/-- The white space between tokens. -/
def isSpace (c : Char) : Bool := c == ' ' || c == '\n' || c == '\t' || c == '\r'

/-- Reads the rest of a bare word. -/
def readWord : List Char → List Char → Except Fault (List Char)
  | [], cs => .ok cs
  | _ :: _, [] => .error .cutShort
  | e :: es, c :: cs => if c = e then readWord es cs else .error .malformed

/-- What a character can begin. -/
inductive Start where
  /-- The character is a token by itself. -/
  | sign (t : Token)
  /-- A word, with what follows its first letter. -/
  | word (rest : List Char) (t : Token)
  | string
  | number
  | nothing

/-- What `c` begins. -/
def Start.ofChar (c : Char) : Start :=
  match c with
  | '{' => sign .beginObject
  | '}' => sign .endObject
  | '[' => sign .beginArray
  | ']' => sign .endArray
  | ':' => sign .colon
  | ',' => sign .comma
  | '"' => string
  | 'n' => word ['u', 'l', 'l'] .null
  | 't' => word ['r', 'u', 'e'] (.bool true)
  | 'f' => word ['a', 'l', 's', 'e'] (.bool false)
  | '-' => number
  | _ => if c.isDigit then number else nothing

/-- Reads the token that begins with `c`. -/
def readToken (c : Char) (cs : List Char) : Except Fault (Token × List Char) :=
  match Start.ofChar c with
  | .sign t => .ok (t, cs)
  | .word es t => (readWord es cs).map (t, ·)
  | .string => (readString cs).map fun r => (.string (String.ofList r.1), r.2)
  | .number => (Number.read (c :: cs)).map fun r => (.number r.1, r.2)
  | .nothing => .error .malformed

theorem length_readWord_le {es cs rest : List Char} (h : readWord es cs = .ok rest) :
    rest.length ≤ cs.length := by
  induction es generalizing cs with
  | nil => cases h; exact Nat.le_refl _
  | cons e es ih =>
    cases cs with
    | nil => cases h
    | cons c cs =>
      unfold readWord at h
      split at h
      · have := ih h; simp only [List.length_cons]; omega
      · cases h

theorem exists_of_map_eq_ok {ε α β : Type} {f : α → β} {x : Except ε α} {b : β}
    (h : x.map f = .ok b) : ∃ a, x = .ok a ∧ f a = b := by
  cases x with
  | error e => cases h
  | ok a => cases h; exact ⟨a, rfl, rfl⟩

/-- What follows a token is no longer than what followed its first character. -/
theorem length_readToken_le {c : Char} {cs rest : List Char} {t : Token}
    (h : readToken c cs = .ok (t, rest)) : rest.length ≤ cs.length := by
  unfold readToken at h
  cases hs : Start.ofChar c with
  | sign t' => simp only [hs] at h; cases h; exact Nat.le_refl _
  | word es t' =>
    simp only [hs] at h
    obtain ⟨r, hr, hx⟩ := exists_of_map_eq_ok h
    cases hx
    exact length_readWord_le hr
  | string =>
    simp only [hs] at h
    obtain ⟨r, hr, hx⟩ := exists_of_map_eq_ok h
    cases hx
    exact Nat.le_of_lt (length_readString_lt hr)
  | number =>
    simp only [hs] at h
    obtain ⟨r, hr, hx⟩ := exists_of_map_eq_ok h
    cases hx
    exact Nat.le_of_lt_succ (Number.length_read_lt hr)
  | nothing => simp only [hs] at h; cases h

/-- The tokens of a text, up to the first that is broken. -/
def tokens : List Char → List Token
  | [] => []
  | c :: cs =>
    if isSpace c then tokens cs
    else
      match h : readToken c cs with
      | .error f => [.broken c f]
      | .ok (t, rest) =>
        have := length_readToken_le h
        t :: tokens rest
termination_by cs => cs.length

@[simp]
theorem tokens_nil : tokens [] = [] := by rw [tokens]

/-- White space before a token does not count. -/
theorem tokens_cons_of_isSpace {c : Char} (h : isSpace c = true) (cs : List Char) :
    tokens (c :: cs) = tokens cs := by
  rw [tokens, if_pos h]

/-- A token is followed by the tokens of what follows it. -/
theorem tokens_cons_of_readToken {c : Char} {cs rest : List Char} {t : Token}
    (hs : isSpace c = false) (h : readToken c cs = .ok (t, rest)) :
    tokens (c :: cs) = t :: tokens rest := by
  rw [tokens, if_neg (by simp [hs])]
  split
  · next f hf => rw [h] at hf; cases hf
  · next t' rest' ht => rw [h] at ht; cases ht; rfl

end Braceline.Json
