import Braceline.Json.Token
import Braceline.Proofs.Numerals

/-!
# JSON as it is written

A JSON text is a row of lexemes with white space around them. A string may be written in many
ways, since each of its characters may be escaped; what the lexemes are does not depend on that,
nor on the white space. The reader makes the token that is meant of each lexeme. What it cannot
hold is a number that is too large, and there it stops.

* `Hex.read`, `Glyph.read`, `Inside.read`: strings, by induction on their characters.
* `Written.tokens_eq`, `tokens_number`: one lexeme, with any text after it.
* `Spells.tokens_eq`: a text, by induction on its lexemes.
* `exists_spells`: lexemes can be written, by induction on them.
* `arrayOf_cons`, `objectOf_cons`: values and members follow one another.
* `IsValue.text_or_opens`: what a value begins with.
-/

namespace Braceline.Json

/-- Four hexadecimal digits, and the number that they make. -/
inductive Hex : List Char → Nat → Prop where
  | digits {a b c d : Char} {i j k l : Nat} (ha : Text.Quoted.hexValue? a = some i)
    (hb : Text.Quoted.hexValue? b = some j) (hc : Text.Quoted.hexValue? c = some k)
    (hd : Text.Quoted.hexValue? d = some l) :
    Hex [a, b, c, d] (0x1000 * i + 0x100 * j + 0x10 * k + l)

/-- **How a character is written in a string:** as it is, if it is neither a quote nor a backslash
nor a control character; with a letter after a backslash, if there is one for it; by its code; or by
two codes, if it is above the first plane. -/
inductive Glyph : List Char → Char → Prop where
  | plain {c : Char} (hq : c ≠ '"') (hb : c ≠ '\\') (hc : 0x20 ≤ c.toNat) : Glyph [c] c
  | short {c e : Char} (h : Text.Quoted.shortEscape? c = some e) : Glyph ['\\', e] c
  | slash : Glyph ['\\', '/'] '/'
  | code {cs : List Char} {c : Char} (h : Hex cs c.toNat) : Glyph ('\\' :: 'u' :: cs) c
  | pair {cs ds : List Char} {c : Char} {high low : Nat} (hh : Hex cs high) (hl : Hex ds low)
    (hhigh : 0xD800 ≤ high ∧ high ≤ 0xDBFF) (hlow : 0xDC00 ≤ low ∧ low ≤ 0xDFFF)
    (hc : c.toNat = 0x10000 + 0x400 * (high - 0xD800) + (low - 0xDC00)) :
    Glyph ('\\' :: 'u' :: cs ++ '\\' :: 'u' :: ds) c

/-- **What stands between the quotes of a string**, and the text that is meant by it. -/
inductive Inside : List Char → List Char → Prop where
  | nil : Inside [] []
  | cons {cs text value : List Char} {c : Char} (hg : Glyph cs c) (h : Inside text value) :
    Inside (cs ++ text) (c :: value)

/-- **A lexeme.** A number is given by its numeral. -/
inductive Lexeme where
  | beginObject
  | endObject
  | beginArray
  | endArray
  | colon
  | comma
  | null
  | bool (b : Bool)
  | string (text : String)
  | number (numeral : List Char)
  deriving DecidableEq, Repr

/-- **How a lexeme is written.** -/
inductive Written : Lexeme → List Char → Prop where
  | beginObject : Written .beginObject ['{']
  | endObject : Written .endObject ['}']
  | beginArray : Written .beginArray ['[']
  | endArray : Written .endArray [']']
  | colon : Written .colon [':']
  | comma : Written .comma [',']
  | null : Written .null ['n', 'u', 'l', 'l']
  | yes : Written (.bool true) ['t', 'r', 'u', 'e']
  | no : Written (.bool false) ['f', 'a', 'l', 's', 'e']
  | string {text value : List Char} (h : Inside text value) :
    Written (.string (String.ofList value)) ('"' :: text ++ ['"'])
  | number {numeral : List Char} (h : Numeral numeral) : Written (.number numeral) numeral

/-- **A text and its lexemes**, with any white space around them. A number ends where its numeral
does not go on. -/
inductive Spells : List Lexeme → List Char → Prop where
  | nil {gap : List Char} (hgap : gap.all isSpace = true) : Spells [] gap
  | cons {gap text rest : List Char} {l : Lexeme} {ls : List Lexeme}
    (hgap : gap.all isSpace = true) (hw : Written l text)
    (hend : ∀ numeral, l = .number numeral → ∀ c ∈ rest.head?, goesOn c = false)
    (hs : Spells ls rest) : Spells (l :: ls) (gap ++ text ++ rest)

/-- The lexemes of an array. -/
def arrayOf (vs : List (List Lexeme)) : List Lexeme :=
  .beginArray :: [.comma].intercalate vs ++ [.endArray]

/-- The lexemes of an object with the given names and values. -/
def objectOf (ms : List (String × List Lexeme)) : List Lexeme :=
  .beginObject :: [.comma].intercalate (ms.map fun m => .string m.1 :: .colon :: m.2) ++
    [.endObject]

/-- The lexemes of members that follow others. -/
def following (ms : List (String × List Lexeme)) : List Lexeme :=
  ms.flatMap fun m => .comma :: .string m.1 :: .colon :: m.2

/-- **The lexemes of a value.** -/
inductive IsValue : List Lexeme → Prop where
  | null : IsValue [.null]
  | bool (b : Bool) : IsValue [.bool b]
  | string (text : String) : IsValue [.string text]
  | number (numeral : List Char) : IsValue [.number numeral]
  | array {vs : List (List Lexeme)} (h : ∀ v ∈ vs, IsValue v) : IsValue (arrayOf vs)
  | object {ms : List (String × List Lexeme)} (h : ∀ m ∈ ms, IsValue m.2) : IsValue (objectOf ms)

/-- The token that is meant by a lexeme. -/
def Lexeme.token : Lexeme → Token
  | beginObject => .beginObject
  | endObject => .endObject
  | beginArray => .beginArray
  | endArray => .endArray
  | colon => .colon
  | comma => .comma
  | null => .null
  | bool b => .bool b
  | string text => .string text
  | number numeral =>
    match Number.read numeral with
    | .ok (n, _) => .number n
    | .error f => .broken (numeral.headD '0') f

/-- What is heard of lexemes: their tokens, up to the first that is broken. -/
def hear : List Lexeme → List Token
  | [] => []
  | l :: ls =>
    match l.token with
    | .broken first f => [.broken first f]
    | t => t :: hear ls

variable {cs ds text value rest gap numeral : List Char} {c e : Char} {n : Nat} {l : Lexeme}
  {ls v : List Lexeme}

/-! ### Strings -/

theorem Hex.read (h : Hex cs n) (rest : List Char) : readHex (cs ++ rest) = .ok (n, rest) := by
  cases h with
  | @digits a b c d _ _ _ _ ha hb hc hd =>
    -- each digit takes a byte at least
    have hbytes : ¬ byteLength [a, b, c, d] < 4 := by
      have h1 := a.utf8Size_pos
      have h2 := b.utf8Size_pos
      have h3 := c.utf8Size_pos
      have h4 := d.utf8Size_pos
      simp only [byteLength, List.foldl_cons, List.foldl_nil]
      omega
    simp [readHex, hbytes, ha, hb, hc, hd]

/-- A character by its code is no surrogate. -/
theorem readEscape_code (h : Hex cs c.toNat) (rest : List Char) :
    readEscape ('u' :: (cs ++ rest)) = .ok (c, rest) := by
  have hvalid : c.toNat < 0xD800 ∨ 0xDFFF < c.toNat := by
    rcases c.valid with hlow | hhigh
    · exact .inl hlow
    · exact .inr hhigh.1
  rw [readEscape, if_pos rfl, h.read]
  simp only
  rw [if_neg (by omega), if_neg (by omega), Char.ofNat_toNat]

theorem readEscape_pair {high low : Nat} (hh : Hex cs high) (hl : Hex ds low)
    (hhigh : 0xD800 ≤ high ∧ high ≤ 0xDBFF) (hlow : 0xDC00 ≤ low ∧ low ≤ 0xDFFF)
    (hc : c.toNat = 0x10000 + 0x400 * (high - 0xD800) + (low - 0xDC00)) (rest : List Char) :
    readEscape ('u' :: (cs ++ '\\' :: 'u' :: (ds ++ rest))) = .ok (c, rest) := by
  have hpair : readLowSurrogate high ('\\' :: 'u' :: (ds ++ rest)) = .ok (c, rest) := by
    simp only [readLowSurrogate, hl.read, ne_eq, not_true, if_false, if_pos hlow, ofSurrogates,
      ← hc, Char.ofNat_toNat]
  rw [readEscape, if_pos rfl, hh.read]
  simp only
  rw [if_neg (by omega), if_pos hhigh, hpair]

theorem readEscape_short (h : Text.Quoted.shortEscape? c = some e) (rest : List Char) :
    readEscape (e :: rest) = .ok (c, rest) := by
  obtain ⟨hshort, hu⟩ := Text.Quoted.ofShortEscape?_shortEscape? h
  have hslash : e ≠ '/' := by
    rintro rfl
    cases hshort
  rw [readEscape, if_neg hu, if_neg hslash, hshort]

/-- An escape in a string is read as its character. -/
theorem readString_escape (h : readEscape text = .ok (c, rest)) :
    readString ('\\' :: text) = (readString rest).map fun r => (c :: r.1, r.2) := by
  rw [readString, if_neg (by decide), if_neg (by decide), if_pos rfl]
  split
  · next f hf => rw [h] at hf; cases hf
  · next x rest' hx => rw [h] at hx; cases hx; rfl

/-- **What a character is written as** is read as that character. -/
theorem Glyph.read (h : Glyph cs c) (rest : List Char) :
    readString (cs ++ rest) = (readString rest).map fun r => (c :: r.1, r.2) := by
  cases h with
  | plain hq hb hc =>
    rw [List.singleton_append, readString, if_neg hq, if_neg (Nat.not_lt.2 hc), if_neg hb]
  | short h => exact readString_escape (readEscape_short h rest)
  | slash => exact readString_escape rfl
  | code h => exact readString_escape (readEscape_code h rest)
  | @pair cs ds c high low hh hl hhigh hlow hc =>
    have hread := readString_escape (readEscape_pair hh hl hhigh hlow hc rest)
    simpa using hread

theorem Inside.read (h : Inside text value) (rest : List Char) :
    readString (text ++ '"' :: rest) = .ok (value, rest) := by
  induction h with
  | nil => rw [List.nil_append, readString, if_pos rfl]
  | cons hg _ ih =>
    rw [List.append_assoc, hg.read, ih]
    rfl

/-- A text with nothing in it to escape may be written as it is. -/
theorem Inside.plain (h : value.all (fun c => c != '"' && c != '\\' && 0x20 ≤ c.toNat) = true) :
    Inside value value := by
  induction value with
  | nil => exact .nil
  | cons c value ih =>
    rw [List.all_cons, Bool.and_eq_true] at h
    obtain ⟨hc, hvalue⟩ := h
    simp only [Bool.and_eq_true, bne_iff_ne, decide_eq_true_eq] at hc
    exact .cons (.plain hc.1.1 hc.1.2 hc.2) (ih hvalue)

/-! ### Lexemes -/

/-- White space in front does not count. -/
theorem tokens_gap (h : gap.all isSpace = true) (rest : List Char) :
    tokens (gap ++ rest) = tokens rest := by
  induction gap with
  | nil => rfl
  | cons c gap ih =>
    rw [List.all_cons, Bool.and_eq_true] at h
    rw [List.cons_append, tokens_cons_of_isSpace h.1, ih h.2]

/-- A token that is broken is the last. -/
theorem tokens_cons_of_error {f : Fault} (hs : isSpace c = false)
    (h : readToken c text = .error f) : tokens (c :: text) = [.broken c f] := by
  rw [tokens, if_neg (by simp [hs])]
  split
  · next f' hf => rw [h] at hf; cases hf; rfl
  · next t' rest' ht => rw [h] at ht; cases ht

theorem start_of_isDigit (h : c.isDigit = true) : Start.ofChar c = .number := by
  unfold Start.ofChar
  split
  all_goals first
    | rfl
    | exact if_pos h

theorem isSpace_of_isDigit (h : c.isDigit = true) : isSpace c = false := by
  rw [← Bool.not_eq_true]
  intro hs
  simp only [isSpace, Bool.or_eq_true, beq_iff_eq] at hs
  rcases hs with ((rfl | rfl) | rfl) | rfl <;> cases h

/-- A numeral begins as a number does. -/
theorem Numeral.exists_cons (h : Numeral numeral) :
    ∃ c cs, numeral = c :: cs ∧ isSpace c = false ∧ Start.ofChar c = .number := by
  cases h with
  | @parts sign whole fraction exponent hs hw _ _ =>
    rcases hs with rfl | rfl
    · obtain ⟨d, ds, rfl, hd⟩ : ∃ d ds, whole = d :: ds ∧ d.isDigit = true := by
        cases hw with
        | zero => exact ⟨_, _, rfl, by decide⟩
        | digits _ hd => exact ⟨_, _, rfl, hd.isDigit _ List.mem_cons_self⟩
      exact ⟨d, _, rfl, isSpace_of_isDigit hd, start_of_isDigit hd⟩
    · exact ⟨_, _, rfl, by decide, rfl⟩

/-- A number is heard as it is read, or nothing is heard after it. -/
theorem tokens_number (h : Numeral numeral) (hrest : ∀ c ∈ rest.head?, goesOn c = false) :
    tokens (numeral ++ rest) = match Number.read numeral with
      | .ok (n, _) => .number n :: tokens rest
      | .error f => [.broken (numeral.headD '0') f] := by
  obtain ⟨r, hr⟩ := Number.takes_read h
  have hread := hr rest hrest
  -- its token is what is read of the numeral alone
  have halone := hr [] fun c hc => by cases hc
  rw [List.append_nil] at halone
  obtain ⟨c, cs, rfl, hs, hstart⟩ := h.exists_cons
  rw [halone, List.cons_append]
  rw [List.cons_append] at hread
  cases r with
  | ok n => exact tokens_cons_of_readToken hs (by simp only [readToken, hstart, hread]; rfl)
  | error f => exact tokens_cons_of_error hs (by simp only [readToken, hstart, hread]; rfl)

theorem tokens_string (h : Inside text value) (rest : List Char) :
    tokens ('"' :: text ++ ['"'] ++ rest) = .string (String.ofList value) :: tokens rest := by
  have hread : readToken '"' (text ++ '"' :: rest) = .ok (.string (String.ofList value), rest) := by
    simp only [readToken, Start.ofChar, h.read]
    rfl
  rw [List.append_assoc, List.singleton_append, List.cons_append]
  exact tokens_cons_of_readToken (by decide) hread

/-- **One lexeme.** Its token is heard, and what follows it unless that is broken. -/
theorem Written.tokens_eq (h : Written l text)
    (hend : ∀ numeral, l = .number numeral → ∀ c ∈ rest.head?, goesOn c = false) :
    tokens (text ++ rest) = match l.token with
      | .broken first f => [.broken first f]
      | t => t :: tokens rest := by
  cases h with
  | number h =>
    rw [tokens_number h (hend _ rfl), Lexeme.token]
    cases Number.read text <;> rfl
  | string h => exact tokens_string h rest
  | beginObject => exact tokens_cons_of_readToken (by decide) rfl
  | endObject => exact tokens_cons_of_readToken (by decide) rfl
  | beginArray => exact tokens_cons_of_readToken (by decide) rfl
  | endArray => exact tokens_cons_of_readToken (by decide) rfl
  | colon => exact tokens_cons_of_readToken (by decide) rfl
  | comma => exact tokens_cons_of_readToken (by decide) rfl
  | null => exact tokens_cons_of_readToken (by decide) rfl
  | yes => exact tokens_cons_of_readToken (by decide) rfl
  | no => exact tokens_cons_of_readToken (by decide) rfl

/-- **A text is heard as its lexemes**, whatever white space and escapes it is written with. -/
theorem Spells.tokens_eq (h : Spells ls text) : tokens text = hear ls := by
  induction h with
  | nil hgap =>
    have hnone := tokens_gap hgap []
    rw [List.append_nil, tokens_nil] at hnone
    exact hnone
  | cons hgap hw hend _ ih => rw [List.append_assoc, tokens_gap hgap, hw.tokens_eq hend, ih, hear]

/-! ### Every row of lexemes can be written -/

theorem hexValue?_hexDigit (n : Nat) :
    Text.Quoted.hexValue? (Text.Quoted.hexDigit n) = some (n % 16) := by
  have key : ∀ m : Fin 16,
      Text.Quoted.hexValue? (Text.Quoted.hexDigits.getD m.val '0') = some m.val := by decide
  exact key ⟨n % 16, Nat.mod_lt n (by decide)⟩

theorem glyph_escape (c : Char) : Glyph (Text.Quoted.escape c) c := by
  unfold Text.Quoted.escape
  split
  · next e he => exact .short he
  · next he =>
    split
    · next hc =>
      have hzero : Text.Quoted.hexValue? '0' = some 0 := rfl
      have hcode := Hex.digits hzero hzero (hexValue?_hexDigit (c.toNat / 16))
        (hexValue?_hexDigit c.toNat)
      -- two digits are enough for a control character
      have hn : 0x1000 * 0 + 0x100 * 0 + 0x10 * (c.toNat / 16 % 16) + c.toNat % 16 = c.toNat := by
        omega
      rw [hn] at hcode
      exact .code hcode
    · next hc =>
      refine .plain ?_ ?_ (Nat.le_of_not_lt hc)
      · rintro rfl
        cases he
      · rintro rfl
        cases he

/-- **The literal for a text** is one of the ways to write it. -/
theorem written_encode (text : String) :
    Written (.string text) (Text.Quoted.encode text.toList) := by
  have hbody (value : List Char) : Inside (Text.Quoted.body value) value := by
    induction value with
    | nil => exact .nil
    | cons c value ih => exact .cons (glyph_escape c) ih
  have hwritten := Written.string (hbody text.toList)
  rwa [String.ofList_toList] at hwritten

theorem exists_written (h : ∀ numeral, l = .number numeral → Numeral numeral) :
    ∃ text, Written l text := by
  cases l with
  | beginObject => exact ⟨_, .beginObject⟩
  | endObject => exact ⟨_, .endObject⟩
  | beginArray => exact ⟨_, .beginArray⟩
  | endArray => exact ⟨_, .endArray⟩
  | colon => exact ⟨_, .colon⟩
  | comma => exact ⟨_, .comma⟩
  | null => exact ⟨_, .null⟩
  | bool b => cases b <;> exact ⟨_, by constructor⟩
  | string text => exact ⟨_, written_encode text⟩
  | number numeral => exact ⟨_, .number (h numeral rfl)⟩

theorem Spells.space (h : Spells ls text) : Spells ls (' ' :: text) := by
  cases h with
  | nil hgap => exact .nil hgap
  | @cons gap text rest _ _ hgap hw hend hs =>
    exact @Spells.cons (' ' :: gap) text rest _ _ hgap hw hend hs

/-- **Lexemes can be written**, with a space after each. -/
theorem exists_spells (h : ∀ numeral, .number numeral ∈ ls → Numeral numeral) :
    ∃ text, Spells ls text := by
  induction ls with
  | nil => exact ⟨[], .nil rfl⟩
  | cons l ls ih =>
    obtain ⟨rest, hs⟩ := ih fun numeral hn => h numeral (List.mem_cons_of_mem l hn)
    obtain ⟨text, hw⟩ := exists_written fun numeral hl => h numeral (hl ▸ List.mem_cons_self)
    refine ⟨_, @Spells.cons [] text (' ' :: rest) l ls rfl hw (fun _ _ c hc => ?_) hs.space⟩
    obtain rfl := Option.some.inj hc
    decide

/-! ### What is heard -/

@[simp]
theorem hear_beginObject (ls : List Lexeme) :
    hear (.beginObject :: ls) = .beginObject :: hear ls := rfl

@[simp]
theorem hear_beginArray (ls : List Lexeme) :
    hear (.beginArray :: ls) = .beginArray :: hear ls := rfl

@[simp]
theorem hear_colon (ls : List Lexeme) : hear (.colon :: ls) = .colon :: hear ls := rfl

@[simp]
theorem hear_comma (ls : List Lexeme) : hear (.comma :: ls) = .comma :: hear ls := rfl

@[simp]
theorem hear_string (text : String) (ls : List Lexeme) :
    hear (.string text :: ls) = .string text :: hear ls := rfl

theorem intercalate_cons {α : Type} (sep : α) (v : List α) (vs : List (List α)) :
    [sep].intercalate (v :: vs) = v ++ vs.flatMap (sep :: ·) := by
  induction vs generalizing v with
  | nil => rw [List.intercalate_singleton, List.flatMap_nil, List.append_nil]
  | cons u vs ih =>
    rw [List.intercalate_cons_cons, ih, List.flatMap_cons, List.append_assoc, List.singleton_append,
      List.cons_append]

/-- The values of an array follow one another. -/
theorem arrayOf_cons (v : List Lexeme) (vs : List (List Lexeme)) :
    arrayOf (v :: vs) = .beginArray :: (v ++ (vs.flatMap (.comma :: ·) ++ [.endArray])) := by
  rw [arrayOf, intercalate_cons, List.cons_append, List.append_assoc]

/-- The members of an object, too. -/
theorem objectOf_cons (m : String × List Lexeme) (ms : List (String × List Lexeme)) :
    objectOf (m :: ms) =
      .beginObject :: .string m.1 :: .colon :: (m.2 ++ (following ms ++ [.endObject])) := by
  rw [objectOf, List.map_cons, intercalate_cons, List.flatMap_map, following]
  simp only [List.cons_append, List.append_assoc]

/-- A numeral in an array stands in one of its values. -/
theorem mem_of_mem_arrayOf {vs : List (List Lexeme)} (h : .number numeral ∈ arrayOf vs) :
    ∃ v ∈ vs, .number numeral ∈ v := by
  cases vs with
  | nil => simp [arrayOf] at h
  | cons v vs => simpa [arrayOf_cons] using h

theorem mem_of_mem_objectOf {ms : List (String × List Lexeme)}
    (h : .number numeral ∈ objectOf ms) : ∃ m ∈ ms, .number numeral ∈ m.2 := by
  cases ms with
  | nil => simp [objectOf] at h
  | cons m ms => simpa [objectOf_cons, following] using h

/-- A value is a text, or it begins with a token that is none and does not end an array. -/
theorem IsValue.text_or_opens (hv : IsValue v) (ls : List Lexeme) :
    (∃ text, v = [.string text]) ∨
      ∃ t ts, hear (v ++ ls) = t :: ts ∧ t ≠ .endArray ∧ ∀ text, t ≠ .string text := by
  cases hv with
  | string text => exact .inl ⟨text, rfl⟩
  | null => exact .inr ⟨_, _, rfl, nofun, nofun⟩
  | bool b => exact .inr ⟨_, _, rfl, nofun, nofun⟩
  | array h => exact .inr ⟨_, _, rfl, nofun, nofun⟩
  | object h => exact .inr ⟨_, _, rfl, nofun, nofun⟩
  | number numeral =>
    rw [List.singleton_append, hear, Lexeme.token]
    cases Number.read numeral with
    | ok n => exact .inr ⟨_, _, rfl, nofun, nofun⟩
    | error f => exact .inr ⟨_, _, rfl, nofun, nofun⟩

theorem IsValue.exists_token (hv : IsValue v) (ls : List Lexeme) :
    ∃ t ts, hear (v ++ ls) = t :: ts ∧ t ≠ .endArray := by
  rcases hv.text_or_opens ls with ⟨text, rfl⟩ | ⟨t, ts, hts, ht, -⟩
  · exact ⟨_, _, rfl, nofun⟩
  · exact ⟨t, ts, hts, ht⟩

end Braceline.Json
