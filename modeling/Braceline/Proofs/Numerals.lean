import Braceline.Json.Number

/-!
# Numbers as they are written

The numerals of JSON, and what the reader makes of them. It takes all of a numeral and nothing
after it, whether it can hold the number or not. A whole number that is written in decimal, with no
zero in front of other digits, is read as that number as long as it fits.

* `readFraction_append`, `readUnsigned_append`: a run of digits, whatever follows it.
* `takes_read`: what is taken, with one lemma for each part of a numeral.
* `absorb_eq`: digits that fit are all kept, by induction on them.
* `numeral_toDigits`, `read_toDigits`: a whole number is a numeral, and it is read back.
-/

namespace Braceline.Json

/-- One digit or more. -/
structure Digits (ds : List Char) : Prop where
  ne_nil : ds ≠ []
  isDigit : ∀ d ∈ ds, d.isDigit = true

/-- The first of them. -/
theorem Digits.exists_cons {ds : List Char} (h : Digits ds) :
    ∃ d ds', ds = d :: ds' ∧ d.isDigit = true := by
  obtain ⟨d, ds', rfl⟩ := List.exists_cons_of_ne_nil h.ne_nil
  exact ⟨d, ds', rfl, h.isDigit d List.mem_cons_self⟩

/-- **The exponent of a numeral**, if it has one. -/
inductive Exponent : List Char → Prop where
  | none : Exponent []
  | some {e : Char} {sign ds : List Char} (he : e = 'e' ∨ e = 'E')
    (hs : sign = [] ∨ sign = ['+'] ∨ sign = ['-']) (hd : Digits ds) : Exponent (e :: sign ++ ds)

/-- **The fraction of a numeral**, if it has one. -/
inductive Fraction : List Char → Prop where
  | none : Fraction []
  | some {ds : List Char} (hd : Digits ds) : Fraction ('.' :: ds)

/-- **The whole part of a numeral.** A zero in front of other digits is none. -/
inductive Whole : List Char → Prop where
  | zero : Whole ['0']
  | digits {d : Char} {ds : List Char} (h0 : d ≠ '0') (hd : Digits (d :: ds)) : Whole (d :: ds)

/-- **A numeral.** -/
inductive Numeral : List Char → Prop where
  | parts {sign whole fraction exponent : List Char} (hs : sign = [] ∨ sign = ['-'])
    (hw : Whole whole) (hf : Fraction fraction) (he : Exponent exponent) :
    Numeral (sign ++ whole ++ fraction ++ exponent)

/-- May a numeral go on with the character? -/
def goesOn (c : Char) : Bool := c.isDigit || c == '.' || c == 'e' || c == 'E'

/-- Is a text read up to where it ends, whatever stands there, as long as it does not go on? -/
def Takes (read : List Char → Except Fault (Number × List Char)) (cs : List Char) : Prop :=
  ∃ r : Except Fault Number, ∀ rest : List Char, (∀ c ∈ rest.head?, goesOn c = false) →
    read (cs ++ rest) = r.map (·, rest)

/-- A reader that reads what is in front, and then reads on as another does. -/
theorem Takes.after {read read' : List Char → Except Fault (Number × List Char)}
    {front cs : List Char} (h : Takes read cs)
    (hread : ∀ rest : List Char, (∀ c ∈ rest.head?, goesOn c = false) →
      read' (front ++ (cs ++ rest)) = read (cs ++ rest)) : Takes read' (front ++ cs) := by
  obtain ⟨r, hr⟩ := h
  refine ⟨r, fun rest hrest => ?_⟩
  rw [List.append_assoc, hread rest hrest, hr rest hrest]

namespace Number

variable {neg down : Bool} {m limit n : Nat} {e : Int} {c : Char} {value : Except Fault Number}
  {ds rest sign whole fraction exponent : List Char}

/-! ### The readers -/

/-- The digits at the front of a text are those before a character that is none. -/
theorem span_digits (hd : ∀ d ∈ ds, d.isDigit = true)
    (hrest : ∀ c ∈ rest.head?, c.isDigit = false) :
    (ds ++ rest).takeWhile Char.isDigit = ds ∧ (ds ++ rest).dropWhile Char.isDigit = rest := by
  rw [List.takeWhile_append_of_pos hd, List.dropWhile_append_of_pos hd]
  cases rest with
  | nil => exact ⟨List.append_nil ds, rfl⟩
  | cons c rest =>
    have hc : ¬ c.isDigit = true := by
      rw [hrest c rfl]
      exact Bool.false_ne_true
    rw [List.takeWhile_cons_of_neg hc, List.dropWhile_cons_of_neg hc, List.append_nil]
    exact ⟨rfl, rfl⟩

theorem readExponentDigits_append (hd : Digits ds) (hrest : ∀ c ∈ rest.head?, c.isDigit = false) :
    readExponentDigits neg m e down (ds ++ rest) =
      (withExponent neg m e down ds).map (·, rest) := by
  obtain ⟨htake, hdrop⟩ := span_digits hd.isDigit hrest
  obtain ⟨d, ds', hds, hdigit⟩ := hd.exists_cons
  rw [hds, List.cons_append] at htake hdrop ⊢
  rw [readExponentDigits, if_pos hdigit, htake, hdrop]

/-- A digit is no sign. -/
theorem readExponent_digit (hc : c.isDigit = true) (rest : List Char) :
    readExponent neg m e (c :: rest) = readExponentDigits neg m e false (c :: rest) := by
  rw [readExponent]
  · rintro cs ⟨⟩
    cases hc
  · rintro cs ⟨⟩
    cases hc

theorem readExponent?_end (hrest : ∀ c ∈ rest.head?, goesOn c = false) :
    readExponent? neg m e value rest = value.map (·, rest) := by
  rw [readExponent?]
  · rintro cs rfl
    cases hrest _ rfl
  · rintro cs rfl
    cases hrest _ rfl

theorem readFraction_append (hd : Digits ds) (hrest : ∀ c ∈ rest.head?, c.isDigit = false) :
    readFraction neg m e (ds ++ rest) =
      readExponent? neg (absorb maxSignificand m ds).1
        (e - (ds.length - (absorb maxSignificand m ds).2 : Nat))
        (scaled neg (absorb maxSignificand m ds).1
          (e - (ds.length - (absorb maxSignificand m ds).2 : Nat))) rest := by
  obtain ⟨htake, hdrop⟩ := span_digits hd.isDigit hrest
  obtain ⟨d, ds', hds, hdigit⟩ := hd.exists_cons
  rw [hds, List.cons_append] at htake hdrop ⊢
  rw [readFraction, if_pos hdigit]
  simp only [htake, hdrop]

theorem readAfter_of_ne (hrest : ∀ c ∈ rest.head?, c ≠ '.') :
    readAfter neg ds rest = readExponent? neg (absorb maxSignificand 0 ds).1
      (absorb maxSignificand 0 ds).2
      (ofDigits neg (absorb maxSignificand 0 ds).1 (absorb maxSignificand 0 ds).2) rest := by
  rw [readAfter]
  rintro cs rfl
  exact hrest '.' rfl rfl

theorem readUnsigned_append (hw : Whole whole) (hrest : ∀ c ∈ rest.head?, c.isDigit = false) :
    readUnsigned neg (whole ++ rest) = readAfter neg whole rest := by
  cases hw with
  | zero =>
    -- the one place where what follows could spoil what has been read
    have hnone : rest.head?.any Char.isDigit = false := by
      cases hhead : rest.head? with
      | none => rfl
      | some c => exact hrest c hhead
    rw [List.singleton_append, readUnsigned, if_pos rfl, hnone]
    rfl
  | @digits d ds h0 hd =>
    obtain ⟨htake, hdrop⟩ :=
      span_digits (fun c hc => hd.isDigit c (List.mem_cons_of_mem d hc)) hrest
    rw [List.cons_append, readUnsigned, if_neg h0, if_pos (hd.isDigit d List.mem_cons_self), htake,
      hdrop]

/-- A numeral without a sign begins with a digit. -/
theorem read_unsigned (hw : Whole whole) (rest : List Char) :
    read (whole ++ rest) = readUnsigned false (whole ++ rest) := by
  obtain ⟨d, ds, rfl, hd⟩ : ∃ d ds, whole = d :: ds ∧ d ≠ '-' := by
    cases hw with
    | zero => exact ⟨_, _, rfl, by decide⟩
    | digits _ hd =>
      refine ⟨_, _, rfl, ?_⟩
      rintro rfl
      cases hd.isDigit '-' List.mem_cons_self
  rw [List.cons_append, read]
  rintro cs ⟨⟩
  exact hd rfl

/-! ### What is taken -/

theorem not_isDigit_of_not_goesOn (h : goesOn c = false) : c.isDigit = false := by
  simp only [goesOn, Bool.or_eq_false_iff] at h
  exact h.1.1.1

theorem ne_point_of_not_goesOn (h : goesOn c = false) : c ≠ '.' := by
  rintro rfl
  cases h

/-- What follows the digits of a fraction is no digit, and neither is it a point. -/
theorem head_exponent (he : Exponent exponent) (hrest : ∀ c ∈ rest.head?, goesOn c = false) :
    ∀ c ∈ (exponent ++ rest).head?, c.isDigit = false ∧ c ≠ '.' := by
  intro c hc
  cases he with
  | none => exact ⟨not_isDigit_of_not_goesOn (hrest c hc), ne_point_of_not_goesOn (hrest c hc)⟩
  | some he _ _ =>
    obtain rfl := Option.some.inj hc
    rcases he with rfl | rfl <;> decide

/-- What follows the digits of a whole part is no digit. -/
theorem head_fraction (hf : Fraction fraction) (he : Exponent exponent)
    (hrest : ∀ c ∈ rest.head?, goesOn c = false) :
    ∀ c ∈ (fraction ++ exponent ++ rest).head?, c.isDigit = false := by
  intro c hc
  cases hf with
  | none => exact (head_exponent he hrest c hc).1
  | some hd =>
    obtain rfl := Option.some.inj hc
    decide

theorem takes_readExponentDigits (hd : Digits ds) : Takes (readExponentDigits neg m e down) ds :=
  ⟨_, fun _ hrest =>
    readExponentDigits_append hd fun c hc => not_isDigit_of_not_goesOn (hrest c hc)⟩

theorem takes_readExponent (hs : sign = [] ∨ sign = ['+'] ∨ sign = ['-']) (hd : Digits ds) :
    Takes (readExponent neg m e) (sign ++ ds) := by
  rcases hs with rfl | rfl | rfl
  · have htakes : Takes (readExponentDigits neg m e false) ds := takes_readExponentDigits hd
    refine htakes.after fun rest _ => ?_
    obtain ⟨d, ds', rfl, hdigit⟩ := hd.exists_cons
    rw [List.nil_append, List.cons_append]
    exact readExponent_digit hdigit _
  · exact (takes_readExponentDigits hd).after fun _ _ => rfl
  · exact (takes_readExponentDigits hd).after fun _ _ => rfl

theorem takes_readExponent? (he : Exponent exponent) :
    Takes (readExponent? neg m e value) exponent := by
  cases he with
  | none => exact ⟨value, fun _ hrest => readExponent?_end hrest⟩
  | @some letter sign ds he hs hd =>
    have htakes : Takes (readExponent? neg m e value) ([letter] ++ (sign ++ ds)) :=
      (takes_readExponent hs hd).after fun _ _ => by rcases he with rfl | rfl <;> rfl
    exact htakes

theorem takes_readFraction (hd : Digits ds) (he : Exponent exponent) :
    Takes (readFraction neg m e) (ds ++ exponent) :=
  (takes_readExponent? he).after fun _ hrest =>
    readFraction_append hd fun c hc => (head_exponent he hrest c hc).1

theorem takes_readAfter (hf : Fraction fraction) (he : Exponent exponent) :
    Takes (readAfter neg ds) (fraction ++ exponent) := by
  cases hf with
  | none =>
    exact (takes_readExponent? he).after fun _ hrest =>
      readAfter_of_ne fun c hc => (head_exponent he hrest c hc).2
  | @some ds' hd =>
    have htakes : Takes (readAfter neg ds) (['.'] ++ (ds' ++ exponent)) :=
      (takes_readFraction hd he).after fun _ _ => rfl
    exact htakes

/-- **A numeral is taken**, all of it and no more. -/
theorem takes_read {cs : List Char} (h : Numeral cs) : Takes read cs := by
  cases h with
  | @parts sign whole fraction exponent hs hw hf he =>
    have hunsigned (neg : Bool) :
        Takes (readUnsigned neg) (whole ++ (fraction ++ exponent)) :=
      (takes_readAfter hf he).after fun _ hrest =>
        readUnsigned_append hw (head_fraction hf he hrest)
    have hread : Takes read (sign ++ (whole ++ (fraction ++ exponent))) := by
      -- without a sign, the first digit is not taken for one
      rcases hs with rfl | rfl
      · refine (hunsigned false).after fun rest _ => ?_
        rw [List.nil_append, List.append_assoc]
        exact read_unsigned hw _
      · exact (hunsigned true).after fun _ _ => rfl
    rwa [← List.append_assoc, ← List.append_assoc] at hread

/-! ### Whole numbers -/

theorem le_ofDigitChars (ds : List Char) (m : Nat) : m ≤ Nat.ofDigitChars 10 ds m := by
  induction ds generalizing m with
  | nil => exact Nat.le_refl m
  | cons d ds ih =>
    have hle := ih (10 * m + (d.toNat - '0'.toNat))
    rw [Nat.ofDigitChars_cons]
    omega

/-- **Digits are all kept** if the number that they make fits. -/
theorem absorb_eq (h : Nat.ofDigitChars 10 ds m ≤ limit) :
    absorb limit m ds = (Nat.ofDigitChars 10 ds m, 0) := by
  induction ds generalizing m with
  | nil => rfl
  | cons d ds ih =>
    rw [Nat.ofDigitChars_cons] at h ⊢
    rw [absorb, if_pos (Nat.le_trans (le_ofDigitChars ds _) h)]
    exact ih h

/-- A number above zero is not written with a zero in front. -/
theorem exists_toDigits (hn : 0 < n) : ∃ d ds, Nat.toDigits 10 n = d :: ds ∧ d ≠ '0' := by
  induction n using Nat.strongRecOn with
  | ind n ih =>
    by_cases hsmall : n < 10
    · refine ⟨n.digitChar, [], Nat.toDigits_of_lt_base hsmall, ?_⟩
      have key : ∀ k : Fin 10, 0 < k.val → k.val.digitChar ≠ '0' := by decide
      exact key ⟨n, hsmall⟩ hn
    · -- the last digit goes, and the first one stays
      obtain ⟨d, ds, hds, hd⟩ := ih (n / 10) (by omega) (by omega)
      refine ⟨d, ds ++ [(n % 10).digitChar], ?_, hd⟩
      rw [Nat.toDigits_of_base_le (by decide) (by omega), hds, List.cons_append]

/-- A number in decimal is a whole part. -/
theorem whole_toDigits (n : Nat) : Whole (Nat.toDigits 10 n) := by
  rcases Nat.eq_zero_or_pos n with rfl | hn
  · exact .zero
  · obtain ⟨d, ds, hds, hd⟩ := exists_toDigits hn
    have hdigits : Digits (Nat.toDigits 10 n) :=
      ⟨Nat.toDigits_ne_nil, fun c hc => Nat.isDigit_of_mem_toDigits (by decide) (by decide) hc⟩
    rw [hds] at hdigits ⊢
    exact .digits hd hdigits

theorem numeral_toDigits (n : Nat) : Numeral (Nat.toDigits 10 n) := by
  have hparts := Numeral.parts (.inl rfl) (whole_toDigits n) .none .none
  rwa [List.nil_append, List.append_nil, List.append_nil] at hparts

/-- **A whole number is read back** if it fits. -/
theorem read_toDigits (hn : n ≤ maxSignificand) (hrest : ∀ c ∈ rest.head?, goesOn c = false) :
    read (Nat.toDigits 10 n ++ rest) = .ok (.natural n, rest) := by
  have hvalue : Nat.ofDigitChars 10 (Nat.toDigits 10 n) 0 = n :=
    Nat.ofDigitChars_toDigits (by decide) (by decide)
  have habsorb : absorb maxSignificand 0 (Nat.toDigits 10 n) = (n, 0) := by
    rw [absorb_eq (by rwa [hvalue]), hvalue]
  have hdigit (c : Char) (hc : c ∈ rest.head?) : c.isDigit = false :=
    not_isDigit_of_not_goesOn (hrest c hc)
  have hpoint (c : Char) (hc : c ∈ rest.head?) : c ≠ '.' := ne_point_of_not_goesOn (hrest c hc)
  rw [read_unsigned (whole_toDigits n), readUnsigned_append (whole_toDigits n) hdigit,
    readAfter_of_ne hpoint, readExponent?_end hrest, habsorb]
  rfl

end Number

end Braceline.Json
