import Braceline.Scan
import Mathlib.Data.List.TakeWhile

/-!
# Spans

A script read in one piece at a time: a character of code, a whole comment, or a whole literal.
Reading a piece needs no memory of the pieces before it. A comment runs up to the next line break.
A literal runs up to the first place where its fence stands and the quote is not escaped; a
backslash escapes the character after it.

* `ofText_text`: the spans of a text, put together, are the text.
* `ofText_eq_iff`: spans are those of a text exactly when they make up the text and each of them
  ends where it may end (`Separated`).
-/

namespace Braceline

namespace Fence

/-- The number of quotes in a fence. -/
def width (f : Fence) : Nat := if f.triple then 3 else 1

/-- The fence as it is written. -/
def chars (f : Fence) : List Char := List.replicate f.width f.quote.char

/-- The fence that a quote in code begins: three quotes if two more follow, else one. -/
def opening (q : Quote) (rest : List Char) : Fence := ⟨q, [q.char, q.char] <+: rest⟩

/-- Splits what follows an opening fence at its closing fence, which begins at the first quote that
is not escaped and, for a triple fence, has two more behind it. -/
def close? (f : Fence) : List Char → Option (List Char × List Char)
  | '\\' :: c :: rest => (f.close? rest).map fun r => ('\\' :: c :: r.1, r.2)
  | c :: rest =>
    if f.chars <+: c :: rest then some ([], (c :: rest).drop f.width)
    else (f.close? rest).map fun r => (c :: r.1, r.2)
  | [] => none

variable {f : Fence} {cs body rest : List Char}

theorem chars_eq_cons (f : Fence) :
    f.chars = f.quote.char :: List.replicate (f.width - 1) f.quote.char := by
  unfold chars width
  split <;> rfl

theorem length_chars (f : Fence) : f.chars.length = f.width := by simp [chars]

theorem quote_ne_backslash (q : Quote) : q.char ≠ '\\' := by cases q <;> decide

theorem close?_escape (c : Char) (cs : List Char) :
    f.close? ('\\' :: c :: cs) = (f.close? cs).map fun r => ('\\' :: c :: r.1, r.2) := by
  rw [close?]

theorem close?_cons {c : Char} (hc : c ≠ '\\') (cs : List Char) :
    f.close? (c :: cs) =
      if f.chars <+: c :: cs then some ([], (c :: cs).drop f.width)
      else (f.close? cs).map fun r => (c :: r.1, r.2) := by
  rw [close?]
  rintro _ _ rfl; exact absurd rfl hc

/-- A literal may be empty. -/
theorem close?_fence (f : Fence) (cs : List Char) : f.close? (f.chars ++ cs) = some ([], cs) := by
  have hp : f.chars <+: f.chars ++ cs := List.prefix_append _ _
  rw [chars_eq_cons, List.cons_append, close?_cons (quote_ne_backslash _), ← List.cons_append,
    ← chars_eq_cons, if_pos hp, ← length_chars, List.drop_left]

/-- Whether a fence stands at the front of a text is seen from as many characters as it has. -/
theorem chars_prefix_append {xs : List Char} (h : f.width ≤ xs.length) (ys : List Char) :
    f.chars <+: xs ++ ys ↔ f.chars <+: xs := by
  rw [List.prefix_iff_eq_take, List.prefix_iff_eq_take, length_chars,
    List.take_append_of_le_length h]

/-- Splitting at the closing fence loses nothing. -/
theorem close?_eq_some (h : f.close? cs = some (body, rest)) : cs = body ++ f.chars ++ rest := by
  fun_induction close? f cs generalizing body rest with
  | case1 c tail ih =>
    obtain ⟨⟨b, r⟩, hr, he⟩ := Option.map_eq_some_iff.1 h
    obtain ⟨rfl, rfl⟩ := Prod.mk.inj he
    simp [ih hr]
  | case2 c tail _ hp =>
    obtain ⟨rfl, rfl⟩ := Prod.mk.inj (Option.some.inj h)
    obtain ⟨t, ht⟩ := hp
    rw [← ht, ← length_chars, List.drop_left, List.nil_append]
  | case3 c tail _ _ ih =>
    obtain ⟨⟨b, r⟩, hr, he⟩ := Option.map_eq_some_iff.1 h
    obtain ⟨rfl, rfl⟩ := Prod.mk.inj he
    simp [ih hr]
  | case4 => cases h

/-- Where a closing fence is still to come, a character that escapes none is no backslash. -/
theorem ne_backslash_of_close? {c : Char} (hne : ∀ d ds, c = '\\' → cs = d :: ds → False)
    (h : f.close? cs = some (body, rest)) : c ≠ '\\' := by
  cases cs with
  | nil => simp [close?] at h
  | cons d ds => exact fun hc => hne d ds hc rfl

/-- What follows the closing fence has no say in where that fence stands. -/
theorem close?_append (h : f.close? cs = some (body, rest)) (rest' : List Char) :
    f.close? (body ++ f.chars ++ rest') = some (body, rest') := by
  fun_induction close? f cs generalizing body rest with
  | case1 c tail ih =>
    obtain ⟨⟨b, r⟩, hr, he⟩ := Option.map_eq_some_iff.1 h
    obtain ⟨rfl, rfl⟩ := Prod.mk.inj he
    simp only [List.cons_append, close?_escape, ih hr, Option.map_some]
  | case2 c tail =>
    obtain ⟨rfl, -⟩ := Prod.mk.inj (Option.some.inj h)
    exact close?_fence f rest'
  | case3 c tail hne hp ih =>
    obtain ⟨⟨b, r⟩, hr, he⟩ := Option.map_eq_some_iff.1 h
    obtain ⟨rfl, rfl⟩ := Prod.mk.inj he
    have htail := close?_eq_some hr
    have hc := ne_backslash_of_close? hne hr
    -- the fence is as far from `c` with the new rest as it was with the old one
    have hw : f.width ≤ (c :: (b ++ f.chars)).length := by
      simp only [List.length_cons, List.length_append, length_chars]; omega
    have hp' : ¬ f.chars <+: c :: (b ++ f.chars ++ rest') := by
      rw [htail, ← List.cons_append, chars_prefix_append hw] at hp
      rwa [← List.cons_append, chars_prefix_append hw]
    simp only [List.cons_append]
    rw [close?_cons hc, if_neg hp', ih hr]; rfl
  | case4 => cases h

/-- A plain fence closes at the first quote, if that comes at once. -/
theorem close?_quote_of_plain (hf : f.triple = false) (cs : List Char) :
    f.close? (f.quote.char :: cs) = some ([], cs) := by
  have hq : f.chars = [f.quote.char] := by simp [chars, width, hf]
  simpa [hq] using close?_fence f cs

/-- The rest of an opening fence follows the quote that it begins with. -/
theorem replicate_append_drop_opening (q : Quote) (cs : List Char) :
    List.replicate ((opening q cs).width - 1) q.char ++ cs.drop ((opening q cs).width - 1) =
      cs := by
  unfold opening width
  by_cases h : [q.char, q.char] <+: cs
  · obtain ⟨t, rfl⟩ := h
    simp
  · simp [h]

end Fence

/-- A piece of a script. A comment is given without its sign, a literal without its fences; one
that is not closed reaches to the end of the script. -/
inductive Span where
  | code (c : Char)
  | comment (body : List Char)
  | literal (fence : Fence) (body : List Char) (closed : Bool)
  deriving DecidableEq, Repr

namespace Span

/-- The span as it is written. -/
def text : Span → List Char
  | code c => [c]
  | comment body => '#' :: body
  | literal f body closed => f.chars ++ body ++ if closed then f.chars else []

/-- Only code is live. -/
def isCode : Span → Bool
  | code _ => true
  | _ => false

/-- **The spans of a text.** -/
def ofText : List Char → List Span
  | [] => []
  | c :: rest =>
    if c = '#' then
      comment (rest.takeWhile (· ≠ '\n')) :: ofText (rest.dropWhile (· ≠ '\n'))
    else
      match Quote.ofChar? c with
      | none => code c :: ofText rest
      | some q =>
        match h : (Fence.opening q rest).close? (rest.drop ((Fence.opening q rest).width - 1)) with
        | some (body, after) => literal (Fence.opening q rest) body true :: ofText after
        | none =>
          [literal (Fence.opening q rest) (rest.drop ((Fence.opening q rest).width - 1)) false]
  termination_by cs => cs.length
  decreasing_by
    · exact Nat.lt_succ_of_le (List.dropWhile_suffix _).length_le
    · simp
    · have := congrArg List.length (Fence.close?_eq_some h)
      simp only [List.length_drop, List.length_append] at this
      simp only [List.length_cons]
      omega

/-- May the span stand before `next`? A comment ends before a line break, and an empty literal must
not run together with a quote after it. The closing fence of a literal is the first there is. -/
def Fits : Span → Option Char → Prop
  | code c, _ => Quote.ofChar? c = none ∧ c ≠ '#'
  | comment body, next => '\n' ∉ body ∧ ∀ c ∈ next, c = '\n'
  | literal f body true, next =>
    f.close? (body ++ f.chars) = some (body, []) ∧
      (f.triple = false → body = [] → next ≠ some f.quote.char)
  | literal f body false, next => f.close? body = none ∧ next = none

/-- Each span may stand where it stands. -/
def Separated : List Span → Prop
  | [] => True
  | s :: ss => s.Fits (ss.flatMap text).head? ∧ Separated ss

variable {s : Span} {cs rest : List Char}

theorem text_ne_nil (s : Span) : s.text ≠ [] := by
  cases s <;> simp [text, Fence.chars_eq_cons]

/-- A closed literal ends in its quote. -/
theorem exists_text_quote (f : Fence) (body : List Char) :
    ∃ t, (literal f body true).text = t ++ [f.quote.char] := by
  have hfence : f.chars = List.replicate (f.width - 1) f.quote.char ++ [f.quote.char] := by
    rw [← List.replicate_succ', Fence.chars]
    congr 1
    unfold Fence.width
    split <;> rfl
  refine ⟨f.chars ++ body ++ List.replicate (f.width - 1) f.quote.char, ?_⟩
  rw [List.append_assoc, ← hfence]
  rfl

theorem flatMap_text_eq_nil {ss : List Span} (h : ss.flatMap text = []) : ss = [] := by
  cases ss with
  | nil => rfl
  | cons s ss => simp [text_ne_nil] at h

/-- The fence that opens a literal is the one that it is closed by. -/
theorem opening_of_fits {f : Fence} {body : List Char} {closed : Bool}
    (h : (literal f body closed).Fits rest.head?) :
    Fence.opening f.quote (List.replicate (f.width - 1) f.quote.char ++ body ++
      (if closed then f.chars else []) ++ rest) = f := by
  obtain ⟨q, triple⟩ := f
  unfold Fence.opening
  cases triple with
  | true => simp [Fence.width]
  | false =>
    -- a plain fence: two more quotes would close the literal, and leave a quote after it
    have hp : ¬ [q.char, q.char] <+: body ++ (if closed then [q.char] else []) ++ rest := by
      rintro ⟨t, ht⟩
      cases body with
      | nil =>
        cases closed with
        | true =>
          have hr : rest = q.char :: t := by simpa using ht.symm
          exact h.2 rfl rfl (by rw [hr]; rfl)
        | false =>
          have hr : rest = [] := List.head?_eq_none_iff.1 h.2
          simp [hr] at ht
      | cons b body =>
        have hb : b = q.char := by simp at ht; exact ht.1.symm
        subst hb
        cases closed with
        | true =>
          have := h.1.symm.trans (Fence.close?_quote_of_plain (f := ⟨q, false⟩) rfl _)
          simp at this
        | false =>
          have := h.1.symm.trans (Fence.close?_quote_of_plain (f := ⟨q, false⟩) rfl _)
          simp at this
    simpa [Fence.width, Fence.chars] using hp

/-- A quote in code opens a literal, which is closed or else reaches to the end. -/
theorem ofText_quote (q : Quote) (rest : List Char) :
    ofText (q.char :: rest) =
      match (Fence.opening q rest).close? (rest.drop ((Fence.opening q rest).width - 1)) with
      | some (body, after) => literal (Fence.opening q rest) body true :: ofText after
      | none =>
        [literal (Fence.opening q rest) (rest.drop ((Fence.opening q rest).width - 1)) false] := by
  have hq : q.char ≠ '#' := by cases q <;> decide
  rw [ofText, if_neg hq]
  split
  · simp_all [Quote.ofChar?_char]
  · next q' hq' =>
    rw [Quote.ofChar?_char] at hq'
    cases hq'
    split
    · next h => rw [h]
    · next h => rw [h]

/-- A comment takes what stands before the line break that it ends at. -/
theorem ofText_comment {body : List Char} (h : (comment body).Fits rest.head?) :
    ofText ('#' :: (body ++ rest)) = comment body :: ofText rest := by
  obtain ⟨hb, hn⟩ := h
  have hbody : ∀ c ∈ body, decide (c ≠ '\n') = true := by
    intro c hc
    simp only [decide_eq_true_eq]
    rintro rfl
    exact hb hc
  have htake : (body ++ rest).takeWhile (· ≠ '\n') = body := by
    rw [List.takeWhile_append_of_pos hbody]
    cases rest with
    | nil => simp
    | cons c rest => simp [hn c rfl]
  have hdrop : (body ++ rest).dropWhile (· ≠ '\n') = rest := by
    rw [List.dropWhile_append_of_pos hbody]
    cases rest with
    | nil => simp
    | cons c rest => simp [hn c rfl]
  rw [ofText, if_pos rfl, htake, hdrop]

/-- A literal takes what stands before its closing fence, or all there is. -/
theorem ofText_literal {f : Fence} {body : List Char} {closed : Bool}
    (h : (literal f body closed).Fits rest.head?) :
    ofText ((literal f body closed).text ++ rest) = literal f body closed :: ofText rest := by
  have ho := opening_of_fits h
  have htext : (literal f body closed).text ++ rest = f.quote.char ::
      (List.replicate (f.width - 1) f.quote.char ++ body ++
        (if closed then f.chars else []) ++ rest) := by
    simp [text, Fence.chars_eq_cons f]
  -- the other quotes of the fence are dropped with the first
  have hdrop : (List.replicate (f.width - 1) f.quote.char ++ body ++
      (if closed then f.chars else []) ++ rest).drop (f.width - 1) =
      body ++ (if closed then f.chars else []) ++ rest := by
    simp only [List.append_assoc]
    exact List.drop_left' (by simp)
  rw [htext, ofText_quote, ho, hdrop]
  cases closed with
  | true => rw [if_pos rfl, Fence.close?_append h.1]
  | false =>
    have hr : rest = [] := List.head?_eq_none_iff.1 h.2
    simp [hr, h.1, ofText]

/-- **The first span of a text**, whatever follows. -/
theorem ofText_append (h : s.Fits rest.head?) : ofText (s.text ++ rest) = s :: ofText rest := by
  cases s with
  | code c =>
    obtain ⟨hq, hc⟩ := h
    simp only [text, List.cons_append, List.nil_append]
    rw [ofText, if_neg hc]
    split
    · rfl
    · simp_all
  | comment body => exact ofText_comment h
  | literal f body closed => exact ofText_literal h

theorem fits_takeWhile (tail : List Char) :
    (comment (tail.takeWhile (· ≠ '\n'))).Fits (tail.dropWhile (· ≠ '\n')).head? := by
  constructor
  · intro h
    simpa using List.mem_takeWhile_imp h
  · intro c hc
    have hstop := List.head?_dropWhile_not (fun c => decide (c ≠ '\n')) tail
    rw [Option.mem_def.1 hc] at hstop
    simpa using hstop

/-- A literal that has been split off at its closing fence may stand before what is left. -/
theorem fits_of_close? {q : Quote} {tail body after : List Char}
    (h : (Fence.opening q tail).close? (tail.drop ((Fence.opening q tail).width - 1)) =
      some (body, after)) : (literal (Fence.opening q tail) body true).Fits after.head? := by
  have hdrop := Fence.close?_eq_some h
  have htail := Fence.replicate_append_drop_opening q tail
  refine ⟨by simpa using Fence.close?_append h [], ?_⟩
  -- an empty literal before its own quote would have been read as a triple fence
  rintro hp rfl ha
  obtain ⟨after, rfl⟩ := List.head?_eq_some_iff.1 ha
  have hq : (Fence.opening q tail).quote = q := rfl
  have hpre : [q.char, q.char] <+: tail := by
    refine ⟨after, ?_⟩
    rw [hdrop] at htail
    rw [← htail]
    simp [Fence.chars, Fence.width, hp, hq]
  simp [Fence.opening, hpre] at hp

/-- A text that is not empty begins with a span. -/
theorem exists_text_append (hcs : cs ≠ []) :
    ∃ s rest, cs = text s ++ rest ∧ s.Fits rest.head? ∧ rest.length < cs.length := by
  obtain ⟨c, tail, rfl⟩ := List.exists_cons_of_ne_nil hcs
  by_cases hc : c = '#'
  · subst hc
    refine ⟨comment (tail.takeWhile (· ≠ '\n')), tail.dropWhile (· ≠ '\n'), ?_,
      fits_takeWhile tail, Nat.lt_succ_of_le (List.dropWhile_suffix _).length_le⟩
    simp [text, List.takeWhile_append_dropWhile]
  cases hq : Quote.ofChar? c with
  | none => exact ⟨code c, tail, rfl, ⟨hq, hc⟩, Nat.lt_succ_self _⟩
  | some q =>
    obtain rfl := Quote.ofChar?_eq_some_iff.1 hq
    have htail := Fence.replicate_append_drop_opening q tail
    cases hclose : (Fence.opening q tail).close?
        (tail.drop ((Fence.opening q tail).width - 1)) with
    | none =>
      refine ⟨literal (Fence.opening q tail) _ false, [], ?_, ⟨hclose, rfl⟩, by simp⟩
      rw [text, Fence.chars_eq_cons]
      simpa [Fence.opening] using htail.symm
    | some r =>
      obtain ⟨body, after⟩ := r
      have hdrop := Fence.close?_eq_some hclose
      refine ⟨literal (Fence.opening q tail) body true, after, ?_, fits_of_close? hclose, ?_⟩
      · have hf : (Fence.opening q tail).quote = q := rfl
        rw [hdrop] at htail
        generalize Fence.opening q tail = f at htail hf
        rw [← htail]
        simp [text, Fence.chars_eq_cons f, hf]
      · have hlen := congrArg List.length hdrop
        simp only [List.length_drop, List.length_append, Fence.length_chars] at hlen
        have hw : 0 < (Fence.opening q tail).width := by
          unfold Fence.width
          split <;> decide
        simp only [List.length_cons]
        omega

/-- To prove something of every text, prove it span by span. -/
theorem text_induction {P : List Char → Prop} (nil : P [])
    (span : ∀ s rest, s.Fits rest.head? → P rest → P (text s ++ rest)) (cs : List Char) : P cs := by
  induction h : cs.length using Nat.strong_induction_on generalizing cs with
  | _ n ih =>
    by_cases hcs : cs = []
    · rw [hcs]; exact nil
    · obtain ⟨s, rest, rfl, hs, hlen⟩ := exists_text_append hcs
      exact span s rest hs (ih _ (h ▸ hlen) rest rfl)

@[simp]
theorem ofText_nil : ofText [] = [] := by rw [ofText]

/-- **The spans of a text make it up.** -/
theorem ofText_text (cs : List Char) : (ofText cs).flatMap text = cs := by
  induction cs using text_induction with
  | nil => simp
  | span s rest hs ih => rw [ofText_append hs, List.flatMap_cons, ih]

/-- A span stands in its text as it is. -/
theorem text_infix_of_mem (h : s ∈ ofText cs) : s.text <:+: cs := by
  obtain ⟨before, after, hsplit⟩ := List.append_of_mem h
  refine ⟨before.flatMap text, after.flatMap text, ?_⟩
  rw [← ofText_text cs, hsplit, List.flatMap_append, List.flatMap_cons, List.append_assoc]

/-- Each span of a text ends where it may end. -/
theorem separated_ofText (cs : List Char) : Separated (ofText cs) := by
  induction cs using text_induction with
  | nil => simp [Separated]
  | span s rest hs ih =>
    rw [ofText_append hs]
    exact ⟨by rwa [ofText_text], ih⟩

/-- Spans that end where they may are read back from their text. -/
theorem ofText_flatMap {ss : List Span} (h : Separated ss) : ofText (ss.flatMap text) = ss := by
  induction ss with
  | nil => simp
  | cons s ss ih => rw [List.flatMap_cons, ofText_append h.1, ih h.2]

/-- **A text has one reading.** Spans are those of a text exactly when they make it up and each of
them ends where it may end. -/
theorem ofText_eq_iff {ss : List Span} :
    ofText cs = ss ↔ ss.flatMap text = cs ∧ Separated ss := by
  constructor
  · rintro rfl
    exact ⟨ofText_text cs, separated_ofText cs⟩
  · rintro ⟨rfl, h⟩
    exact ofText_flatMap h

end Span

end Braceline
