import Braceline.Proofs.Scanning
import Braceline.Proofs.SegmentText

/-!
# The spans of a trimmed text

A statement is the trimmed text of a segment. Spans of a script that stand in one segment are still
its spans when blanks are taken away at its two ends: no literal is cut, no two of them run
together, and a comment, which can only be the last span, loses the blanks at its end. Spans are
given last first here, as a draft is.

* `exists_trim`: the spans of a trimmed text.
* `ofText_trim`: all of them but blank code are there, once and in order.
-/

namespace Braceline

namespace Span

/-- Is the span code with this property? -/
def isCodeOf (q : Char → Bool) : Span → Bool
  | code c => q c
  | _ => false

/-- Is the span a blank in code? -/
def isBlank : Span → Bool := isCodeOf Text.isBlank

/-- The span without the blanks at the end of a comment. -/
def trimmed : Span → Span
  | comment body => comment (Text.trimEnd body)
  | s => s

/-- May the spans, which are given last first, stand before `next`? -/
def Apart : List Span → Option Char → Prop
  | [], _ => True
  | s :: back, next => s.Fits next ∧ Apart back s.text.head?

/-- The text of spans that are given last first, read backwards. -/
def spellBack (back : List Span) : List Char := back.flatMap fun s => s.text.reverse

/-- The spans of a text, with blank code left out. -/
def solid (ss : List Span) : List Span := (ss.filter fun s => !s.isBlank).map trimmed

variable {s : Span} {back rest : List Span} {next : Option Char} {c d : Char} {q : Char → Bool}

theorem head?_text_append (s : Span) (cs : List Char) : (s.text ++ cs).head? = s.text.head? := by
  cases h : s.text with
  | nil => exact absurd h (text_ne_nil s)
  | cons c t => rfl

/-- Spans that may stand before others are separated from them. -/
theorem separated_of_apart (h : Apart back (rest.flatMap text).head?) (hr : Separated rest) :
    Separated (back.reverse ++ rest) := by
  induction back generalizing rest with
  | nil => exact hr
  | cons s back ih =>
    rw [List.reverse_cons, List.append_assoc]
    refine ih ?_ ⟨h.1, hr⟩
    rw [List.singleton_append, List.flatMap_cons, head?_text_append]
    exact h.2

theorem apart_of_separated (h : Separated (back.reverse ++ rest)) :
    Apart back (rest.flatMap text).head? ∧ Separated rest := by
  induction back generalizing rest with
  | nil => exact ⟨trivial, h⟩
  | cons s back ih =>
    rw [List.reverse_cons, List.append_assoc] at h
    obtain ⟨hapart, hs, hr⟩ := ih h
    rw [List.singleton_append, List.flatMap_cons, head?_text_append] at hapart
    exact ⟨⟨hs, hapart⟩, hr⟩

theorem Separated.apart {ss : List Span} (h : Separated ss) : Apart ss.reverse none := by
  rw [← List.append_nil ss, ← List.reverse_reverse ss] at h
  exact (apart_of_separated h).1

/-- A span may end the text wherever it may stand. -/
theorem Fits.none (h : s.Fits next) : s.Fits none := by
  cases s with
  | code c => exact h
  | comment body => exact ⟨h.1, by simp⟩
  | literal f body closed =>
    cases closed with
    | true => exact ⟨h.1, fun _ _ hq => by cases hq⟩
    | false => exact ⟨h.1, rfl⟩

/-- What may stand before a character of code other than a line break may stand before any
character of code. -/
theorem Fits.code (h : s.Fits (some c)) (hc : c ≠ '\n') (hd : Quote.ofChar? d = .none) :
    s.Fits (some d) := by
  cases s with
  | code c => exact h
  | comment body => exact absurd (h.2 c rfl) hc
  | literal f body closed =>
    cases closed with
    | true =>
      refine ⟨h.1, fun _ _ hq => ?_⟩
      obtain rfl : d = f.quote.char := Option.some.inj hq
      cases hf : f.quote <;> simp [hf, Quote.ofChar?, Quote.char] at hd
    | false => cases h.2

theorem Apart.none (h : Apart back next) : Apart back none := by
  cases back with
  | nil => trivial
  | cons s back => exact ⟨h.1.none, h.2⟩

theorem Apart.code (h : Apart back (some c)) (hc : c ≠ '\n') (hd : Quote.ofChar? d = .none) :
    Apart back (some d) := by
  cases back with
  | nil => trivial
  | cons s back => exact ⟨h.1.code hc hd, h.2⟩

theorem Apart.of_append {more : List Span} (h : Apart (back ++ more) next) : Apart back next := by
  induction back generalizing next with
  | nil => trivial
  | cons s back ih => exact ⟨h.1, ih h.2⟩

/-! ### Taking blanks away -/

theorem spellBack_cons (s : Span) (back : List Span) :
    spellBack (s :: back) = s.text.reverse ++ spellBack back := List.flatMap_cons

theorem flatMap_text_reverse (back : List Span) :
    back.reverse.flatMap text = (spellBack back).reverse := by
  rw [spellBack, List.reverse_flatMap]
  congr 1
  funext s
  exact (List.reverse_reverse s.text).symm

/-- Code taken away at the end leaves spans that may stand before a space. -/
theorem Apart.dropWhile (h : Apart back (some c)) (hc : c ≠ '\n')
    (hn : Span.code '\n' ∉ back) :
    Apart (back.dropWhile (isCodeOf q)) (some ' ') := by
  induction back generalizing c with
  | nil => trivial
  | cons s back ih =>
    by_cases hs : isCodeOf q s
    · rw [List.dropWhile_cons_of_pos hs]
      cases s with
      | code g =>
        have hg : g ≠ '\n' := fun hg => hn (by simp [hg])
        exact ih h.2 hg fun hn' => hn (List.mem_cons_of_mem _ hn')
      | comment | literal => cases hs
    · rw [List.dropWhile_cons_of_neg hs]
      exact h.code hc rfl

/-- No text but code ends in what `q` takes away. -/
theorem dropWhile_spellBack (hq : ∀ u : Quote, q u.char = false) (h : Apart back (some c))
    (hc : c ≠ '\n') (hn : code '\n' ∉ back) :
    (spellBack back).dropWhile q = spellBack (back.dropWhile (isCodeOf q)) := by
  induction back generalizing c with
  | nil => rfl
  | cons s back ih =>
    cases s with
    | code g =>
      cases hg : q g with
      | true =>
        have hs : isCodeOf q (code g) = true := hg
        rw [List.dropWhile_cons_of_pos hs, spellBack_cons]
        have := ih h.2 (fun hg => hn (by simp [hg])) fun hn' => hn (List.mem_cons_of_mem _ hn')
        simpa [text, hg] using this
      | false =>
        have hs : ¬ isCodeOf q (code g) = true := by simp [isCodeOf, hg]
        rw [List.dropWhile_cons_of_neg hs, spellBack_cons]
        simp [text, hg]
    | comment body => exact absurd (h.1.2 c rfl) hc
    | literal f body closed =>
      cases closed with
      | false => cases h.1.2
      | true =>
        obtain ⟨t, ht⟩ := exists_text_quote f body
        rw [List.dropWhile_cons_of_neg (by simp [isCodeOf]), spellBack_cons, ht]
        simp [hq]

/-- A comment or a literal begins with a character that is not blank. -/
theorem exists_text_cons (h : s.isCode = false) :
    ∃ c t, s.text = c :: t ∧ Text.isBlank c = false := by
  cases s with
  | code c => cases h
  | comment body => exact ⟨'#', body, rfl, by decide⟩
  | literal f body closed =>
    obtain ⟨t, ht⟩ : ∃ t, (literal f body closed).text = f.quote.char :: t := by
      rw [text, Fence.chars_eq_cons]
      exact ⟨_, rfl⟩
    exact ⟨f.quote.char, t, ht, Text.isBlank_quote f.quote⟩

/-- At the front of a text, too, blanks are taken away span by span. -/
theorem trimStart_flatMap_text (ss : List Span) :
    Text.trimStart (ss.flatMap text) = (ss.dropWhile isBlank).flatMap text := by
  unfold Text.trimStart
  induction ss with
  | nil => rfl
  | cons s ss ih =>
    cases hs : s.isCode with
    | false =>
      obtain ⟨c, t, ht, hc⟩ := exists_text_cons hs
      have hblank : ¬ s.isBlank = true := by
        cases s with
        | code c => cases hs
        | comment | literal => simp [isBlank, isCodeOf]
      rw [List.dropWhile_cons_of_neg hblank, List.flatMap_cons, ht, List.cons_append,
        List.dropWhile_cons_of_neg (by simp [hc])]
    | true =>
      cases s with
      | code c =>
        cases hc : Text.isBlank c with
        | true =>
          have hblank : isBlank (code c) = true := hc
          rw [List.dropWhile_cons_of_pos hblank, ← ih]
          simp [text, hc]
        | false =>
          have hblank : ¬ isBlank (code c) = true := by simp [isBlank, isCodeOf, hc]
          rw [List.dropWhile_cons_of_neg hblank]
          simp [text, hc]
      | comment | literal => cases hs

/-- Spans that stand before code other than a line break hold no comment. -/
theorem trimmed_eq_self (h : Apart back (some c)) (hc : c ≠ '\n') (hn : code '\n' ∉ back)
    (hs : s ∈ back) : s.trimmed = s := by
  induction back generalizing c with
  | nil => exact absurd hs List.not_mem_nil
  | cons s' back ih =>
    rcases List.mem_cons.1 hs with rfl | hs
    · cases s with
      | comment body => exact absurd (h.1.2 c rfl) hc
      | code | literal => rfl
    · obtain ⟨d, hd, hdn⟩ : ∃ d, s'.text.head? = some d ∧ d ≠ '\n' := by
        cases s' with
        | comment body => exact absurd (h.1.2 c rfl) hc
        | code g => exact ⟨g, rfl, fun hg => hn (by simp [hg])⟩
        | literal f body closed =>
          obtain ⟨d, t, ht, hd⟩ := exists_text_cons (s := literal f body closed) rfl
          refine ⟨d, by rw [ht]; rfl, ?_⟩
          rintro rfl
          exact absurd hd (by decide)
      -- a span of these is followed by code that is no line break, too
      have hback := h.2
      rw [hd] at hback
      exact ih hback hdn (fun hn' => hn (List.mem_cons_of_mem _ hn')) hs

theorem solid_eq_filter (h : Apart back (some c)) (hc : c ≠ '\n') (hn : code '\n' ∉ back) :
    solid back = back.filter fun s => !s.isBlank := by
  rw [solid, List.map_congr_left (g := id), List.map_id]
  exact fun s hs => trimmed_eq_self h hc hn (List.mem_filter.1 hs).1

theorem filter_dropWhile (p : Span → Bool) (ss : List Span) :
    (ss.dropWhile p).filter (fun s => !p s) = ss.filter fun s => !p s := by
  induction ss with
  | nil => rfl
  | cons s ss ih => by_cases h : p s <;> simp [h, ih]

/-- Blanks are taken away up to a character that is not blank. -/
theorem dropWhile_append_cons (hd : q d = false) (cs ds : List Char) :
    (cs ++ d :: ds).dropWhile q = cs.dropWhile q ++ d :: ds := by
  rw [List.dropWhile_append]
  split
  · next hnil => rw [List.isEmpty_iff.1 hnil, List.dropWhile_cons_of_neg (by simp [hd])]; rfl
  · rfl

/-- What is neither a comment nor an open literal may stand before a space. -/
theorem Apart.space (h : Apart back next) (hcomment : ∀ body rest, back ≠ comment body :: rest)
    (hclosed : ∀ f b, literal f b false ∉ back) : Apart back (some ' ') := by
  cases back with
  | nil => trivial
  | cons s back =>
    refine ⟨?_, h.2⟩
    cases s with
    | code c => exact h.1
    | comment body => exact absurd rfl (hcomment body back)
    | literal f body closed =>
      cases closed with
      | false => exact absurd List.mem_cons_self (hclosed f body)
      | true =>
        refine ⟨h.1.1, fun _ _ hq => ?_⟩
        cases hf : f.quote <;> simp [hf, Quote.char] at hq

/-- **The blanks at the end of a text** are blank code, or the blanks at the end of a comment. -/
theorem exists_trimEnd (h : Apart back next) (hn : code '\n' ∉ back)
    (hclosed : ∀ f b, literal f b false ∉ back) :
    ∃ back', (spellBack back).dropWhile Text.isBlank = spellBack back' ∧ Apart back' none ∧
      code '\n' ∉ back' ∧ back'.filter (fun s => !s.isBlank) = solid back ∧
      ∀ c ∈ next, c ≠ '\n' → Apart back' (some ' ') := by
  by_cases hcomment : ∃ body rest, back = comment body :: rest
  · obtain ⟨body, rest, rfl⟩ := hcomment
    have hrest : Apart rest (some '#') := h.2
    have hnrest : code '\n' ∉ rest := fun hn' => hn (List.mem_cons_of_mem _ hn')
    refine ⟨comment (Text.trimEnd body) :: rest, ?_, ⟨⟨?_, by simp⟩, hrest⟩, ?_, ?_, ?_⟩
    · rw [spellBack_cons, spellBack_cons, text, text, List.reverse_cons, List.reverse_cons,
        List.append_assoc, List.append_assoc, Text.trimEnd, List.reverse_reverse]
      exact dropWhile_append_cons (by decide) _ _
    · intro hbreak
      rw [Text.trimEnd, List.mem_reverse] at hbreak
      exact h.1.1 (List.mem_reverse.1 ((List.dropWhile_sublist _).subset hbreak))
    · exact fun hn' => (List.mem_cons.1 hn').elim (by simp) hnrest
    · have hsolid := solid_eq_filter hrest (by decide) hnrest
      rw [List.filter_cons_of_pos (by rfl), ← hsolid]
      rfl
    · exact fun c hc hcn => absurd (h.1.2 c hc) hcn
  · have hspace := h.space (fun body rest hb => hcomment ⟨body, rest, hb⟩) hclosed
    have hdrop := hspace.dropWhile (q := Text.isBlank) (by decide) hn
    refine ⟨back.dropWhile isBlank, ?_, hdrop.none, ?_, ?_, fun _ _ _ => hdrop⟩
    · exact dropWhile_spellBack Text.isBlank_quote hspace (by decide) hn
    · exact fun hn' => hn ((List.dropWhile_sublist _).subset hn')
    · rw [filter_dropWhile, solid_eq_filter hspace (by decide) hn]

/-- **The spans of a trimmed text.** -/
theorem exists_trim (h : Apart back next) (hn : code '\n' ∉ back)
    (hclosed : ∀ f b, literal f b false ∉ back) :
    ∃ back', Text.trim (spellBack back).reverse = (spellBack back').reverse ∧ Apart back' none ∧
      code '\n' ∉ back' ∧ back'.filter (fun s => !s.isBlank) = solid back ∧
      ∀ c ∈ next, c ≠ '\n' → Apart back' (some ' ') := by
  -- first the blanks in front, which are the last ones here
  have hsplit : back = (back.reverse.dropWhile isBlank).reverse ++
      (back.reverse.takeWhile isBlank).reverse := by
    rw [← List.reverse_append, List.takeWhile_append_dropWhile, List.reverse_reverse]
  generalize hfront : (back.reverse.dropWhile isBlank).reverse = front at hsplit
  have hsub : ∀ s ∈ front, s ∈ back := fun s hs => hsplit ▸ List.mem_append_left _ hs
  have hapart : Apart front next := by
    rw [hsplit] at h
    exact h.of_append
  obtain ⟨back', hdrop, hnone, hbreak, hsolid, hspace⟩ := exists_trimEnd hapart
    (fun hn' => hn (hsub _ hn')) fun f b hl => hclosed f b (hsub _ hl)
  refine ⟨back', ?_, hnone, hbreak, ?_, hspace⟩
  · rw [Text.trim, ← flatMap_text_reverse, trimStart_flatMap_text, Text.trimEnd, ← hdrop, ← hfront,
      ← List.reverse_reverse (back.reverse.dropWhile isBlank), flatMap_text_reverse,
      List.reverse_reverse, List.reverse_reverse]
  · rw [hsolid, solid, solid, ← hfront, List.filter_reverse, filter_dropWhile, List.filter_reverse,
      List.reverse_reverse]

theorem ofText_spellBack (h : Apart back none) :
    ofText (spellBack back).reverse = back.reverse := by
  have hsep : Separated (back.reverse ++ []) := separated_of_apart h trivial
  rw [← flatMap_text_reverse]
  rw [List.append_nil] at hsep
  exact ofText_flatMap hsep

/-- **All spans but blank code stand in the trimmed text**, once and in order. -/
theorem ofText_trim (h : Apart back next) (hn : code '\n' ∉ back)
    (hclosed : ∀ f b, literal f b false ∉ back) :
    (ofText (Text.trim (spellBack back).reverse)).filter (fun s => !s.isBlank) =
      (solid back).reverse := by
  obtain ⟨back', htrim, hnone, -, hsolid, -⟩ := exists_trim h hn hclosed
  rw [htrim, ofText_spellBack hnone, List.filter_reverse, hsolid]

/-- A colon after them is one more. -/
theorem ofText_trim_colon (h : Apart back (some c)) (hc : c ≠ '\n') (hn : code '\n' ∉ back)
    (hclosed : ∀ f b, literal f b false ∉ back) :
    (ofText (Text.trim (spellBack back).reverse ++ [':'])).filter (fun s => !s.isBlank) =
      (solid back).reverse ++ [code ':'] := by
  obtain ⟨back', htrim, -, -, hsolid, hspace⟩ := exists_trim h hn hclosed
  have hcolon : Apart (code ':' :: back') none :=
    ⟨⟨rfl, by decide⟩, (hspace c rfl hc).code (by decide) rfl⟩
  have hspell : Text.trim (spellBack back).reverse ++ [':'] =
      (spellBack (code ':' :: back')).reverse := by
    rw [htrim, spellBack_cons, List.reverse_append]
    rfl
  rw [hspell, ofText_spellBack hcolon, List.filter_reverse, List.filter_cons_of_pos (by rfl),
    hsolid, List.reverse_cons]

end Span

end Braceline
