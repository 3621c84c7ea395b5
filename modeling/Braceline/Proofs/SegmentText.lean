import Braceline.Proofs.Blanks
import Braceline.Proofs.Pass
import Mathlib.Data.List.Induction

/-!
# The text of a segment, read backwards

The segment under way at a point of a script can be read off the marks before that point, from the
last one back to the last stop (`textBack`). A draft is made the other way, character by character,
and drops the spaces and tabs around a line continuation as it goes. Up to the length of such gaps
the two are the same text (`squeeze`), and that is enough to tell whether the segment is blank and
whether it ends in the word `EL`.

* `holds_next`, `holds_after`: reading a mark, and any number of them, keeps the two together.
* `all_isBlank_of_squeeze_eq`, `beforeEachLine?_of_squeeze_eq`: what both texts tell alike.
-/

namespace Braceline

namespace Text

/-- The text with each run of spaces and tabs made one space. -/
def squeeze : List Char → List Char
  | [] => []
  | c :: cs =>
    if isSpaceOrTab c then
      match squeeze cs with
      | ' ' :: t => ' ' :: t
      | t => ' ' :: t
    else c :: squeeze cs

variable {c d : Char} {cs ds : List Char}

theorem isSpaceOrTab_iff : isSpaceOrTab c = true ↔ c = ' ' ∨ c = '\t' := by
  simp [isSpaceOrTab]

theorem isBlank_quote (q : Quote) : isBlank q.char = false := by cases q <;> decide

theorem isWordChar_quote (q : Quote) : isWordChar q.char = false := by
  cases q <;> decide +kernel

theorem squeeze_cons_of_not (h : isSpaceOrTab c = false) :
    squeeze (c :: cs) = c :: squeeze cs := by simp [squeeze, h]

theorem squeeze_cons_of_gap (h : isSpaceOrTab c = true) :
    squeeze (c :: cs) = squeeze (' ' :: cs) := by
  have hs : isSpaceOrTab ' ' = true := rfl
  simp only [squeeze, h, hs, if_true]

theorem squeeze_cons_congr (c : Char) (h : squeeze cs = squeeze ds) :
    squeeze (c :: cs) = squeeze (c :: ds) := by
  unfold squeeze; rw [h]

/-- A gap makes one space, together with the gap that the rest begins with. -/
theorem exists_squeeze_gap (h : isSpaceOrTab c = true) (cs : List Char) :
    ∃ t, squeeze (c :: cs) = ' ' :: t ∧ (squeeze cs = ' ' :: t ∨ squeeze cs = t) := by
  rw [squeeze, if_pos h]
  split
  · next t hs => exact ⟨t, rfl, .inl hs⟩
  · exact ⟨_, rfl, .inr rfl⟩

/-- A gap may be made longer. -/
theorem squeeze_space_cons (cs : List Char) : squeeze (' ' :: ' ' :: cs) = squeeze (' ' :: cs) := by
  obtain ⟨t, ht, -⟩ := exists_squeeze_gap (c := ' ') rfl cs
  rw [squeeze, ht]
  rfl

/-- A gap may take all spaces and tabs that follow. -/
theorem squeeze_space_dropWhile (cs : List Char) :
    squeeze (' ' :: cs.dropWhile isSpaceOrTab) = squeeze (' ' :: cs) := by
  induction cs with
  | nil => rfl
  | cons c cs ih =>
    cases h : isSpaceOrTab c with
    | false => simp [h]
    | true =>
      rw [List.dropWhile_cons_of_pos h, ih, squeeze_cons_congr ' ' (squeeze_cons_of_gap h),
        squeeze_space_cons]

/-- What is no gap stands in both texts. -/
theorem of_squeeze_cons (hc : isSpaceOrTab c = false) (h : squeeze (c :: cs) = squeeze ds) :
    ∃ t, ds = c :: t ∧ squeeze cs = squeeze t := by
  rw [squeeze_cons_of_not hc] at h
  cases ds with
  | nil => simp [squeeze] at h
  | cons d t =>
    cases hd : isSpaceOrTab d with
    | false =>
      rw [squeeze_cons_of_not hd] at h
      obtain ⟨rfl, ht⟩ := List.cons.inj h
      exact ⟨t, rfl, ht⟩
    | true =>
      -- a gap would have left a space
      obtain ⟨u, hu, -⟩ := exists_squeeze_gap hd t
      rw [hu] at h
      obtain ⟨rfl, -⟩ := List.cons.inj h
      exact absurd hc (by decide)

theorem all_isBlank_squeeze (cs : List Char) : (squeeze cs).all isBlank = cs.all isBlank := by
  induction cs with
  | nil => rfl
  | cons c cs ih =>
    cases h : isSpaceOrTab c with
    | false => simp [squeeze_cons_of_not h, ih]
    | true =>
      have hb : isBlank ' ' = true := rfl
      obtain ⟨t, ht, hs⟩ := exists_squeeze_gap h cs
      rw [List.all_cons, ← ih, isBlank_of_isSpaceOrTab h, ht]
      rcases hs with hs | hs <;> simp [hs, hb]

/-- **Whether a text is blank** does not depend on the length of its gaps. -/
theorem all_isBlank_of_squeeze_eq (h : squeeze cs = squeeze ds) :
    cs.all isBlank = ds.all isBlank := by
  rw [← all_isBlank_squeeze cs, h, all_isBlank_squeeze]

theorem head?_dropWhile_squeeze (cs : List Char) :
    ((squeeze cs).dropWhile isBlank).head? = (cs.dropWhile isBlank).head? := by
  induction cs with
  | nil => rfl
  | cons c cs ih =>
    cases h : isSpaceOrTab c with
    | false =>
      rw [squeeze_cons_of_not h]
      cases hb : isBlank c with
      | true => rw [List.dropWhile_cons_of_pos hb, List.dropWhile_cons_of_pos hb, ih]
      | false => simp [hb]
    | true =>
      have hb : isBlank ' ' = true := rfl
      obtain ⟨t, ht, hs⟩ := exists_squeeze_gap h cs
      rw [List.dropWhile_cons_of_pos (isBlank_of_isSpaceOrTab h), ← ih, ht]
      rcases hs with hs | hs <;> simp [hs, hb]

theorem getLast?_trim (cs : List Char) :
    (trim cs).getLast? = (cs.reverse.dropWhile isBlank).head? := by
  have hsplit : cs.reverse = (trimStart cs).reverse ++ (cs.takeWhile isBlank).reverse := by
    rw [← List.reverse_append, trimStart, List.takeWhile_append_dropWhile]
  have hfront : (cs.takeWhile isBlank).reverse.dropWhile isBlank = [] := by
    rw [List.dropWhile_eq_nil_iff]
    exact fun c hc => List.mem_takeWhile_imp (List.mem_reverse.1 hc)
  rw [trim, trimEnd, List.getLast?_reverse, hsplit, List.dropWhile_append, hfront]
  cases (trimStart cs).reverse.dropWhile isBlank <;> rfl

/-- **The last character of a trimmed text** does not depend on the length of its gaps. The texts
are given backwards. -/
theorem getLast?_trim_of_squeeze_eq (h : squeeze cs = squeeze ds) :
    (trim cs.reverse).getLast? = (trim ds.reverse).getLast? := by
  rw [getLast?_trim, getLast?_trim, List.reverse_reverse, List.reverse_reverse,
    ← head?_dropWhile_squeeze cs, h, head?_dropWhile_squeeze]

/-- A gap before a word ends the word, whatever its length. -/
theorem head?_isWordChar_of_squeeze_eq (h : squeeze cs = squeeze ds) :
    cs.head?.any isWordChar = ds.head?.any isWordChar := by
  have key : ∀ l : List Char, (squeeze l).head?.any isWordChar = l.head?.any isWordChar := by
    intro l
    cases l with
    | nil => rfl
    | cons c l =>
      cases hc : isSpaceOrTab c with
      | false => simp [squeeze_cons_of_not hc]
      | true =>
        have hsp : isWordChar ' ' = false := by decide +kernel
        have htab : isWordChar '\t' = false := by decide +kernel
        obtain ⟨t, ht, -⟩ := exists_squeeze_gap hc l
        rw [ht]
        rcases isSpaceOrTab_iff.1 hc with rfl | rfl <;> simp [hsp, htab]
  rw [← key cs, h, key]

end Text

namespace Segment

open Text

variable {cs ds : List Char}

theorem beforeEachLine?_reverse (t : List Char) :
    beforeEachLine? ('L' :: 'E' :: t).reverse =
      if t.head?.any isWordChar then none else some t.reverse := by
  unfold beforeEachLine?
  rw [List.reverse_reverse]
  rfl

theorem beforeEachLine?_eq_none (h : ∀ t, cs ≠ 'L' :: 'E' :: t) :
    beforeEachLine? cs.reverse = none := by
  unfold beforeEachLine?
  rw [List.reverse_reverse]
  split
  · next t => exact absurd rfl (h t)
  · rfl

/-- What stands before the word is the text without its two letters. -/
theorem eq_cons_of_beforeEachLine? {before : List Char}
    (h : beforeEachLine? cs.reverse = some before) : cs = 'L' :: 'E' :: before.reverse := by
  by_cases hcs : ∃ t, cs = 'L' :: 'E' :: t
  · obtain ⟨t, rfl⟩ := hcs
    rw [beforeEachLine?_reverse] at h
    split at h
    · cases h
    · obtain rfl := Option.some.inj h
      rw [List.reverse_reverse]
  · rw [beforeEachLine?_eq_none fun t ht => hcs ⟨t, ht⟩] at h
    cases h

/-- **Whether a text ends in the word `EL`**, and what stands before it, does not depend on the
length of its gaps. Both texts are given backwards. -/
theorem beforeEachLine?_of_squeeze_eq (h : squeeze cs = squeeze ds) :
    (beforeEachLine? cs.reverse).map (fun t => squeeze t.reverse) =
      (beforeEachLine? ds.reverse).map fun t => squeeze t.reverse := by
  by_cases hcs : ∃ t, cs = 'L' :: 'E' :: t
  · obtain ⟨t, rfl⟩ := hcs
    obtain ⟨u', rfl, hu'⟩ := of_squeeze_cons rfl h
    obtain ⟨u, rfl, hu⟩ := of_squeeze_cons rfl hu'
    rw [beforeEachLine?_reverse, beforeEachLine?_reverse, head?_isWordChar_of_squeeze_eq hu]
    split <;> simp [hu]
  · have hds : ∀ t, ds ≠ 'L' :: 'E' :: t := by
      rintro t rfl
      obtain ⟨u', rfl, hu'⟩ := of_squeeze_cons rfl h.symm
      obtain ⟨u, rfl, -⟩ := of_squeeze_cons rfl hu'
      exact hcs ⟨u, rfl⟩
    rw [beforeEachLine?_eq_none hds, beforeEachLine?_eq_none fun t ht => hcs ⟨t, ht⟩]

/-- The text since the last stop, read backwards from marks that are given last first. A line
continuation is read as one space. -/
def textBack : List Mark → List Char
  | ⟨_, '\n', true⟩ :: ⟨_, '\\', true⟩ :: ms => ' ' :: textBack ms
  | ⟨_, '\n', true⟩ :: ⟨_, '\r', true⟩ :: ⟨_, '\\', true⟩ :: ms => ' ' :: textBack ms
  | ⟨_, '\n', true⟩ :: _ => []
  | ⟨_, ';', true⟩ :: _ => []
  | ⟨_, '{', true⟩ :: _ => []
  | ⟨_, '}', true⟩ :: _ => []
  | m :: ms => m.char :: textBack ms
  | [] => []

/-- Would a line break after the marks, which are given last first, continue the line? -/
def continues : List Mark → Bool
  | ⟨_, '\\', true⟩ :: _ => true
  | ⟨_, '\r', true⟩ :: ⟨_, '\\', true⟩ :: _ => true
  | _ => false

variable {o : Nat} {c : Char} {ms back : List Mark}

theorem textBack_lineBreak (h : continues back = false) :
    textBack (⟨o, '\n', true⟩ :: back) = [] := by
  unfold textBack
  split <;> grind [continues]

theorem textBack_live (hs : Mark.isStructural ⟨o, c, true⟩ = false) (hn : c ≠ '\n') :
    textBack (⟨o, c, true⟩ :: back) = c :: textBack back := by
  conv => lhs; unfold textBack
  split <;> grind [Mark.isStructural, Mark.is]

/-- A live mark leaves nothing, the space of a continuation, or itself. -/
theorem textBack_live_cases (o : Nat) (c : Char) (back : List Mark) :
    textBack (⟨o, c, true⟩ :: back) = [] ∨ (∃ t, textBack (⟨o, c, true⟩ :: back) = ' ' :: t) ∨
      textBack (⟨o, c, true⟩ :: back) = c :: textBack back := by
  generalize hb : (⟨o, c, true⟩ :: back : List Mark) = b
  fun_cases textBack b <;> grind

theorem textBack_inert : textBack (⟨o, c, false⟩ :: back) = c :: textBack back := by
  conv => lhs; unfold textBack
  split <;> grind

theorem continues_inert : continues (⟨o, c, false⟩ :: back) = false := by
  unfold continues
  split <;> grind

theorem continues_live (hb : c ≠ '\\') (hr : c = '\r' → ∀ o' ms, back ≠ ⟨o', '\\', true⟩ :: ms) :
    continues (⟨o, c, true⟩ :: back) = false := by
  unfold continues
  split <;> grind

namespace Draft

variable {d : Draft} {m : Mark}

/-- The draft after one more mark. A stop leaves an empty one. -/
def next (d : Draft) (m : Mark) : Draft :=
  match d.read m with
  | .inl d' => d'
  | .inr _ => .empty

/-- The draft under way after a stretch of marks. -/
def after (ms : List Mark) : Draft := ms.foldl next .empty

theorem after_concat (ms : List Mark) (m : Mark) : after (ms ++ [m]) = (after ms).next m := by
  simp [after]

/-- The draft goes with the marks before it, which are given last first. -/
structure Holds (d : Draft) (back : List Mark) : Prop where
  text : squeeze d.text = squeeze (textBack back)
  slash : d.tail = .slash → ∃ o ms t, back = ⟨o, '\\', true⟩ :: ms ∧ d.text = '\\' :: t
  slashReturn : d.tail = .slashReturn → ∃ o o' ms t,
    back = ⟨o, '\r', true⟩ :: ⟨o', '\\', true⟩ :: ms ∧ d.text = '\r' :: '\\' :: t
  joined : d.tail = .joined → ∃ t, d.text = ' ' :: t
  continues : continues back = true → d.tail = .slash ∨ d.tail = .slashReturn

theorem holds_empty (h : Segment.continues back = false) (ht : textBack back = []) :
    Holds .empty back where
  text := by rw [ht]; rfl
  slash := Tail.noConfusion
  slashReturn := Tail.noConfusion
  joined := Tail.noConfusion
  continues hc := by simp [h] at hc

/-- A live character that completes no continuation goes into the text. -/
theorem holds_push_plain (hd : d.Holds back)
    (htext : textBack (m :: back) = m.char :: textBack back)
    (hc : Segment.continues (m :: back) = false) : (d.push m.char .plain).Holds (m :: back) where
  text := by rw [htext]; exact squeeze_cons_congr _ hd.text
  slash := Tail.noConfusion
  slashReturn := Tail.noConfusion
  joined := Tail.noConfusion
  continues h := by simp [hc] at h

/-- A character that is no space or tab comes off the draft and off the text of the marks alike. -/
theorem squeeze_eq_of_cons {t : List Char} (hs : Mark.isStructural ⟨o, c, true⟩ = false)
    (hn : c ≠ '\n') (hc : isSpaceOrTab c = false)
    (h : squeeze (c :: t) = squeeze (textBack (⟨o, c, true⟩ :: ms))) :
    squeeze t = squeeze (textBack ms) := by
  rw [textBack_live hs hn] at h
  obtain ⟨u, hu, hsq⟩ := of_squeeze_cons hc h
  obtain ⟨-, rfl⟩ := List.cons.inj hu
  exact hsq

/-- A continuation leaves a space for the characters that it is made of and the blanks before. -/
theorem holds_join (n : Nat) (hsq : squeeze (d.text.drop n) = squeeze (textBack ms))
    (hback : textBack (⟨o, '\n', true⟩ :: back) = ' ' :: textBack ms) :
    (d.join n).Holds (⟨o, '\n', true⟩ :: back) where
  text := by
    rw [hback, join, squeeze_space_dropWhile]
    exact squeeze_cons_congr ' ' hsq
  slash := Tail.noConfusion
  slashReturn := Tail.noConfusion
  joined _ := ⟨_, rfl⟩
  continues := Bool.noConfusion

/-- The space that a continuation left takes in a space or a tab after it. -/
theorem holds_skip (hd : d.Holds back) (hc : isSpaceOrTab c = true) (h : d.tail = .joined) :
    d.Holds (⟨o, c, true⟩ :: back) := by
  obtain ⟨t, ht⟩ := hd.joined h
  have hstop : Mark.isStructural ⟨o, c, true⟩ = false ∧ c ≠ '\n' ∧ c ≠ '\\' ∧ c ≠ '\r' := by
    rcases isSpaceOrTab_iff.1 hc with rfl | rfl <;> simp [Mark.isStructural]
  refine ⟨?_, by simp [h], by simp [h], fun _ => ⟨t, ht⟩, ?_⟩
  · have htext := hd.text
    rw [ht] at htext
    rw [ht, textBack_live hstop.1 hstop.2.1, squeeze_cons_of_gap hc,
      squeeze_cons_congr ' ' htext.symm, squeeze_space_cons]
  · rw [continues_live hstop.2.2.1 fun hc => absurd hc hstop.2.2.2]
    exact Bool.noConfusion

/-- **Reading a mark** keeps a draft with the marks before it. -/
theorem holds_next (hd : d.Holds back) (m : Mark) : (d.next m).Holds (m :: back) := by
  unfold next
  have hstep := d.step_read m
  generalize d.read m = r at hstep
  cases hstep with
  | openBrace o => exact holds_empty rfl (by simp [textBack])
  | closeBrace o => exact holds_empty rfl (by simp [textBack])
  | semicolon o => exact holds_empty rfl (by simp [textBack])
  | lineBreak o h₁ h₂ =>
    have hc : Segment.continues back = false := by
      by_contra h
      rcases hd.continues (by simpa using h) with h | h
      · exact h₁ h
      · exact h₂ h
    exact holds_empty rfl (textBack_lineBreak hc)
  | join o h =>
    obtain ⟨o', ms, t, rfl, ht⟩ := hd.slash h
    have htext := hd.text
    rw [ht] at htext
    have hsq : squeeze (d.text.drop 1) = squeeze (textBack ms) := by
      rw [ht]
      exact squeeze_eq_of_cons rfl (by decide) rfl htext
    exact holds_join 1 hsq (by rw [textBack])
  | joinReturn o h =>
    obtain ⟨o₁, o₂, ms, t, rfl, ht⟩ := hd.slashReturn h
    have htext := hd.text
    rw [ht] at htext
    -- the carriage return comes off first, and the backslash then
    have hsq : squeeze (d.text.drop 2) = squeeze (textBack ms) := by
      rw [ht]
      have hslash := squeeze_eq_of_cons rfl (by decide) rfl htext
      exact squeeze_eq_of_cons rfl (by decide) rfl hslash
    exact holds_join 2 hsq (by rw [textBack])
  | slash o =>
    refine ⟨?_, fun _ => ⟨_, _, _, rfl, rfl⟩, Tail.noConfusion, Tail.noConfusion,
      fun _ => .inl rfl⟩
    rw [textBack_live rfl (by decide)]
    exact squeeze_cons_congr _ hd.text
  | slashReturn o h =>
    obtain ⟨o', ms, t, rfl, ht⟩ := hd.slash h
    refine ⟨?_, Tail.noConfusion, fun _ => ⟨_, _, _, t, rfl, by simp [push, ht]⟩,
      Tail.noConfusion, fun _ => .inr rfl⟩
    rw [textBack_live rfl (by decide)]
    exact squeeze_cons_congr _ hd.text
  | skip o c hc h => exact holds_skip hd hc h
  | live o c hs hn hb hr hj =>
    refine holds_push_plain hd (textBack_live hs hn) (continues_live hb ?_)
    rintro rfl o' ms rfl
    -- a backslash right before would be the tail of the draft
    rcases hd.continues rfl with h | h
    · exact hr rfl h
    · obtain ⟨o₁, o₂, ms', t, hback, -⟩ := hd.slashReturn h
      exact absurd (Mark.mk.inj (List.cons.inj hback).1).2.1 (by decide)
  | inert o c => exact holds_push_plain hd textBack_inert continues_inert

/-- **After any marks**, the draft under way goes with them. -/
theorem holds_after (ms : List Mark) : (after ms).Holds ms.reverse := by
  induction ms using List.reverseRecOn with
  | nil => exact holds_empty rfl rfl
  | append_singleton ms m ih =>
    rw [after_concat, List.reverse_append]
    exact holds_next ih m

/-- A draft takes a line break in exactly where the break continues the line. -/
theorem continues_iff_tail (ms : List Mark) :
    Segment.continues ms.reverse = true ↔
      (after ms).tail = .slash ∨ (after ms).tail = .slashReturn := by
  have hd := holds_after ms
  constructor
  · exact hd.continues
  · rintro (h | h)
    · obtain ⟨o, rest, t, hback, -⟩ := hd.slash h
      rw [hback]; rfl
    · obtain ⟨o, o', rest, t, hback, -⟩ := hd.slashReturn h
      rw [hback]; rfl

end Draft

end Segment

end Braceline
