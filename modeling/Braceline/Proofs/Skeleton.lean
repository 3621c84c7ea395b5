import Braceline.Proofs.Outline
import Braceline.Proofs.Scanning

/-!
# The skeleton of a script

The skeleton keeps the live characters of a script and makes one marker of each run of inert ones.
Marks that a scan makes are more than a skeleton with any inert characters put in: a run begins with
a quote or the sign of a comment, so it is not blank, and it ends with a quote unless a line break
follows, so no word reaches out of it (`Written`). Given that, the structure at a point can be told
from the skeleton before it.

* `written_marks`: the marks of a scan are written like this.
* `isBlank_congr`, `endsInLoop_iff`, `continues_iff`: what the skeleton tells of a segment.
-/

namespace Braceline

/-- Reads one more mark into a skeleton. An inert one goes into the marker there is, if there is
one at the end. -/
def extendSkeleton (sk : List (Option Char)) (m : Mark) : List (Option Char) :=
  if m.live then sk ++ [some m.char]
  else if sk.getLast? = some none then sk
  else sk ++ [none]

/-- **The skeleton of a script**: its live characters, and a marker for each run of inert ones. -/
def skeleton (ms : List Mark) : List (Option Char) := ms.foldl extendSkeleton []

/-- Do the marks, which are given last first, end in code, or in an inert character that is no part
of a word? -/
def Settled (back : List Mark) : Prop :=
  ∀ m ∈ back.head?, m.live = false → Text.isWordChar m.char = false

/-- A run of inert characters, not all of them blank. -/
structure InertRun (run : List Mark) : Prop where
  inert : ∀ m ∈ run, m.live = false
  mark : ∃ m ∈ run, Text.isBlank m.char = false

/-- Marks with their skeleton, both given last first, in which inert characters stand as a scan
makes them. -/
inductive Written : List Mark → List (Option Char) → Prop where
  | nil : Written [] []
  | live {back : List Mark} {sk : List (Option Char)} (o : Nat) (c : Char) (h : Written back sk)
    (hc : c ≠ '\n' → Settled back) : Written (⟨o, c, true⟩ :: back) (some c :: sk)
  | inert {run back : List Mark} {sk : List (Option Char)} (hr : InertRun run) (h : Written back sk)
    (hsk : sk.head? ≠ some none) : Written (run ++ back) (none :: sk)

variable {ms back back' run : List Mark} {sk : List (Option Char)} {m : Mark} {o o' : Nat}
  {c : Char}

theorem settled_nil : Settled [] := by
  intro m hm
  simp at hm

theorem settled_live : Settled (⟨o, c, true⟩ :: back) := by
  intro m hm hlive
  obtain rfl : _ = m := by simpa using hm
  cases hlive

theorem skeleton_concat (ms : List Mark) (m : Mark) :
    skeleton (ms ++ [m]) = extendSkeleton (skeleton ms) m := by
  simp [skeleton]

theorem skeleton_append (ms run : List Mark) :
    skeleton (ms ++ run) = run.foldl extendSkeleton (skeleton ms) := by
  simp [skeleton]

namespace InertRun

theorem exists_cons (h : InertRun run) : ∃ o c run', run = ⟨o, c, false⟩ :: run' := by
  obtain ⟨⟨o, c, live⟩, hm, -⟩ := h.mark
  cases run with
  | nil => simp at hm
  | cons m run =>
    obtain ⟨o, c, live⟩ := m
    obtain rfl : live = false := h.inert _ List.mem_cons_self
    exact ⟨o, c, run, rfl⟩

/-- More inert marks keep a run a run. -/
theorem append {more : List Mark} (hmore : ∀ m ∈ more, m.live = false) (h : InertRun run) :
    InertRun (more ++ run) where
  inert m hm := (List.mem_append.1 hm).elim (hmore m) (h.inert m)
  mark := by
    obtain ⟨m, hm, hb⟩ := h.mark
    exact ⟨m, List.mem_append_right _ hm, hb⟩

end InertRun

/-- Inert marks that follow others make one marker, or go into the one there is. -/
theorem foldl_extendSkeleton (h : ∀ m ∈ run, m.live = false) (hrun : run ≠ []) :
    run.foldl extendSkeleton sk = if sk.getLast? = some none then sk else sk ++ [none] := by
  induction run generalizing sk with
  | nil => exact absurd rfl hrun
  | cons m run ih =>
    have hm : m.live = false := h m List.mem_cons_self
    have hextend : extendSkeleton sk m = if sk.getLast? = some none then sk else sk ++ [none] := by
      simp [extendSkeleton, hm]
    rw [List.foldl_cons, hextend]
    by_cases hr : run = []
    · simp [hr]
    · rw [ih (fun m hm => h m (List.mem_cons_of_mem _ hm)) hr]
      split <;> simp [*]

namespace Written

/-- The skeleton that goes with the marks is theirs. -/
theorem skeleton_eq (h : Written back sk) : skeleton back.reverse = sk.reverse := by
  induction h with
  | nil => rfl
  | live o c h hc ih => rw [List.reverse_cons, List.reverse_cons, skeleton_concat, ih]; rfl
  | @inert run back sk hr h hsk ih =>
    obtain ⟨o, c, run', rfl⟩ := hr.exists_cons
    rw [List.reverse_append, List.reverse_cons, skeleton_append, ih, foldl_extendSkeleton]
    · rw [List.getLast?_reverse, if_neg hsk, List.reverse_cons]
    · exact fun m hm => hr.inert m (by simpa [or_comm] using hm)
    · simp

/-- A live mark stands in the skeleton as itself. -/
theorem of_live (h : Written (⟨o, c, true⟩ :: back) sk) :
    ∃ sk', sk = some c :: sk' ∧ Written back sk' ∧ (c ≠ '\n' → Settled back) := by
  generalize hb : (⟨o, c, true⟩ :: back : List Mark) = b at h
  cases h with
  | nil => cases hb
  | live o' c' h hc =>
    cases hb
    exact ⟨_, rfl, h, hc⟩
  | inert hr h hsk =>
    obtain ⟨o', c', run, rfl⟩ := hr.exists_cons
    cases hb

/-- An inert mark belongs to a run that stands in the skeleton as a marker. -/
theorem of_inert (h : Written (⟨o, c, false⟩ :: back) sk) :
    ∃ run rest sk', ⟨o, c, false⟩ :: back = run ++ rest ∧ InertRun run ∧ sk = none :: sk' := by
  generalize hb : (⟨o, c, false⟩ :: back : List Mark) = b at h
  cases h with
  | nil => cases hb
  | live => cases hb
  | inert hr => exact ⟨_, _, _, rfl, hr, rfl⟩

/-- Inert marks may follow, if the first of them is not blank. -/
theorem append_inert (h : Written back sk) (hr : InertRun run) :
    ∃ sk', Written (run ++ back) sk' := by
  cases h with
  | nil => exact ⟨_, .inert hr .nil (by simp)⟩
  | live o c h hc => exact ⟨_, .inert hr (.live o c h hc) (by simp)⟩
  | @inert run' back sk hr' h hsk =>
    rw [← List.append_assoc]
    exact ⟨_, .inert (hr'.append hr.inert) h hsk⟩

end Written

/-! ### The marks of a scan -/

theorem inertRun_stamp (o : Nat) (cs : List Char) (hc : Text.isBlank c = false) :
    InertRun (stamp false o (c :: cs)).reverse where
  inert m hm := live_of_mem_stamp (List.mem_reverse.1 hm)
  mark := ⟨⟨o, c, false⟩, by simp [stamp], hc⟩

/-- A text that ends in a quote is no part of a word at its end. -/
theorem settled_stamp (o : Nat) (cs : List Char) (q : Quote) (back : List Mark) :
    Settled ((stamp false o (cs ++ [q.char])).reverse ++ back) := by
  intro m hm _
  rw [stamp_append, List.reverse_append] at hm
  obtain rfl : _ = m := by simpa [stamp] using hm
  exact Text.isWordChar_quote q

/-- A comment or a literal keeps the marks written as a scan makes them, and ends settled unless a
line break or the end of the script follows. -/
theorem written_span {s : Span} {next : Option Char} (hs : s.Fits next) (hcode : s.isCode = false)
    (h : Written back sk) :
    (∃ sk', Written ((stamp false o s.text).reverse ++ back) sk') ∧
      ((∀ c ∈ next, c = '\n') ∨ Settled ((stamp false o s.text).reverse ++ back)) := by
  cases s with
  | code c => cases hcode
  | comment body => exact ⟨h.append_inert (inertRun_stamp o body (by decide)), .inl hs.2⟩
  | literal f body closed =>
    have hrun : InertRun (stamp false o (Span.literal f body closed).text).reverse := by
      rw [Span.text, Fence.chars_eq_cons]
      exact inertRun_stamp o _ (Text.isBlank_quote f.quote)
    refine ⟨h.append_inert hrun, ?_⟩
    cases closed with
    | false =>
      obtain rfl : next = none := hs.2
      exact .inl (by simp)
    | true =>
      obtain ⟨t, ht⟩ := Span.exists_text_quote f body
      rw [ht]
      exact .inr (settled_stamp o t f.quote back)

/-- Spans that are told apart keep the marks written as a scan makes them. -/
theorem written_spans {ss : List Span} (hss : Span.Separated ss) (h : Written back sk)
    (hnext : (∀ c ∈ (ss.flatMap Span.text).head?, c = '\n') ∨ Settled back) :
    ∃ sk', Written ((Span.marks o ss).reverse ++ back) sk' := by
  induction ss generalizing o back sk with
  | nil => exact ⟨sk, h⟩
  | cons s ss ih =>
    rw [Span.marks, List.reverse_append, List.append_assoc]
    cases hcode : s.isCode with
    | false =>
      -- a comment is followed by a line break, and all else that is inert ends in a quote
      obtain ⟨⟨sk', h'⟩, hnext'⟩ := written_span (o := o) hss.1 hcode h
      exact ih hss.2 h' hnext'
    | true =>
      cases s with
      | code c =>
        refine ih hss.2 (.live o c h fun hc => ?_) (.inr settled_live)
        exact hnext.resolve_left fun hn => hc (hn c rfl)
      | comment | literal => cases hcode

/-- **The marks of a scan** are written with their skeleton. -/
theorem written_marks (cs : List Char) :
    Written (Scan.marks .start 0 cs).reverse (skeleton (Scan.marks .start 0 cs)).reverse := by
  obtain ⟨sk, h⟩ := written_spans (o := 0) (Span.separated_ofText cs) .nil (.inr settled_nil)
  rw [List.append_nil, ← (Scan.marks_start 0 cs).1] at h
  have hsk := h.skeleton_eq
  rw [List.reverse_reverse] at hsk
  rw [hsk, List.reverse_reverse]
  exact h

/-! ### What the skeleton tells of a segment -/

open Segment (textBack continues)

theorem textBack_append (h : ∀ m ∈ run, m.live = false) :
    textBack (run ++ back) = run.map Mark.char ++ textBack back := by
  induction run with
  | nil => rfl
  | cons m run ih =>
    obtain ⟨o, c, live⟩ := m
    obtain rfl : live = false := h _ List.mem_cons_self
    rw [List.cons_append, Segment.textBack_inert, ih fun m hm => h m (List.mem_cons_of_mem _ hm)]
    rfl

/-- A segment that ends in a run of inert characters is not blank. -/
theorem textBack_run_not_blank (hr : InertRun run) :
    (textBack (run ++ back)).all Text.isBlank = false := by
  obtain ⟨m, hm, hb⟩ := hr.mark
  rw [textBack_append hr.inert, List.all_append]
  have : (run.map Mark.char).all Text.isBlank = false := by
    rw [List.all_eq_false]
    exact ⟨m.char, List.mem_map_of_mem hm, by simp [hb]⟩
  rw [this, Bool.false_and]

theorem continues_run (hr : InertRun run) : continues (run ++ back) = false := by
  obtain ⟨o, c, run', rfl⟩ := hr.exists_cons
  exact Segment.continues_inert

/-- Whether a line break would continue the line is told by the skeleton. -/
theorem continues_iff (h : Written back sk) :
    continues back = true ↔
      (∃ sk', sk = some '\\' :: sk') ∨ ∃ sk', sk = some '\r' :: some '\\' :: sk' := by
  cases h with
  | nil => simp [continues]
  | inert hr h hsk => simp [continues_run hr]
  | @live back sk o c h hc =>
    by_cases hb : c = '\\'
    · subst hb
      simp [continues]
    by_cases hr : c = '\r'
    · subst hr
      cases h with
      | nil => simp [continues]
      | inert hr h hsk =>
        obtain ⟨o', c', run', rfl⟩ := hr.exists_cons
        simp [continues]
      | @live back sk o' c' h hc' =>
        by_cases hb' : c' = '\\'
        · subst hb'
          simp [continues]
        · rw [Segment.continues_live hb (by simp [hb'])]
          simp [hb']
    · rw [Segment.continues_live hb fun h => absurd h hr]
      simp [hb, hr]

/-- **Whether a segment is blank** is told by the skeleton. -/
theorem isBlank_congr (h : Written back sk) (h' : Written back' sk) :
    (textBack back).all Text.isBlank = (textBack back').all Text.isBlank := by
  fun_induction textBack back generalizing back' sk with
  | case1 o o₁ ms ih =>
    obtain ⟨_, rfl, h, -⟩ := h.of_live
    obtain ⟨_, rfl, h, -⟩ := h.of_live
    cases h' with
    | live o' _ h' =>
      cases h' with
      | live o₁' _ h' => rw [textBack, List.all_cons, List.all_cons, ih h h']
  | case2 o o₁ o₂ ms ih =>
    obtain ⟨_, rfl, h, -⟩ := h.of_live
    obtain ⟨_, rfl, h, -⟩ := h.of_live
    obtain ⟨_, rfl, h, -⟩ := h.of_live
    cases h' with
    | live o' _ h' =>
      cases h' with
      | live o₁' _ h' =>
        cases h' with
        | live o₂' _ h' => rw [textBack, List.all_cons, List.all_cons, ih h h']
  | case3 o ms h₁ h₂ =>
    obtain ⟨_, rfl, h, -⟩ := h.of_live
    cases h' with
    | @live b' _ o' _ h' =>
      -- neither break continues its line
      have hc : continues ms = false := by
        unfold continues
        split
        · exact (h₁ _ _ rfl).elim
        · exact (h₂ _ _ _ rfl).elim
        · rfl
      have hc' : ¬ continues b' = true := by
        rw [continues_iff h', ← continues_iff h, hc]
        decide
      rw [Segment.textBack_lineBreak (by simpa using hc')]
  | case4 o ms | case5 o ms | case6 o ms =>
    obtain ⟨_, rfl, h, -⟩ := h.of_live
    cases h' with
    | live o' _ h' => simp [textBack]
  | case7 m ms _ _ hn hs ho hc ih =>
    obtain ⟨o, c, live⟩ := m
    cases live with
    | false =>
      -- a run of inert marks is not blank, whatever stands before it
      obtain ⟨run, rest, sk', hrun, hr, rfl⟩ := h.of_inert
      rw [← Segment.textBack_inert (o := o), hrun, textBack_run_not_blank hr]
      cases h' with
      | inert hr' => rw [textBack_run_not_blank hr']
    | true =>
      obtain ⟨_, rfl, h, -⟩ := h.of_live
      cases h' with
      | live o' _ h' =>
        have hstruct : Mark.isStructural ⟨o', c, true⟩ = false := by
          simp only [Mark.isStructural, Mark.is_live, Bool.or_eq_false_iff, beq_eq_false_iff_ne]
          exact ⟨⟨fun h => hs o (by rw [h]), fun h => ho o (by rw [h])⟩, fun h => hc o (by rw [h])⟩
        rw [Segment.textBack_live hstruct fun h => hn o (by rw [h]), List.all_cons, List.all_cons,
          ih h h']
  | case8 =>
    have hsk := h.skeleton_eq
    obtain rfl : sk = [] := by simpa [skeleton] using hsk.symm
    cases h'
    rfl

/-- A live letter is text. -/
theorem textBack_word (hc : Text.isWordChar c = true) :
    textBack (⟨o, c, true⟩ :: back) = c :: textBack back := by
  have hn (d : Char) (hd : Text.isWordChar d = false) : c ≠ d := by
    rintro rfl
    rw [hc] at hd
    cases hd
  refine Segment.textBack_live ?_ (hn '\n' (by decide +kernel))
  simp only [Mark.isStructural, Mark.is_live, Bool.or_eq_false_iff, beq_eq_false_iff_ne]
  exact ⟨⟨hn ';' (by decide +kernel), hn '{' (by decide +kernel)⟩, hn '}' (by decide +kernel)⟩

/-- A letter at the end of a settled segment is live. -/
theorem live_of_textBack_word {t : List Char} (hs : Settled back) (hc : Text.isWordChar c = true)
    (h : textBack back = c :: t) : ∃ o rest, back = ⟨o, c, true⟩ :: rest ∧ textBack rest = t := by
  cases back with
  | nil => cases h
  | cons m rest =>
    obtain ⟨o, d, live⟩ := m
    cases live with
    | false =>
      -- settled marks end in no letter that is inert
      rw [Segment.textBack_inert] at h
      obtain ⟨rfl, -⟩ := List.cons.inj h
      have := hs _ rfl rfl
      rw [hc] at this
      cases this
    | true =>
      rcases Segment.textBack_live_cases o d rest with h' | ⟨t', h'⟩ | h'
      · rw [h'] at h
        cases h
      · rw [h'] at h
        obtain ⟨rfl, -⟩ := List.cons.inj h
        exact absurd hc (by decide +kernel)
      · rw [h'] at h
        obtain ⟨rfl, ht⟩ := List.cons.inj h
        exact ⟨o, rest, rfl, ht⟩

/-- Before a letter, the marks are settled. -/
theorem Written.settled (h : Written (⟨o, c, true⟩ :: back) sk) (hc : Text.isWordChar c = true) :
    Settled back := by
  obtain ⟨-, -, -, hs⟩ := h.of_live
  refine hs ?_
  rintro rfl
  exact absurd hc (by decide +kernel)

/-- In settled marks, a segment ends in a letter exactly if the skeleton does. -/
theorem any_isWordChar_textBack (h : Written back sk) (hs : Settled back) :
    (textBack back).head?.any Text.isWordChar = true ↔
      ∃ c sk', sk = some c :: sk' ∧ Text.isWordChar c = true := by
  constructor
  · intro hw
    obtain ⟨c, hhead, hc⟩ := (Option.any_eq_true _ _).1 hw
    obtain ⟨t, ht⟩ : ∃ t, textBack back = c :: t := List.head?_eq_some_iff.1 hhead
    obtain ⟨o, rest, rfl, -⟩ := live_of_textBack_word hs hc ht
    obtain ⟨sk', rfl, -⟩ := h.of_live
    exact ⟨c, sk', rfl, hc⟩
  · rintro ⟨c, sk', rfl, hc⟩
    cases h with
    | live o c h => simp [textBack_word hc, hc]

/-- **Whether a segment ends in the word `EL`** is told by the skeleton of settled marks. -/
theorem endsInLoop_iff (h : Written back sk) (hs : Settled back) :
    endsInLoop (textBack back).reverse = true ↔
      ∃ sk', sk = some 'L' :: some 'E' :: sk' ∧
        ¬ ∃ c sk'', sk' = some c :: sk'' ∧ Text.isWordChar c = true := by
  have hL : Text.isWordChar 'L' = true := by decide +kernel
  have hE : Text.isWordChar 'E' = true := by decide +kernel
  -- the word's two letters are live marks
  have hword (t : List Char) (ht : textBack back = 'L' :: 'E' :: t) :
      ∃ o o' rest, back = ⟨o, 'L', true⟩ :: ⟨o', 'E', true⟩ :: rest ∧ textBack rest = t := by
    obtain ⟨o, rest, rfl, hrest⟩ := live_of_textBack_word hs hL ht
    obtain ⟨o', rest', rfl, hrest'⟩ := live_of_textBack_word (h.settled hL) hE hrest
    exact ⟨o, o', rest', rfl, hrest'⟩
  rw [endsInLoop_reverse]
  constructor
  · intro hsome
    obtain ⟨before, hbefore⟩ := Option.isSome_iff_exists.1 hsome
    have ht := Segment.eq_cons_of_beforeEachLine? hbefore
    obtain ⟨o, o', rest, rfl, hrest⟩ := hword _ ht
    rw [ht, Segment.beforeEachLine?_reverse] at hsome
    obtain ⟨_, rfl, h, -⟩ := h.of_live
    have hs' := h.settled hE
    obtain ⟨sk', rfl, h, -⟩ := h.of_live
    refine ⟨sk', rfl, fun hw => ?_⟩
    rw [← any_isWordChar_textBack h hs', hrest] at hw
    rw [if_pos hw] at hsome
    cases hsome
  · rintro ⟨sk', rfl, hw⟩
    cases h with
    | live o _ h =>
      cases h with
      | live o' _ h hs' =>
        rw [← any_isWordChar_textBack h (hs' (by decide))] at hw
        rw [textBack_word hL, textBack_word hE, Segment.beforeEachLine?_reverse, if_neg hw]
        rfl

end Braceline
