import Braceline.Proofs.Content
import Braceline.Proofs.Statement

/-!
# The texts of statements

What a statement or a header says can be read again as a segment of its own. It holds no live
semicolon, brace or line break, and no literal is open at its end; it is trimmed. A header ends in
code and in a colon, so that a brace after it is live and opens a block.

* `exists_whole`: the draft at any live mark of a script holds the spans of one segment.
* `Whole.clean`: what is left of them is the text of a statement.
* `Whole.cleanHeader`: before an opening brace it is that of a header, with its colon.
-/

namespace Braceline

/-- The text of a statement. It is trimmed, and stands in one segment wherever it is written. -/
structure Clean (t : List Char) : Prop where
  unbroken : Unbroken t
  trim_eq : Text.trim t = t
  ne_nil : t ≠ []

/-- The text of a header, with its colon. -/
structure CleanHeader (t : List Char) : Prop where
  clean : Clean t
  colon : t.getLast? = some ':'
  code : Scan.endState .start 0 t = .start

/-- Spans of one segment, given last first, which may stand before `next`. -/
structure Whole (front : List Span) (next : Option Char) : Prop where
  apart : Span.Apart front next
  noStop : ∀ c, .code c ∈ front → Mark.isStop ⟨0, c, true⟩ = false
  closed : ∀ f b, .literal f b false ∉ front

variable {back front : List Span} {next : Option Char} {d : Segment.Draft} {done ss : List Span}
  {cs t : List Char} {ms ns : List Mark} {m : Mark} {o n : Nat} {c : Char}

/-! ### Trimmed texts -/

/-- A colon at the end of a trimmed text leaves it trimmed. -/
theorem trim_append_colon (h : Text.trim t = t) (hne : t ≠ []) :
    Text.trim (t ++ [':']) = t ++ [':'] := by
  have hfirst := Text.head?_trim_not_blank t
  rw [h] at hfirst
  refine Text.trim_eq_self ?_ ?_
  · rwa [List.head?_append_of_ne_nil _ hne]
  · rw [List.getLast?_concat]
    intro c hc
    obtain rfl := Option.some.inj hc
    decide

/-! ### Marks of spans -/

/-- **A live mark of spans** is that of a character of code. -/
theorem exists_span_cut (h : Span.marks o ss = ms ++ ⟨n, c, true⟩ :: ns) :
    ∃ before after, ss = before ++ .code c :: after ∧ ms = Span.marks o before := by
  induction ss generalizing o ms with
  | nil => simp [Span.marks] at h
  | cons s ss ih =>
    rw [Span.marks] at h
    rcases List.append_eq_append_iff.1 h with ⟨as, rfl, hrest⟩ | ⟨as, hstamp, hrest⟩
    · obtain ⟨before, after, rfl, rfl⟩ := ih hrest
      exact ⟨s :: before, after, rfl, rfl⟩
    · cases as with
      | nil =>
        rw [List.append_nil] at hstamp
        have hstart : Span.marks (o + Text.byteSize s.text) ss = [] ++ ⟨n, c, true⟩ :: ns :=
          hrest.symm
        obtain ⟨before, after, rfl, hnil⟩ := ih hstart
        refine ⟨s :: before, after, rfl, ?_⟩
        rw [Span.marks, ← hnil, hstamp, List.append_nil]
      | cons a as =>
        obtain ⟨rfl, rfl⟩ := List.cons.inj hrest
        -- the mark is one of `s`, which is one character of code
        have hlive : true = s.isCode := live_of_mem_stamp
          (m := ⟨n, c, true⟩) (by rw [hstamp]; simp)
        cases s with
        | comment | literal => cases hlive
        | code a =>
          cases ms with
          | nil =>
            obtain ⟨hmark, -⟩ := List.cons.inj hstamp
            obtain rfl : a = c := (Mark.mk.inj hmark).2.1
            exact ⟨[], ss, rfl, rfl⟩
          | cons b ms =>
            obtain ⟨-, hnil⟩ := List.cons.inj hstamp
            simp [stamp] at hnil

/-- The live marks of spans are those of their code. -/
theorem exists_code_of_mem_marks (hm : m ∈ Span.marks o ss) (hlive : m.live = true) :
    .code m.char ∈ ss := by
  obtain ⟨before, after, hsplit⟩ := List.append_of_mem hm
  obtain ⟨n, c, live⟩ := m
  obtain rfl : live = true := hlive
  obtain ⟨bs, as, rfl, -⟩ := exists_span_cut hsplit
  simp

/-- No literal is open among spans before a character. -/
theorem closed_of_apart (h : Span.Apart back (some c)) (f : Fence) (b : List Char) :
    .literal f b false ∉ back := by
  induction back generalizing c with
  | nil => exact List.not_mem_nil
  | cons s back ih =>
    intro hl
    rcases List.mem_cons.1 hl with rfl | hl
    · cases h.1.2
    · obtain ⟨a, as, ha⟩ := List.exists_cons_of_ne_nil (Span.text_ne_nil s)
      have hback := h.2
      rw [ha] at hback
      exact ih hback hl

/-! ### The spans of a draft -/

/-- Code that is not dropped stops no segment, if it opens no block. -/
theorem isStop_of_not_dropped (hs : (Span.code c).isDropped = false) (hb : c ≠ '{') :
    Mark.isStop ⟨0, c, true⟩ = false := by
  simp only [Span.isDropped, Bool.or_eq_false_iff, beq_eq_false_iff_ne] at hs
  obtain ⟨⟨hblank, hsemicolon⟩, hclose⟩ := hs
  have hbreak : c ≠ '\n' := by
    rintro rfl
    exact absurd hblank (by decide)
  simp [Mark.isStop, Mark.isStructural, hb, hsemicolon, hclose, hbreak]

/-- A blank other than a line break stops no segment. -/
theorem isStop_of_isBlank (h : Text.isBlank c = true) (hn : c ≠ '\n') :
    Mark.isStop ⟨0, c, true⟩ = false := by
  have hne (d : Char) (hd : Text.isBlank d = false) : c ≠ d := by
    rintro rfl
    rw [h] at hd
    cases hd
  have hsemicolon := hne ';' (by decide)
  have hopen := hne '{' (by decide)
  have hclose := hne '}' (by decide)
  simp [Mark.isStop, Mark.isStructural, hsemicolon, hopen, hclose, hn]

/-- What is kept of a script holds no stop. -/
theorem noStop_keptBack (h : .code c ∈ keptBack back) : Mark.isStop ⟨0, c, true⟩ = false := by
  fun_induction keptBack back with
  | case1 back ih => exact ih h
  | case2 back ih => exact ih h
  | case3 back hloop ih => exact ih h
  | case4 back _ _ ih => exact ih h
  | case5 back _ _ ih =>
    rcases List.mem_cons.1 h with h | h
    · obtain rfl := Span.code.inj h
      decide
    · exact ih h
  | case6 s back _ _ _ hs ih => exact ih h
  | case7 s back _ _ ho hs ih =>
    rcases List.mem_cons.1 h with h | h
    · cases s with
      | code a =>
        obtain rfl : c = a := Span.code.inj h
        exact isStop_of_not_dropped (by simpa using hs) fun hb => ho (by rw [hb])
      | comment | literal => cases h
    · exact ih h
  | case8 => exact absurd h List.not_mem_nil

/-- Code of a segment that is not blank is kept. -/
theorem mem_solid_of_code (h : .code c ∈ front) (hb : Text.isBlank c = false) :
    .code c ∈ Span.solid front := by
  have hmem : Span.code c ∈ front.filter fun s => !s.isBlank :=
    List.mem_filter.2 ⟨h, by simp [Span.isBlank, Span.isCodeOf, hb]⟩
  exact List.mem_map.2 ⟨_, hmem, rfl⟩

/-- **The draft holds the spans of one segment.** -/
theorem whole_of_conserved (h : Conserved back front d done) (hback : Span.Apart back next) :
    Whole front next where
  apart := h.drafted.apart _ hback
  noStop c hc := by
    cases hb : Text.isBlank c with
    | true => exact isStop_of_isBlank hb fun hn => h.drafted.noBreak (hn ▸ hc)
    | false =>
      have hsolid := List.mem_append_left done.reverse (mem_solid_of_code hc hb)
      rw [← h.kept] at hsolid
      exact noStop_keptBack hsolid
  closed := h.drafted.closed

/-- So it does at any live mark of a script. -/
theorem exists_whole (h : Scan.marks .start 0 cs = ms ++ ⟨n, c, true⟩ :: ns) :
    ∃ front, Whole front (some c) ∧ (Segment.Draft.after ms).text = Span.spellBack front := by
  rw [(Scan.marks_start 0 cs).1] at h
  obtain ⟨before, after, hss, rfl⟩ := exists_span_cut h
  have hsep := Span.separated_ofText cs
  rw [hss, ← List.reverse_reverse before] at hsep
  have hapart : Span.Apart before.reverse (some c) := (Span.apart_of_separated hsep).1
  obtain ⟨front, hconserved⟩ := conserved hapart (closed_of_apart hapart)
  rw [List.reverse_reverse] at hconserved
  exact ⟨front, whole_of_conserved hconserved hapart, hconserved.drafted.text_eq⟩

/-- And so it does at the end of a script. -/
theorem exists_whole_end (h : (Scan.endState .start 0 cs).finish = .ok ()) :
    ∃ front, Whole front none ∧
      (Segment.Draft.after (Scan.marks .start 0 cs)).text = Span.spellBack front := by
  have hapart := (Span.separated_ofText cs).apart
  obtain ⟨front, hconserved⟩ := conserved hapart fun f b hl =>
    literal_false_not_mem h f b (List.mem_reverse.1 hl)
  rw [List.reverse_reverse, ← (Scan.marks_start 0 cs).1] at hconserved
  exact ⟨front, whole_of_conserved hconserved hapart, hconserved.drafted.text_eq⟩

/-! ### What the spans of a segment spell -/

/-- Spans of one segment stand in one segment as a text. -/
theorem Whole.unbroken (h : Whole front none) : Unbroken (Span.spellBack front).reverse := by
  have hspans := Span.ofText_spellBack h.apart
  refine ⟨fun m hm => ?_, ?_⟩
  · rw [(Scan.marks_start 0 _).1, hspans] at hm
    obtain ⟨n, c, live⟩ := m
    cases live with
    | false => rfl
    | true => exact h.noStop c (List.mem_reverse.1 (exists_code_of_mem_marks hm rfl))
  · cases hfinish : (Scan.endState .start 0 (Span.spellBack front).reverse).finish with
    | ok u => rfl
    | error e =>
      obtain ⟨before, f, body, hss, -⟩ := Scan.finish_start.1 hfinish
      rw [hspans] at hss
      exact absurd (List.mem_reverse.1 (by rw [hss]; simp)) (h.closed f body)

/-- Spans that may stand before code end in code. -/
theorem Whole.endState (h : Whole front (some ' ')) :
    Scan.endState .start 0 (Span.spellBack front).reverse = .start := by
  -- a space after them is live
  have hspace : Span.Apart (.code ' ' :: front) none := ⟨⟨rfl, by decide⟩, h.apart⟩
  have hspell : (Span.spellBack front).reverse ++ [' '] =
      (Span.spellBack (.code ' ' :: front)).reverse := by
    rw [Span.spellBack_cons, List.reverse_append]
    rfl
  have hmarks : Scan.marks .start 0 ((Span.spellBack front).reverse ++ [' ']) =
      Span.marks 0 front.reverse ++
        ⟨0 + Text.byteSize (front.reverse.flatMap Span.text), ' ', true⟩ :: [] := by
    rw [(Scan.marks_start 0 _).1, hspell, Span.ofText_spellBack hspace, List.reverse_cons,
      marks_concat]
    rfl
  obtain ⟨ds, es, hcut, -, hlive, -, hes⟩ := Scan.exists_cut hmarks
  obtain rfl : es = [] := by
    cases es with
    | nil => rfl
    | cons => cases hes
  rw [(List.append_inj' hcut rfl).1]
  exact Scan.eq_start_of_live hlive (by decide)

/-- The spans that are left of a segment when it is trimmed. -/
theorem Whole.exists_trim (h : Whole front next) :
    ∃ front', Text.trim (Span.spellBack front).reverse = (Span.spellBack front').reverse ∧
      Whole front' none ∧ ∀ c ∈ next, c ≠ '\n' → Whole front' (some ' ') := by
  have hbreak : Span.code '\n' ∉ front := fun hn => absurd (h.noStop _ hn) (by decide)
  obtain ⟨front', htrim, hnone, hbreak', hsolid, hspace⟩ :=
    Span.exists_trim h.apart hbreak h.closed
  -- what is left and not blank was there before
  have hleft {s : Span} (hs : s ∈ front') (hb : s.isBlank = false) :
      ∃ s' ∈ front, s'.trimmed = s := by
    have hmem : s ∈ front'.filter fun s => !s.isBlank := List.mem_filter.2 ⟨hs, by simp [hb]⟩
    rw [hsolid] at hmem
    obtain ⟨s', hs', htrimmed⟩ := List.mem_map.1 hmem
    exact ⟨s', (List.mem_filter.1 hs').1, htrimmed⟩
  have hwhole {next' : Option Char} (hapart : Span.Apart front' next') : Whole front' next' := by
    refine ⟨hapart, fun c hc => ?_, fun f b hl => ?_⟩
    · cases hb : Text.isBlank c with
      | true => exact isStop_of_isBlank hb fun hn => hbreak' (hn ▸ hc)
      | false =>
        obtain ⟨s, hs, htrimmed⟩ := hleft hc hb
        cases s with
        | code a => exact h.noStop c (Span.code.inj htrimmed ▸ hs)
        | comment | literal => cases htrimmed
    · obtain ⟨s, hs, htrimmed⟩ := hleft hl rfl
      cases s with
      | literal f' b' closed =>
        obtain ⟨rfl, rfl, rfl⟩ := Span.literal.inj htrimmed
        exact h.closed f' b' hs
      | code | comment => cases htrimmed
  exact ⟨front', htrim, hwhole hnone, fun c hc hn => hwhole (hspace c hc hn)⟩

/-- **What is left of a segment** is the text of a statement. -/
theorem Whole.clean (h : Whole front next) (hne : Text.trim (Span.spellBack front).reverse ≠ []) :
    Clean (Text.trim (Span.spellBack front).reverse) := by
  obtain ⟨front', htrim, hwhole, -⟩ := h.exists_trim
  refine ⟨?_, Text.trim_trim _, hne⟩
  rw [htrim]
  exact hwhole.unbroken

/-- **Before an opening brace** it is that of a header, with its colon. -/
theorem Whole.cleanHeader (h : Whole front (some '{'))
    (hne : Text.trim (Span.spellBack front).reverse ≠ []) :
    CleanHeader (Segment.withColon (Text.trim (Span.spellBack front).reverse)) := by
  have hclean := h.clean hne
  obtain ⟨front', htrim, hwhole, hspace⟩ := h.exists_trim
  have hspace := hspace '{' rfl (by decide)
  rw [Segment.withColon]
  split
  · next hcolon =>
    refine ⟨hclean, hcolon, ?_⟩
    rw [htrim]
    exact hspace.endState
  · -- the colon is one more span of code
    have hcolon {next' : Option Char} : Whole (.code ':' :: front') next' := by
      refine ⟨⟨⟨rfl, by decide⟩, hspace.apart.code (by decide) rfl⟩, fun c hc => ?_,
        fun f b hl => ?_⟩
      · rcases List.mem_cons.1 hc with hc | hc
        · obtain rfl := Span.code.inj hc
          decide
        · exact hwhole.noStop c hc
      · rcases List.mem_cons.1 hl with hl | hl
        · cases hl
        · exact hwhole.closed f b hl
    have hspell : Text.trim (Span.spellBack front).reverse ++ [':'] =
        (Span.spellBack (.code ':' :: front')).reverse := by
      rw [htrim, Span.spellBack_cons, List.reverse_append]
      rfl
    refine ⟨⟨?_, trim_append_colon (Text.trim_trim _) hne, by simp⟩, List.getLast?_concat, ?_⟩
    · rw [hspell]
      exact hcolon.unbroken
    · rw [hspell]
      exact hcolon.endState

end Braceline
