import Braceline.Proofs.Sequence
import Braceline.Proofs.StatementText

/-!
# How the lines of a program are indented

The levels of a program's lines can be read without the script. Each header and the head of the loop
open a body; a line stands in the innermost body that is not deeper than the line itself, and closes
the deeper ones. So the level of a line is that of the innermost body left open before it, or zero.

* `bodies`: the levels of the bodies that lines leave open.
* `Laid`: lines that are indented like this, with texts that can be read again.
* `laid_of_expandChars`: the lines of a program are.
-/

namespace Braceline

/-- The level of the body that a line opens, if it opens one. A statement that reads as a header,
with its colon in code, may open one. -/
def Line.body : Line → List Nat
  | .statement l text =>
    if text.toList.getLast? = some ':' ∧ Scan.endState .start 0 text.toList = .start then [l + 1]
    else []
  | .eachLine l => [l + eachLineDepth]

/-- **The levels of the bodies that lines leave open**, innermost first. The lines are given last
first. A line closes the bodies that are deeper than it. -/
def bodies : List Line → List Nat
  | [] => []
  | l :: ls => l.body ++ (bodies ls).filter (· ≤ l.level)

/-- The levels of the open blocks, innermost first. -/
def Nesting.levels (n : Nesting) : List Nat := n.blocks.map Block.level

/-- The level of the innermost body. -/
def innermost (levels : List Nat) : Nat := levels.head?.getD 0

/-- May the line be read again where it stands? -/
def Line.Sound : Line → Prop
  | .statement l text => Clean text.toList ∧ l ≤ maxLevel
  | .eachLine l => l + eachLineDepth ≤ maxLevel

/-- **Lines that are laid out in blocks**, last first. Each stands in the innermost body that it
does not close. -/
def Laid : List Line → Prop
  | [] => True
  | l :: ls => Laid ls ∧ innermost ((bodies ls).filter (· ≤ l.level)) = l.level ∧ l.Sound

/-- The lines made so far are laid out, and the blocks that are open are the bodies that they leave
open at this level. -/
structure Expansion.IsLaid (x : Expansion) : Prop where
  laid : Laid x.lines
  bodies_eq : (bodies x.lines).filter (· ≤ x.nesting.level) = x.nesting.levels
  ordered : x.nesting.Ordered

variable {x : Expansion} {n : Nesting} {l : Line} {ls : List Line} {p q : Pass} {m : Mark}
  {ms ns : List Mark} {text t cs : List Char} {o : Nat}

/-! ### Open blocks and bodies -/

theorem innermost_levels (n : Nesting) : innermost n.levels = n.level := by
  rw [innermost, Nesting.levels, List.head?_map, Nesting.level]

/-- No body that is open is deeper than the level at this point. -/
theorem filter_levels (h : n.Ordered) {k : Nat} (hk : n.level ≤ k) :
    n.levels.filter (· ≤ k) = n.levels := by
  rw [List.filter_eq_self]
  intro b hb
  obtain ⟨block, hblock, rfl⟩ := List.mem_map.1 hb
  have hle := Pass.level_le_of_ordered h block hblock
  exact decide_eq_true (hle.trans hk)

theorem body_statement (l : Nat) (text : String) :
    (Line.statement l text).body = [] ∨ (Line.statement l text).body = [l + 1] := by
  rw [Line.body]
  split
  · exact .inr rfl
  · exact .inl rfl

/-- A header opens a body. -/
theorem body_header (h : CleanHeader t) (l : Nat) :
    (Line.statement l (String.ofList t)).body = [l + 1] := by
  rw [Line.body, String.toList_ofList, if_pos ⟨h.colon, h.code⟩]

/-! ### What each step keeps -/

namespace Expansion.IsLaid

/-- Up to the level of this point, the bodies are the open blocks. -/
theorem filter_bodies (h : x.IsLaid) {k : Nat} (hk : k ≤ x.nesting.level) :
    (bodies x.lines).filter (· ≤ k) = x.nesting.levels.filter (· ≤ k) := by
  rw [← h.bodies_eq, List.filter_filter]
  refine List.filter_congr fun a _ => ?_
  by_cases ha : a ≤ k
  · rw [decide_eq_true ha, decide_eq_true (ha.trans hk), Bool.and_true]
  · rw [decide_eq_false ha, Bool.false_and]

/-- **A line at the level of this point** stands in the innermost open block. -/
theorem cons (h : x.IsLaid) (hl : l.level = x.nesting.level) (hs : l.Sound) :
    Laid (l :: x.lines) ∧ bodies (l :: x.lines) = l.body ++ x.nesting.levels := by
  have hfilter : (bodies x.lines).filter (· ≤ l.level) = x.nesting.levels := by
    rw [hl]
    exact h.bodies_eq
  refine ⟨⟨h.laid, ?_, hs⟩, ?_⟩
  · rw [hfilter, innermost_levels, hl]
  · rw [bodies, hfilter]

theorem emit (h : x.IsLaid) (ht : Text.trim text ≠ [] → Clean (Text.trim text)) :
    (x.emit text).IsLaid := by
  rw [emit_eq, statements]
  split
  · exact h
  · next cs hcs =>
    have hclean := ht fun hnil => hcs (by rw [hnil])
    have hsound : (Line.statement x.nesting.level (String.ofList (Text.trim text))).Sound :=
      ⟨by rwa [String.toList_ofList], Pass.level_le_maxLevel h.ordered⟩
    obtain ⟨hlaid, hbodies⟩ := h.cons rfl hsound
    refine ⟨hlaid, ?_, h.ordered⟩
    -- a body that the statement might open is deeper than it
    have hdeeper : (Line.statement x.nesting.level (String.ofList (Text.trim text))).body.filter
        (· ≤ x.nesting.level) = [] := by
      rcases body_statement x.nesting.level (String.ofList (Text.trim text)) with hb | hb
      · rw [hb]
        rfl
      · rw [hb]
        simp
    change (bodies (_ :: x.lines)).filter _ = _
    rw [hbodies, List.filter_append, hdeeper, List.nil_append]
    exact filter_levels h.ordered (Nat.le_refl _)

/-- A line that opens a body leaves a block open. -/
theorem enter (h : x.IsLaid) (hl : l.level = x.nesting.level) (hs : l.Sound) {step : Nat}
    (hstep : 0 < step) (hbody : l.body = [x.nesting.level + step])
    (hm : x.nesting.level + step ≤ maxLevel) (o : Nat) (b : Bool) :
    IsLaid ⟨⟨⟨x.nesting.level + step, o⟩ :: x.nesting.blocks⟩, b, l :: x.lines⟩ := by
  have hordered := Pass.ordered_cons h.ordered hstep hm o
  obtain ⟨hlaid, hbodies⟩ := h.cons hl hs
  refine ⟨hlaid, ?_, hordered⟩
  have hall : bodies (l :: x.lines) =
      (⟨⟨x.nesting.level + step, o⟩ :: x.nesting.blocks⟩ : Nesting).levels := by
    rw [hbodies, hbody]
    rfl
  change (bodies (l :: x.lines)).filter _ = _
  rw [hall]
  exact filter_levels hordered (Nat.le_refl _)

/-- Closing the innermost block leaves the bodies of the others. -/
theorem leave (h : x.IsLaid) {b : Block} {bs : List Block} (hb : x.nesting.blocks = b :: bs) :
    IsLaid { x with nesting := ⟨bs⟩ } := by
  have hordered := Pass.ordered_of_cons h.ordered hb
  refine ⟨h.laid, ?_, hordered⟩
  have hlevel : x.nesting.level = b.level := by
    rw [Nesting.level, hb]
    rfl
  have hlower := Pass.level_lt_of_cons h.ordered hb
  change (bodies x.lines).filter (· ≤ (⟨bs⟩ : Nesting).level) = _
  rw [h.filter_bodies (by omega), Nesting.levels, hb, List.map_cons,
    List.filter_cons_of_neg (by simpa using hlower)]
  exact filter_levels hordered (Nat.le_refl _)

end Expansion.IsLaid

/-- Spans of a segment, the last of them taken away. -/
theorem Whole.tail {front : List Span} {s : Span} {next : Option Char}
    (h : Whole (s :: front) next) : Whole front s.text.head? where
  apart := h.apart.2
  noStop c hc := h.noStop c (List.mem_cons_of_mem _ hc)
  closed f b hl := h.closed f b (List.mem_cons_of_mem _ hl)

namespace Pass

theorem live_of_read_inr {d : Segment.Draft} {stop : Stop} (h : d.read m = .inr stop) :
    m.live = true := by
  rw [Segment.Draft.read] at h
  split at h
  · next hlive => exact hlive
  · cases h

/-- **A step keeps the lines laid out**, if the draft holds the spans of one segment. -/
theorem isLaid_of_step (h : Step p m q) (hp : p.expansion.IsLaid)
    (hw : m.live = true → ∃ front, Whole front (some m.char) ∧
      p.draft.text = Span.spellBack front) : q.expansion.IsLaid := by
  cases h with
  | draft => exact hp
  | statement hd =>
    obtain ⟨front, hfront, htext⟩ := hw (live_of_read_inr hd)
    refine hp.emit fun hne => ?_
    rw [htext] at hne ⊢
    exact hfront.clean hne
  | @close x d o b bs hb =>
    obtain ⟨front, hfront, htext⟩ := hw rfl
    have hemit : (x.emit d.text.reverse).IsLaid := hp.emit fun hne => by
      rw [htext] at hne ⊢
      exact hfront.clean hne
    exact hemit.leave (by rw [nesting_emit]; exact hb)
  | @block x d o hl hh hm =>
    obtain ⟨front, hfront, htext⟩ := hw rfl
    have hne : Text.trim d.text.reverse ≠ [] := by
      rw [ne_eq, Text.trim_eq_nil_iff, hh]
      simp
    rw [htext] at hne
    have hheader := hfront.cleanHeader hne
    rw [← htext] at hheader
    have hsound : (Line.statement x.nesting.level (String.ofList
        (Segment.withColon (Text.trim d.text.reverse)))).Sound :=
      ⟨by rw [String.toList_ofList]; exact hheader.clean, level_le_maxLevel hp.ordered⟩
    exact hp.enter rfl hsound Nat.one_pos (body_header hheader _) hm o x.looped
  | @loop x d o before hl hn hm =>
    obtain ⟨front, hfront, htext⟩ := hw rfl
    -- what stands before the two letters of the word is one segment, too
    have hword := Segment.eq_cons_of_beforeEachLine? hl
    rw [htext] at hword
    have hbrace : Span.Apart front (some '{') := hfront.apart
    obtain ⟨front', rfl, hword'⟩ :=
      exists_code_of_spellBack hbrace (by decide) (by decide +kernel) hword
    obtain ⟨front, rfl, hrest⟩ :=
      exists_code_of_spellBack hfront.tail.apart (by decide) (by decide +kernel) hword'
    have hemit : (x.emit before).IsLaid := hp.emit fun hne => by
      rw [← List.reverse_reverse before, ← hrest] at hne ⊢
      exact hfront.tail.tail.clean hne
    have hlevel : (x.emit before).nesting.level = x.nesting.level := by rw [nesting_emit]
    have hdeeper : 0 < Line.eachLineDepth := by decide
    have henter := hemit.enter (l := .eachLine x.nesting.level) hlevel.symm hm hdeeper
      (by rw [hlevel]; rfl) (by rw [hlevel]; exact hm) o true
    rw [nesting_emit] at henter
    exact henter

theorem isLaid_start : Pass.start.expansion.IsLaid := ⟨trivial, rfl, ordered_empty⟩

/-- **So do the steps along a script.** -/
theorem isLaid_of_reads (hms : Scan.marks .start 0 cs = ms ++ ns)
    (h : Pass.start.reads ms = .ok p) : p.expansion.IsLaid := by
  induction ms using List.reverseRecOn generalizing ns p with
  | nil =>
    cases h
    exact isLaid_start
  | append_singleton ms m ih =>
    obtain ⟨p', hp', hread⟩ := exists_of_reads_append h
    obtain ⟨q, hread, hq⟩ := exists_of_reads_cons hread
    cases hq
    rw [List.append_assoc, List.singleton_append] at hms
    have hlaid := ih hms hp'
    refine isLaid_of_step (step_of_read hread) hlaid fun hlive => ?_
    obtain ⟨o, c, live⟩ := m
    obtain rfl : live = true := hlive
    obtain ⟨front, hfront, htext⟩ := exists_whole hms
    refine ⟨front, hfront, ?_⟩
    rw [eq_after_of_reads hp']
    exact htext

end Pass

/-- **The lines of a program are laid out**, and no more than one of them is the head of a loop. -/
theorem laid_of_expandChars {p : Program} (h : expandChars cs = .ok p) :
    Laid p.lines.reverse ∧ p.lines.countP Line.isEachLine ≤ 1 := by
  obtain ⟨q, hq, hfinish, -, rfl⟩ := expandChars_eq_ok_iff.1 h
  have hlaid := Pass.isLaid_of_reads (List.append_nil _).symm hq
  obtain ⟨front, hfront, htext⟩ := exists_whole_end hfinish
  have hdraft : q.draft.text = Span.spellBack front := by
    rw [Pass.eq_after_of_reads hq]
    exact htext
  have hended : q.ended.IsLaid := hlaid.emit fun hne => by
    rw [hdraft] at hne ⊢
    exact hfront.clean hne
  refine ⟨by rw [List.reverse_reverse]; exact hended.laid, ?_⟩
  rw [List.countP_reverse]
  exact countP_isEachLine_le hq

end Braceline
