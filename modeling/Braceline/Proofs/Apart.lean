import Braceline.Proofs.Rendered
import Braceline.Proofs.Unparse

/-!
# Rendered lines are read apart

A rendered program is read again line by line: the scan of each line ends outside a literal, so each
line break between two lines is live. A backslash that is kept at the end of a statement is the one
thing that joins a line to the next. Where there is none, a script without braces renders to a text
that expands to the same lines.

* `finish_joined`, `marks_joined`: lines are scanned one after the other.
* `before_break`: a line break continues the line before it exactly if that ends in a live
  backslash.
* `reads_joined`: the pass over statements, by induction on them.
* `rendered_lines_apart`: both for rendered programs.
-/

namespace Braceline

/-- Does the text end in a live backslash? -/
def dangles (text : String) : Bool :=
  (Scan.marks .start 0 text.toList).getLast?.any fun m => m.is '\\'

/-- Does the text of the line end in a live backslash? -/
def Line.dangles : Line → Bool
  | .statement _ text => Braceline.dangles text
  | .eachLine _ => false

/-- Lines as one text. -/
def joined (lines : List String) : List Char := ("\n".intercalate lines).toList

variable {t : List Char} {a b text : String} {lines texts before after : List String}
  {o k width : Nat} {ms ns : List Mark} {m : Mark} {l : Line} {p : Program} {x : Expansion}

/-! ### Lines as one text -/

theorem joined_singleton (a : String) : joined [a] = a.toList := by
  rw [joined, String.intercalate_singleton]

theorem joined_append (hbefore : before ≠ []) (hafter : after ≠ []) :
    joined (before ++ after) = joined before ++ '\n' :: joined after := by
  simp [joined, String.intercalate_append_of_ne_nil hbefore hafter]

theorem joined_cons (a : String) (h : lines ≠ []) :
    joined (a :: lines) = a.toList ++ '\n' :: joined lines := by
  rw [← joined_singleton, ← joined_append (List.cons_ne_nil a []) h]
  rfl

/-! ### The scan of lines -/

/-- Spaces in front leave the scan as it starts. -/
theorem passes_spaces (n o : Nat) (t : List Char) :
    Scan.Passes .start o (List.replicate n ' ') t true .start :=
  Scan.passes_code fun c hc => by
    rw [List.eq_of_mem_replicate hc]
    exact ⟨rfl, by decide⟩

/-- A line break after what leaves no literal open is live. -/
theorem live_newline (h : (Scan.endState .start o t).finish = .ok ()) (n : Nat)
    (rest : List Char) : ((Scan.endState .start o t).step n '\n' rest).2 = true := by
  rw [Scan.step_newline h]

/-- **Lines are scanned one after the other**: if no line ends in a literal, the whole does not. -/
theorem finish_joined (h : ∀ a ∈ lines, (Scan.endState .start 0 a.toList).finish = .ok ())
    (o : Nat) : (Scan.endState .start o (joined lines)).finish = .ok () := by
  induction lines generalizing o with
  | nil => rfl
  | cons a lines ih =>
    have ha : (Scan.endState .start o a.toList).finish = .ok () := by
      rw [Scan.endState_start_at]
      exact finish_moved o _ (h a List.mem_cons_self)
    by_cases hlines : lines = []
    · rw [hlines, joined_singleton]
      exact ha
    · rw [joined_cons a hlines, Scan.endState_cut (live_newline ha _ _)]
      exact ih (fun b hb => h b (List.mem_cons_of_mem _ hb)) _

/-- **The line break between lines** is live, and the lines after it are scanned anew. -/
theorem marks_joined (h : ∀ a ∈ before, (Scan.endState .start 0 a.toList).finish = .ok ())
    (hbefore : before ≠ []) (hafter : after ≠ []) :
    Scan.marks .start 0 (joined (before ++ after)) =
      Scan.marks .start 0 (joined before) ++ ⟨Text.byteSize (joined before), '\n', true⟩ ::
        Scan.marks .start (Text.byteSize (joined before) + 1) (joined after) := by
  have hlive := live_newline (finish_joined h 0) (0 + Text.byteSize (joined before)) (joined after)
  rw [joined_append hbefore hafter, Scan.marks_cut hlive, Nat.zero_add]
  rfl

/-! ### Backslashes at the end of a line -/

/-- Where the last character is no carriage return, a line break continues the line exactly if that
character is a live backslash. -/
theorem continues_append (hne : ns ≠ []) (hlast : ∀ m ∈ ns.getLast?, m.char ≠ '\r') :
    Segment.continues (ms ++ ns).reverse = ns.getLast?.any fun m => m.is '\\' := by
  obtain ⟨ns, m, rfl⟩ := (List.eq_nil_or_concat ns).resolve_left hne
  rw [List.concat_eq_append, List.getLast?_concat] at hlast ⊢
  rw [List.reverse_append, List.reverse_append, List.reverse_singleton]
  obtain ⟨o, c, live⟩ := m
  have hc : c ≠ '\r' := hlast _ rfl
  cases live with
  | false => exact Segment.continues_inert
  | true =>
    by_cases hb : c = '\\'
    · subst hb
      rfl
    · refine (Segment.continues_live hb fun h => absurd h hc).trans ?_
      simpa using hb

theorem any_getLast?_moved (k : Nat) (ms : List Mark) :
    ((ms.map (Mark.moved k)).getLast?.any fun m => m.is '\\') =
      ms.getLast?.any fun m => m.is '\\' := by
  rw [List.getLast?_map]
  cases ms.getLast? <;> rfl

/-- The text of a statement ends in no carriage return. -/
theorem char_getLast?_marks (h : Clean t) (o : Nat) :
    ∀ m ∈ (Scan.marks .start o t).getLast?, m.char ≠ '\r' := by
  intro m hm
  have hchar : m.char ∈ t.getLast? := by
    rw [← Scan.marks_char .start o t, List.getLast?_map]
    exact Option.mem_map_of_mem _ hm
  rw [← h.trim_eq] at hchar
  have hblank := Text.getLast?_trim_not_blank _ _ hchar
  intro hr
  rw [hr] at hblank
  cases hblank

theorem marks_ne_nil (h : Clean t) (o : Nat) : Scan.marks .start o t ≠ [] := by
  intro hnil
  have hchars := Scan.marks_char .start o t
  rw [hnil] at hchars
  exact h.ne_nil hchars.symm

/-- **After a line with the text of a statement**, a line break continues it exactly if the text
ends in a live backslash. -/
theorem continues_clean (h : Clean text.toList) (ms : List Mark) (o : Nat) :
    Segment.continues (ms ++ Scan.marks .start o text.toList).reverse = dangles text := by
  rw [continues_append (marks_ne_nil h o) (char_getLast?_marks h o), Scan.marks_start_at,
    any_getLast?_moved, dangles]

/-- A line of the program, rendered: the text of a statement after spaces. -/
theorem exists_of_mem_render (hs : l.Sound) (ha : a ∈ l.render width) :
    ∃ k text, a = Line.indented width k text ∧ Clean text.toList ∧
      (dangles text = true → l = .statement k text) := by
  have htexts : ∀ t ∈ l.texts, Clean t.toList := fun t ht => clean_of_mem_texts hs ht
  cases l with
  | statement k text =>
    obtain rfl := List.mem_singleton.1 ha
    exact ⟨k, text, rfl, hs.1, fun _ => rfl⟩
  | eachLine k =>
    have hnone : ∀ t ∈ loopTexts, dangles t = false := by decide +kernel
    have hrow : ∃ j, ∃ t ∈ loopTexts, a = Line.indented width j t := by
      simp only [Line.render, List.mem_cons, List.not_mem_nil, or_false] at ha
      rcases ha with rfl | rfl | rfl | rfl | rfl
      all_goals exact ⟨_, _, by simp [loopTexts], rfl⟩
    obtain ⟨j, t, ht, rfl⟩ := hrow
    exact ⟨j, t, rfl, htexts t ht, fun hd => absurd hd (by rw [hnone t ht]; exact Bool.noConfusion)⟩

/-- The scan of a rendered line ends outside a literal. -/
theorem finish_indented (h : Clean text.toList) (width k o : Nat) :
    (Scan.endState .start o (Line.indented width k text).toList).finish = .ok () := by
  rw [toList_indented, (passes_spaces _ _ _).finish]
  exact h.unbroken.closed_at _

/-- The marks of rendered lines end in those of the last text. -/
theorem exists_marks_joined (h : ∀ a ∈ before, (Scan.endState .start 0 a.toList).finish = .ok ())
    (width k : Nat) (text : String) :
    ∃ ms o, Scan.marks .start 0 (joined (before ++ [Line.indented width k text])) =
      ms ++ Scan.marks .start o text.toList := by
  by_cases hbefore : before = []
  · -- the first line is scanned from the start, any other after a line break
    subst hbefore
    rw [List.nil_append, joined_singleton, toList_indented]
    exact ⟨_, _, (passes_spaces (k * width) 0 text.toList).marks⟩
  · have hspaces := passes_spaces (k * width) (Text.byteSize (joined before) + 1) text.toList
    rw [marks_joined h hbefore (List.cons_ne_nil _ _), joined_singleton, toList_indented,
      hspaces.marks, ← List.cons_append, ← List.append_assoc]
    exact ⟨_, _, rfl⟩

/-- **Before a line break after rendered lines** there is no carriage return, and a live backslash
exactly if the last text ends in one. -/
theorem before_break (h : ∀ a ∈ before, (Scan.endState .start 0 a.toList).finish = .ok ())
    (hclean : Clean text.toList) (width k : Nat) :
    (∀ m ∈ (Scan.marks .start 0 (joined (before ++ [Line.indented width k text]))).getLast?,
        m.char ≠ '\r') ∧
      Segment.continues
        (Scan.marks .start 0 (joined (before ++ [Line.indented width k text]))).reverse =
          dangles text := by
  obtain ⟨ms, o, hms⟩ := exists_marks_joined h width k text
  have hne := marks_ne_nil hclean o
  rw [hms]
  refine ⟨?_, continues_clean hclean ms o⟩
  rw [List.getLast?_append_of_ne_nil _ hne]
  exact char_getLast?_marks hclean o

/-! ### Reading lines again -/

/-- **The pass over statements**, one in each line, none but the last ending in a live backslash. -/
theorem reads_joined (hx : x.nesting.level = 0) (htexts : ∀ t ∈ texts, Clean t.toList)
    (hnone : ∀ t ∈ texts.dropLast, dangles t = false) (o : Nat) :
    ∃ q, Pass.reads ⟨x, .empty⟩ (Scan.marks .start o (joined texts)) = .ok q ∧
      q.expansion.nesting = x.nesting ∧
        q.ended.lines = (texts.map (Line.statement 0)).reverse ++ x.lines := by
  induction texts generalizing x o with
  | nil => exact ⟨⟨x, .empty⟩, rfl, rfl, rfl⟩
  | cons text texts ih =>
    have hclean := htexts text List.mem_cons_self
    have hemit := emit_clean hclean x
    rw [hx] at hemit
    by_cases hlast : texts = []
    · -- the last statement is still in the draft when the script ends
      subst hlast
      have hreads := (Pass.reads_text x (hclean.unbroken.noStop_at o)).1
      refine ⟨_, by rw [joined_singleton]; exact hreads, rfl, ?_⟩
      rw [Pass.ended, Pass.text_after_unbroken hclean.unbroken, hemit]
      rfl
    · rw [List.dropLast_cons_of_ne_nil hlast] at hnone
      have hdangles := hnone text List.mem_cons_self
      have hcont : Segment.continues (Scan.marks .start 0 text.toList).reverse = false := by
        have h := continues_clean hclean [] 0
        rwa [List.nil_append, hdangles] at h
      have hlevel : (x.emit text.toList).nesting.level = 0 := by rw [nesting_emit, hx]
      obtain ⟨q, hq, hnesting, hlines⟩ := ih hlevel
        (fun t ht => htexts t (List.mem_cons_of_mem _ ht))
        (fun t ht => hnone t (List.mem_cons_of_mem _ ht))
        (o + Text.byteSize text.toList + 1)
      refine ⟨q, ?_, hnesting.trans (nesting_emit _ _), ?_⟩
      · rw [joined_cons text hlast, Pass.reads_newline hclean.unbroken hcont]
        exact hq
      · rw [hlines, hemit]
        simp

/-- Where no brace opens a block, none is open. -/
theorem openBlocks_eq_nil (h : ∀ m ∈ ms, m.is '{' = false) : openBlocks ms = [] := by
  rw [List.eq_nil_iff_forall_not_mem]
  intro r hr
  obtain ⟨hplace, hbrace⟩ := mem_places_of_mem_openBlocksFrom hr
  obtain ⟨after, hms⟩ := mem_places.1 hplace
  have hnot := h r.mark (by rw [hms]; simp)
  rw [hbrace] at hnot
  cases hnot

/-- **Without braces there are only statements**, all of them outside of blocks. -/
theorem exists_eq_statements {script : String} (h : expand script = .ok p)
    (hbrace : ∀ m ∈ Scan.marks .start 0 script.toList, m.is '{' = false) :
    ∃ texts : List String, p.lines = texts.map (Line.statement 0) := by
  have hall : ∀ l ∈ p.lines, l ∈ Set.range (Line.statement 0) := by
    obtain ⟨rfl, -⟩ := eq_programOf_of_expand h
    intro l hl
    rcases List.mem_append.1 hl with hl | hl
    · -- a line made at a place of the script, or else by what is left at its end
      obtain ⟨r, hr, hl⟩ := List.mem_flatMap.1 hl
      obtain ⟨-, hlevel, hloop⟩ := of_mem_lines hl
      obtain ⟨after, hms⟩ := mem_places.1 hr
      have hbefore : ∀ m ∈ r.before, m.is '{' = false := fun m hm =>
        hbrace m (by rw [hms]; exact List.mem_append_left _ hm)
      have hmark := hbrace r.mark (by rw [hms]; simp)
      rw [levelAfter, openBlocks_eq_nil hbefore] at hlevel
      cases l with
      | statement k text =>
        obtain rfl : k = 0 := hlevel
        exact ⟨text, rfl⟩
      | eachLine k => exact absurd (hloop rfl) (by rw [hmark]; exact Bool.noConfusion)
    · rw [levelAfter, openBlocks_eq_nil hbrace] at hl
      obtain ⟨text, rfl⟩ := exists_of_mem_statements hl
      exact ⟨text, rfl⟩
  obtain ⟨texts, htexts⟩ :=
    (Set.ext_iff.1 (Set.range_list_map (Line.statement 0)) p.lines).2 hall
  exact ⟨texts, htexts.symm⟩

/-- Lines outside of blocks render to their texts. -/
theorem renderLines_statements (h : p.lines = texts.map (Line.statement 0)) (width : Nat) :
    p.renderLines width = texts := by
  rw [Program.renderLines, h, List.flatMap_map]
  simp [Line.render, Line.indented]

/-! ### Statements that are joined -/

/-- Between the lines, and nowhere else, a segment may stop. -/
theorem stops_joined (hne : lines ≠ []) (h : ∀ a ∈ lines, Clean a.toList) (o : Nat) :
    (∀ m ∈ Scan.marks .start o (joined lines), m.isStructural = false) ∧
      (Scan.marks .start o (joined lines)).countP Mark.isStop + 1 = lines.length := by
  induction lines generalizing o with
  | nil => exact absurd rfl hne
  | cons a lines ih =>
    have ha := h a List.mem_cons_self
    have hstops := ha.unbroken.noStop_at o
    have hnone : (Scan.marks .start o a.toList).countP Mark.isStop = 0 :=
      List.countP_eq_zero.2 fun m hm => by simp [hstops m hm]
    have hstructure (m : Mark) (hm : m ∈ Scan.marks .start o a.toList) : m.isStructural = false :=
      (Bool.or_eq_false_iff.1 (hstops m hm)).1
    by_cases hlines : lines = []
    · subst hlines
      rw [joined_singleton, hnone]
      exact ⟨hstructure, rfl⟩
    · obtain ⟨hrest, hcount⟩ := ih hlines (fun b hb => h b (List.mem_cons_of_mem _ hb))
        (o + Text.byteSize a.toList + '\n'.utf8Size)
      rw [joined_cons a hlines, Scan.marks_cut (live_newline (ha.unbroken.closed_at o) _ _)]
      refine ⟨fun m hm => ?_, ?_⟩
      · rcases List.mem_append.1 hm with hm | hm
        · exact hstructure m hm
        rcases List.mem_cons.1 hm with rfl | hm
        · rfl
        · exact hrest m hm
      · rw [List.countP_append, hnone, List.countP_cons_of_pos rfl, List.length_cons, ← hcount]
        omega

/-- Where a statement ends, a segment stops. -/
theorem isStop_of_endsStatement {r : Place} (h : r.endsStatement = true) :
    r.mark.isStop = true := by
  simp only [Place.endsStatement, Mark.isStop, Mark.isStructural, Bool.or_eq_true,
    Bool.and_eq_true] at h ⊢
  tauto

theorem length_outlineOf_le (k : Nat) (t : List Char) : (outlineOf k t).length ≤ 1 := by
  unfold outlineOf
  split <;> simp

/-- Without braces, each line of a program but the last has a place where a statement ends. -/
theorem length_outline_le {ps : List Place} (h : ∀ r ∈ ps, r.mark.is '{' = false) :
    (ps.flatMap Place.outline).length ≤ ps.countP Place.endsStatement := by
  induction ps with
  | nil => exact Nat.le_refl _
  | cons r ps ih =>
    have hrest := ih fun r hr => h r (List.mem_cons_of_mem _ hr)
    have hbrace := h r List.mem_cons_self
    rw [List.flatMap_cons, List.length_append, List.countP_cons]
    cases hend : r.endsStatement with
    | false =>
      rw [Place.outline_of_draft hbrace hend]
      simpa using hrest
    | true =>
      rw [Place.outline_of_stop hbrace hend, if_pos rfl]
      have := length_outlineOf_le (levelAfter r.before) (segmentAfter r.before)
      omega

/-- **A line break that continues a line** leaves fewer lines than there are stops. -/
theorem length_lines_le {script : String} (h : expand script = .ok p)
    (hbrace : ∀ m ∈ Scan.marks .start 0 script.toList, m.is '{' = false)
    (hms : Scan.marks .start 0 script.toList = ms ++ m :: ns) (hstop : m.isStop = true)
    (hjoin : Place.endsStatement ⟨ms, m⟩ = false) :
    p.lines.length ≤ (Scan.marks .start 0 script.toList).countP Mark.isStop := by
  obtain ⟨rfl, -⟩ := eq_programOf_of_expand h
  generalize Scan.marks .start 0 script.toList = all at hms hbrace ⊢
  have hlength : (programOf all).lines.length = (outlineAfter all).length := by
    rw [← outline_programOf, Program.outline, List.length_map]
  have hplaces : ((places all).flatMap Place.outline).length ≤
      (places all).countP Place.endsStatement := by
    refine length_outline_le fun r hr => hbrace r.mark ?_
    rw [← map_mark_places all]
    exact List.mem_map_of_mem hr
  have hlast := length_outlineOf_le (levelAfter all) (segmentAfter all)
  -- the place of the line break is among the stops, and no statement ends there
  have hends : (places all).countP Place.endsStatement =
      ((places all).filter fun r => r.mark.isStop).countP Place.endsStatement := by
    rw [List.countP_filter]
    refine List.countP_congr fun r _ => ?_
    rw [Bool.and_eq_true]
    exact ⟨fun hr => ⟨hr, isStop_of_endsStatement hr⟩, And.left⟩
  have hfewer : ((places all).filter fun r => r.mark.isStop).countP Place.endsStatement <
      ((places all).filter fun r => r.mark.isStop).length :=
    List.countP_lt_length_iff.2 ⟨⟨ms, m⟩,
      List.mem_filter.2 ⟨mem_places.2 ⟨ns, hms⟩, hstop⟩, by simp [hjoin]⟩
  have hstops : ((places all).filter fun r => r.mark.isStop).length = all.countP Mark.isStop := by
    rw [← List.countP_eq_length_filter]
    conv => rhs; rw [← map_mark_places all, List.countP_map]
    rfl
  rw [hlength, outlineAfter, List.length_append]
  omega

/-! ### Rendered programs -/

/-- A rendered line of a program. -/
theorem exists_of_mem_renderLines (hs : ∀ l ∈ p.lines, l.Sound) (ha : a ∈ p.renderLines width) :
    ∃ k text, a = Line.indented width k text ∧ Clean text.toList ∧
      (dangles text = true → .statement k text ∈ p.lines) := by
  obtain ⟨l, hl, ha⟩ := List.mem_flatMap.1 ha
  obtain ⟨k, text, htext, hclean, hdangles⟩ := exists_of_mem_render (hs l hl) ha
  exact ⟨k, text, htext, hclean, fun hd => hdangles hd ▸ hl⟩

theorem finish_renderLines (hs : ∀ l ∈ p.lines, l.Sound) (width : Nat) :
    ∀ a ∈ p.renderLines width, (Scan.endState .start 0 a.toList).finish = .ok () := by
  intro a ha
  obtain ⟨k, text, rfl, hclean, -⟩ := exists_of_mem_renderLines hs ha
  exact finish_indented hclean width k 0

/-- The line break between two rendered lines is live. -/
theorem marks_render (hs : ∀ l ∈ p.lines, l.Sound)
    (hlines : p.renderLines width = before ++ a :: b :: after) :
    Scan.marks .start 0 (p.render width).toList =
      Scan.marks .start 0 (joined (before ++ [a])) ++
        ⟨Text.byteSize (joined (before ++ [a])), '\n', true⟩ ::
          Scan.marks .start (Text.byteSize (joined (before ++ [a])) + 1) (joined (b :: after)) := by
  have hsplit : p.renderLines width = (before ++ [a]) ++ b :: after := by rw [hlines]; simp
  rw [show (p.render width).toList = joined (p.renderLines width) from rfl, hsplit]
  refine marks_joined (fun c hc => finish_renderLines hs width c ?_) (by simp)
    (List.cons_ne_nil _ _)
  rw [hsplit]
  exact List.mem_append_left _ hc

/-- **What stands before that line break.** -/
theorem before_break_render (hs : ∀ l ∈ p.lines, l.Sound)
    (hlines : p.renderLines width = before ++ a :: after) :
    (∀ m ∈ (Scan.marks .start 0 (joined (before ++ [a]))).getLast?, m.char ≠ '\r') ∧
      (Segment.continues (Scan.marks .start 0 (joined (before ++ [a]))).reverse = true ↔
        ∃ k text, .statement k text ∈ p.lines ∧ a = Line.indented width k text ∧
          dangles text = true) := by
  have hbefore (c : String) (hc : c ∈ before) :
      (Scan.endState .start 0 c.toList).finish = .ok () :=
    finish_renderLines hs width c (by rw [hlines]; exact List.mem_append_left _ hc)
  obtain ⟨k, text, ha, hclean, hmem⟩ := exists_of_mem_renderLines hs
    (show a ∈ p.renderLines width by rw [hlines]; simp)
  refine ⟨?_, fun hcont => ?_, ?_⟩
  · rw [ha]
    exact (before_break hbefore hclean width k).1
  · rw [ha, (before_break hbefore hclean width k).2] at hcont
    exact ⟨k, text, hmem hcont, ha, hcont⟩
  · rintro ⟨k, text, hmem, rfl, hd⟩
    rw [(before_break hbefore (hs _ hmem).1 width k).2]
    exact hd

/-- The texts of statements are the lines that they render to. -/
theorem clean_of_statements (hs : ∀ l ∈ p.lines, l.Sound)
    (h : p.lines = texts.map (Line.statement 0)) : ∀ t ∈ texts, Clean t.toList := by
  intro t ht
  refine (hs (.statement 0 t) ?_).1
  rw [h]
  exact List.mem_map_of_mem ht

/-- **Lines that are read apart**: statements of which none but the last ends in a live
backslash. -/
theorem expand_render (hs : ∀ l ∈ p.lines, l.Sound) (h : p.lines = texts.map (Line.statement 0))
    (hnone : ∀ t ∈ texts.dropLast, dangles t = false) (width : Nat) :
    ∃ p', expand (p.render width) = .ok p' ∧ p'.lines = p.lines := by
  obtain ⟨q, hq, hnesting, hlines⟩ :=
    reads_joined (x := .start) rfl (clean_of_statements hs h) hnone 0
  have hfinish := finish_joined (finish_renderLines hs width) 0
  have hrender : (p.render width).toList = joined (p.renderLines width) := rfl
  rw [expand, hrender]
  rw [renderLines_statements h width] at hfinish ⊢
  refine ⟨_, expandChars_eq_ok_iff.2 ⟨q, hq, hfinish, hnesting, rfl⟩, ?_⟩
  rw [hlines, h]
  simp [Expansion.start]

/-- What is not last has something after it. -/
theorem exists_next_of_mem_dropLast (h : a ∈ texts.dropLast) :
    ∃ before b after, texts = before ++ a :: b :: after := by
  obtain ⟨before, middle, hsplit⟩ := List.append_of_mem h
  have hne : texts ≠ [] := by
    rintro rfl
    cases h
  obtain ⟨b, after, hrest⟩ := List.exists_cons_of_ne_nil
    (List.append_ne_nil_of_right_ne_nil middle (List.cons_ne_nil (texts.getLast hne) []))
  refine ⟨before, b, after, ?_⟩
  rw [← hrest, ← List.cons_append, ← List.append_assoc, ← hsplit, List.dropLast_append_getLast hne]

/-- **Lines that are joined**: after a statement that ends in a live backslash there are too few. -/
theorem length_lines_render_lt (hs : ∀ l ∈ p.lines, l.Sound)
    (h : p.lines = texts.map (Line.statement 0)) (hmem : a ∈ texts.dropLast)
    (hd : dangles a = true) {p' : Program} (hp' : expand (p.render width) = .ok p') :
    p'.lines.length < p.lines.length := by
  obtain ⟨before, b, after, htexts⟩ := exists_next_of_mem_dropLast hmem
  have hclean := clean_of_statements hs h
  have hrows := renderLines_statements h width
  have hrender : (p.render width).toList = joined texts := by
    rw [← hrows]
    rfl
  obtain ⟨hstructure, hcount⟩ := stops_joined (by rw [htexts]; simp) hclean 0
  have hlines : p.renderLines width = before ++ a :: b :: after := hrows.trans htexts
  have ha : Line.statement 0 a ∈ p.lines := by
    rw [h, htexts]
    simp
  have hjoin := (before_break_render hs hlines).2.2 ⟨0, a, ha, by simp [Line.indented], hd⟩
  have hms := marks_render hs hlines
  rw [← hrender] at hstructure hcount
  have hle := length_lines_le hp' (fun m hm => ?_) hms rfl (by simp [Place.endsStatement, hjoin])
  · rw [h, List.length_map]
    omega
  · have hnone := hstructure m hm
    simp only [Mark.isStructural, Bool.or_eq_false_iff] at hnone
    exact hnone.1.2

/-- **Rendered lines are read apart, but after a backslash.** The line break between two rendered
lines is live, and the lines after it are scanned anew. It continues the line before it exactly if
that is a statement whose text ends in a live backslash. What a script without braces renders to
expands to the same lines exactly if no statement but the last ends like that. -/
theorem rendered_lines_apart {script : String} (h : expand script = .ok p) (width : Nat) :
    (∀ before a b after, p.renderLines width = before ++ a :: b :: after →
      Scan.marks .start 0 (p.render width).toList =
          Scan.marks .start 0 (joined (before ++ [a])) ++
            ⟨Text.byteSize (joined (before ++ [a])), '\n', true⟩ ::
              Scan.marks .start (Text.byteSize (joined (before ++ [a])) + 1) (joined (b :: after)) ∧
        (∀ m ∈ (Scan.marks .start 0 (joined (before ++ [a]))).getLast?, m.char ≠ '\r') ∧
        (Segment.continues (Scan.marks .start 0 (joined (before ++ [a]))).reverse = true ↔
          ∃ k text, .statement k text ∈ p.lines ∧ a = Line.indented width k text ∧
            dangles text = true)) ∧
    ((∀ m ∈ Scan.marks .start 0 script.toList, m.is '{' = false ∧ m.is '}' = false) →
      ((∃ p', expand (p.render width) = .ok p' ∧ p'.lines = p.lines) ↔
        ∀ l ∈ p.lines.dropLast, l.dangles = false)) := by
  have hs (l : Line) (hl : l ∈ p.lines) : l.Sound :=
    (laid_of_expandChars h).1.sound l (List.mem_reverse.2 hl)
  refine ⟨fun before a b after hlines =>
    ⟨marks_render hs hlines, before_break_render hs hlines⟩, fun hbrace => ?_⟩
  obtain ⟨texts, htexts⟩ := exists_eq_statements h fun m hm => (hbrace m hm).1
  rw [htexts, ← List.map_dropLast, List.forall_mem_map, ← htexts]
  refine ⟨fun ⟨p', hp', hback⟩ a ha => ?_, fun hnone => expand_render hs htexts hnone width⟩
  rw [Bool.eq_false_iff]
  intro hd
  have hfewer := length_lines_render_lt hs htexts ha hd hp'
  rw [hback] at hfewer
  exact Nat.lt_irrefl _ hfewer

/-- A comment and a string, each with what would end a line, and a backslash that ends the last
statement. -/
theorem rendered_lines_apart_kept :
    expand "a # b;\\\nc = '\\\\;'; d\\" =
        .ok ⟨[.statement 0 "a # b;\\", .statement 0 "c = '\\\\;'", .statement 0 "d\\"], true⟩ ∧
      ∃ p', expand "a # b;\\\nc = '\\\\;'\nd\\" = .ok p' ∧
        p'.lines = [.statement 0 "a # b;\\", .statement 0 "c = '\\\\;'", .statement 0 "d\\"] := by
  have h : expand "a # b;\\\nc = '\\\\;'; d\\" =
      .ok ⟨[.statement 0 "a # b;\\", .statement 0 "c = '\\\\;'", .statement 0 "d\\"], true⟩ := by
    decide +kernel
  have hbrace : ∀ m ∈ Scan.marks .start 0 "a # b;\\\nc = '\\\\;'; d\\".toList,
      m.is '{' = false ∧ m.is '}' = false := by decide +kernel
  obtain ⟨-, hback⟩ := rendered_lines_apart h 4
  exact ⟨h, (hback hbrace).2 (by decide +kernel)⟩

/-- **A backslash that is kept joins what was apart.** Before the semicolon it is text; rendered, it
stands before a line break. -/
theorem rendered_lines_joined_slash :
    expand "a\\;b" = .ok ⟨[.statement 0 "a\\", .statement 0 "b"], true⟩ ∧
      (∀ m ∈ Scan.marks .start 0 "a\\;b".toList, m.is '{' = false ∧ m.is '}' = false) ∧
      Program.render ⟨[.statement 0 "a\\", .statement 0 "b"], true⟩ 4 = "a\\\nb" ∧
      Scan.marks .start 0 "a\\\nb".toList =
        [⟨0, 'a', true⟩, ⟨1, '\\', true⟩, ⟨2, '\n', true⟩, ⟨3, 'b', true⟩] ∧
      expand "a\\\nb" = .ok ⟨[.statement 0 "a b"], false⟩ := by
  decide +kernel

end Braceline
