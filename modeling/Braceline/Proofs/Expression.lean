import Braceline.Invocation
import Braceline.Proofs.Apart
import Braceline.Proofs.Carried

/-!
# When a script is a bare expression

Whether the value of a script is echoed is decided from a flag and from the number of lines that the
pass has made. Both can be told from the script alone: it has no live semicolon or brace, and of the
segments between its line breaks one is not blank. A line break that continues a line is none of
them, and is read as a space.

* `length_lines_eq`: a script without structure makes a line for each segment that is not blank.
* `isExpression_iff_length`: a bare expression is one line without structure.
* `lines_of_unbroken`: a script without a stop is one statement, trimmed.
* `isExpression_exact`: all of it, and how the listing of an invocation is run.
-/

namespace Braceline

/-- Does the place break the line? A line break that continues the line does not. -/
def Place.breaksLine (p : Place) : Bool := p.mark.is '\n' && !Segment.continues p.before.reverse

/-- **The segments between the line breaks of a script**, each with the continuations in it read as
spaces. -/
def lineSegments (ms : List Mark) : List (List Char) :=
  ((places ms).filter Place.breaksLine).map (fun p => segmentAfter p.before) ++ [segmentAfter ms]

/-- Is there more to a text than blanks? -/
def holdsText (t : List Char) : Bool := !t.all Text.isBlank

variable {script : String} {p : Program} {ms : List Mark} {r : Place}

/-! ### One line for each segment -/

theorem length_outlineOf (level : Nat) (t : List Char) :
    (outlineOf level t).length = if holdsText t then 1 else 0 := by
  unfold outlineOf holdsText
  cases t.all Text.isBlank <;> rfl

/-- Where there is no structure, a statement ends at a line break, and only there. -/
theorem endsStatement_eq_breaksLine (h : r.mark.isStructural = false) :
    r.endsStatement = r.breaksLine := by
  simp only [Mark.isStructural, Bool.or_eq_false_iff] at h
  rw [Place.endsStatement, h.1.1, h.2, Bool.or_self, Bool.false_or, Place.breaksLine]

theorem outline_of_not_structural (h : r.mark.isStructural = false) :
    r.outline =
      if r.breaksLine then outlineOf (levelAfter r.before) (segmentAfter r.before) else [] := by
  have hopen : r.mark.is '{' = false := by
    simp only [Mark.isStructural, Bool.or_eq_false_iff] at h
    exact h.1.2
  have hends := endsStatement_eq_breaksLine h
  split
  · next hb => exact Place.outline_of_stop hopen (hends.trans hb)
  · next hb => exact Place.outline_of_draft hopen (hends.trans (Bool.eq_false_iff.2 hb))

/-- The places without structure make a line for each segment that a line break ends. -/
theorem length_outlines {rs : List Place} (h : ∀ r ∈ rs, r.mark.isStructural = false) :
    (rs.flatMap Place.outline).length =
      ((rs.filter Place.breaksLine).map fun r => segmentAfter r.before).countP holdsText := by
  induction rs with
  | nil => rfl
  | cons r rs ih =>
    have hrest := ih fun r hr => h r (List.mem_cons_of_mem _ hr)
    have hr := outline_of_not_structural (h r List.mem_cons_self)
    rw [List.flatMap_cons, List.length_append, hrest, hr]
    cases hb : r.breaksLine with
    | false =>
      rw [List.filter_cons_of_neg (by rw [hb]; exact Bool.false_ne_true), if_neg Bool.false_ne_true]
      exact Nat.zero_add _
    | true =>
      rw [List.filter_cons_of_pos hb, List.map_cons, List.countP_cons, if_pos rfl,
        length_outlineOf, Nat.add_comm]

theorem length_outlineAfter (h : ∀ m ∈ ms, m.isStructural = false) :
    (outlineAfter ms).length = (lineSegments ms).countP holdsText := by
  have hplaces : ∀ r ∈ places ms, r.mark.isStructural = false := by
    intro r hr
    obtain ⟨after, hms⟩ := mem_places.1 hr
    exact h r.mark (by rw [hms]; simp)
  rw [outlineAfter, List.length_append, length_outlines hplaces, length_outlineOf, lineSegments,
    List.countP_append, List.countP_singleton]

/-- **A script without structure makes a line for each segment that is not blank.** -/
theorem length_lines_eq (h : expand script = .ok p)
    (hs : ∀ m ∈ Scan.marks .start 0 script.toList, m.isStructural = false) :
    p.lines.length = (lineSegments (Scan.marks .start 0 script.toList)).countP holdsText := by
  obtain ⟨rfl, -⟩ := eq_programOf_of_expand h
  rw [← length_outlineAfter hs, ← outline_programOf, Program.outline, List.length_map]

/-! ### Bare expressions -/

theorem structural_eq_false_iff (h : expand script = .ok p) :
    p.structural = false ↔
      ∀ m ∈ Scan.marks .start 0 script.toList, m.isStructural = false := by
  obtain ⟨rfl, -⟩ := eq_programOf_of_expand h
  rw [programOf, List.any_eq_false]
  simp only [Bool.not_eq_true]

/-- Without structure, all lines are statements outside of blocks. -/
theorem exists_texts (h : expand script = .ok p) (hs : p.structural = false) :
    ∃ texts : List String, p.lines = texts.map (Line.statement 0) := by
  refine exists_eq_statements h fun m hm => ?_
  have hm := (structural_eq_false_iff h).1 hs m hm
  simp only [Mark.isStructural, Bool.or_eq_false_iff] at hm
  exact hm.1.2

/-- **A bare expression is one statement**, outside of any block. -/
theorem exists_text_of_isExpression (h : expand script = .ok p) (he : p.isExpression = true) :
    ∃ text, p.lines = [.statement 0 text] := by
  rw [Program.isExpression, Bool.and_eq_true, Bool.not_eq_true'] at he
  obtain ⟨texts, htexts⟩ := exists_texts h he.1
  obtain ⟨-, hlines⟩ := he
  rw [htexts] at hlines ⊢
  cases texts with
  | nil => cases hlines
  | cons text texts =>
    cases texts with
    | nil => exact ⟨text, rfl⟩
    | cons => cases hlines

/-- **A bare expression is one line without structure.** The line cannot be the head of the loop,
which needs a brace. -/
theorem isExpression_iff_length (h : expand script = .ok p) :
    p.isExpression = true ↔ p.structural = false ∧ p.lines.length = 1 := by
  constructor
  · intro he
    obtain ⟨text, htext⟩ := exists_text_of_isExpression h he
    rw [Program.isExpression, Bool.and_eq_true, Bool.not_eq_true'] at he
    exact ⟨he.1, by rw [htext]; rfl⟩
  · rintro ⟨hs, hlength⟩
    obtain ⟨texts, htexts⟩ := exists_texts h hs
    rw [htexts, List.length_map] at hlength
    obtain ⟨text, rfl⟩ := List.length_eq_one_iff.1 hlength
    rw [Program.isExpression, hs, htexts]
    rfl

/-! ### Scripts on one line -/

/-- **A script without a stop is one statement**, trimmed, if there is more to it than blanks. -/
theorem lines_of_unbroken (h : expand script = .ok p)
    (hstop : ∀ m ∈ Scan.marks .start 0 script.toList, m.isStop = false) :
    p.lines = statements 0 script.toList := by
  obtain ⟨q, hq, -, -, rfl⟩ := expandChars_eq_ok_iff.1 h
  obtain ⟨hreads, htext, -⟩ := Pass.reads_text .start hstop
  obtain rfl := Except.ok.inj (hq.symm.trans hreads)
  -- all of the script is still in the draft when it ends
  rw [Scan.marks_char] at htext
  simp only [Pass.ended, htext, List.reverse_reverse, emit_eq]
  simp [Expansion.start]

/-- So it renders to itself, with the blanks around it removed. -/
theorem render_of_unbroken (h : expand script = .ok p) (he : p.isExpression = true)
    (hstop : ∀ m ∈ Scan.marks .start 0 script.toList, m.isStop = false) (width : Nat) :
    p.render width = String.ofList (Text.trim script.toList) := by
  have hlines := lines_of_unbroken h hstop
  obtain ⟨text, htext⟩ := exists_text_of_isExpression h he
  have hstatement : p.lines = [text].map (Line.statement 0) := htext
  have hrender : p.renderLines width = [text] := renderLines_statements hstatement width
  rw [Program.render, hrender, String.intercalate_singleton]
  rw [htext, statements] at hlines
  split at hlines
  · cases hlines
  · obtain ⟨hline, -⟩ := List.cons.inj hlines
    exact (Line.statement.inj hline).2

/-- **What is echoed is told from the script.** It is a bare expression exactly if no semicolon and
no brace of it is live and one segment between its line breaks is not blank. It is then a single
statement outside of blocks; on one line, that is the script itself without the blanks around it.
The listing of any invocation is run by whether its script is one, whatever else it asks for. -/
theorem isExpression_exact (script : String) :
    (∀ p, expand script = .ok p →
      (p.isExpression = true ↔
        (∀ m ∈ Scan.marks .start 0 script.toList, m.isStructural = false) ∧
          (lineSegments (Scan.marks .start 0 script.toList)).countP holdsText = 1) ∧
      (p.isExpression = true → (∃ text, p.lines = [.statement 0 text]) ∧
        ((∀ m ∈ Scan.marks .start 0 script.toList, m.is '\n' = false) →
          ∀ width, p.render width = String.ofList (Text.trim script.toList)))) ∧
    ∀ (inv : Invocation) (s : Settings) (l : Listing), inv.script = script →
      inv.generate s = .ok l → ∃ p, expand script = .ok p ∧
        (l.kind = .expression ↔ p.isExpression = true) ∧
        (l.kind.compileMode = "single" ↔ p.isExpression = true) := by
  refine ⟨fun p h => ⟨?_, fun he => ⟨exists_text_of_isExpression h he, fun hbreak width => ?_⟩⟩,
    fun inv s l hscript hg => ?_⟩
  · rw [isExpression_iff_length h, structural_eq_false_iff h]
    exact and_congr_right fun hs => by rw [length_lines_eq h hs]
  · have hs := (structural_eq_false_iff h).1 ((isExpression_iff_length h).1 he).1
    refine render_of_unbroken h he (fun m hm => ?_) width
    rw [Mark.isStop, hs m hm, hbreak m hm, Bool.or_self]
  · subst hscript
    cases hp : expand inv.script with
    | error e =>
      rw [Invocation.generate, hp] at hg
      cases hg
    | ok p =>
      rw [Invocation.generate, hp] at hg
      obtain rfl := Except.ok.inj hg
      have hkind : Listing.Kind.ofProgram p = .expression ↔ p.isExpression = true :=
        Listing.Kind.ofProgram_eq_expression_iff p
      refine ⟨p, rfl, hkind, ?_⟩
      rw [← hkind]
      exact ⟨fun hmode => Loader.compileMode_injective hmode, fun hk => congrArg _ hk⟩

/-- A segment with nothing but a continuation in it is blank, and two segments on a line each are
two statements. -/
example : (expand "5 # five\n\\\n").map Program.isExpression = .ok true ∧
    (expand "5\n6").map Program.isExpression = .ok false := by decide

end Braceline
