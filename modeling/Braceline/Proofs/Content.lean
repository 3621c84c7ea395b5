import Braceline.Proofs.Layout
import Braceline.Proofs.Trimming

/-!
# What an expansion keeps of a script

An expansion loses no code, no literal and no comment of a script, and changes none. What it drops
is structure: semicolons, braces, blanks in code, the backslashes of line continuations, the blanks
at the end of a comment, and the word of the loop. All it adds is a colon after a block header that
has none. The rest stands in the statements, once and in order, and every literal stands in one
statement as it is written.

* `conserved`: at each point of a script, the statements made so far and the draft hold what is kept
  of the script before that point.
* `content_conserved`: so do the statements of a program hold what is kept of its script.
-/

namespace Braceline

/-- Is the span a literal? -/
def Span.isLiteral : Span → Bool
  | literal _ _ _ => true
  | _ => false

/-- The segment under way after spans that are given last first. -/
def segmentOf (back : List Span) : List Char := segmentAfter (Span.marks 0 back.reverse)

/-- Is the span dropped wherever it stands? -/
def Span.isDropped : Span → Bool
  | code c => Text.isBlank c || c == ';' || c == '}'
  | _ => false

/-- **What is kept of the spans of a script**, all given last first. A continuation goes with its
backslash, and the brace that opens the loop with the two letters of its word. Any other opening
brace leaves a colon, unless its header has one. -/
def keptBack : List Span → List Span
  | .code '\n' :: .code '\\' :: back => keptBack back
  | .code '\n' :: .code '\r' :: .code '\\' :: back => keptBack back
  | .code '{' :: back =>
    if endsInLoop (segmentOf back) then keptBack (back.drop 2)
    else if (Text.trim (segmentOf back)).getLast? = some ':' then keptBack back
    else .code ':' :: keptBack back
  | s :: back => if s.isDropped then keptBack back else s.trimmed :: keptBack back
  | [] => []
  termination_by back => back.length

/-- What is kept of the spans of a script. -/
def kept (ss : List Span) : List Span := (keptBack ss.reverse).reverse

namespace Line

/-- The characters of a statement, without the blanks that a scan of its text finds in code. -/
def content : Line → List Char
  | statement _ text =>
    ((Scan.marks .start 0 text.toList).filter fun m => !(m.live && Text.isBlank m.char)).map
      Mark.char
  | eachLine _ => []

/-- The literals of a statement. -/
def literals : Line → List Span
  | statement _ text => (Span.ofText text.toList).filter Span.isLiteral
  | eachLine _ => []

/-- The spans of a statement, without blank code. -/
def solid : Line → List Span
  | statement _ text => (Span.ofText text.toList).filter fun s => !s.isBlank
  | eachLine _ => []

end Line

/-- What stands in the statements that the marks of a script have made. -/
def emitted (ms : List Mark) : List Span := ((places ms).flatMap Place.lines).flatMap Line.solid

/-- A draft with this text holds the spans `front`, which are given last first. -/
structure Drafted (back front : List Span) (text : List Char) : Prop where
  text_eq : text = Span.spellBack front
  apart : ∀ next, Span.Apart back next → Span.Apart front next
  noBreak : .code '\n' ∉ front
  closed : ∀ f b, .literal f b false ∉ front

/-- A draft with this tail ends as the spans before it do. -/
structure Ends (back front : List Span) (tail : Segment.Tail) : Prop where
  slash : tail = .slash → ∃ back' front', back = .code '\\' :: back' ∧ front = .code '\\' :: front'
  slashReturn : tail = .slashReturn → ∃ back' front',
    back = .code '\r' :: .code '\\' :: back' ∧ front = .code '\r' :: .code '\\' :: front'
  joined : tail = .joined → ∃ front', front = .code ' ' :: front'

/-- What is kept of the script up to here stands in the statements and in the draft. -/
structure Conserved (back front : List Span) (d : Segment.Draft) (done : List Span) : Prop where
  drafted : Drafted back front d.text
  ends : Ends back front d.tail
  kept : keptBack back = Span.solid front ++ done.reverse

variable {back front : List Span} {s : Span} {next : Option Char} {d : Segment.Draft}
  {done : List Span} {t : List Char} {ms run : List Mark} {m : Mark} {o : Nat} {c e : Char}

/-! ### What is kept -/

theorem keptBack_other (hn : s ≠ .code '\n') (ho : s ≠ .code '{') :
    keptBack (s :: back) = if s.isDropped then keptBack back else s.trimmed :: keptBack back := by
  rw [keptBack]
  all_goals grind

theorem keptBack_blank (h : Text.isBlank c = true) (hn : c ≠ '\n') :
    keptBack (.code c :: back) = keptBack back := by
  have ho : c ≠ '{' := by rintro rfl; exact absurd h (by decide)
  rw [keptBack_other (by simpa using hn) (by simpa using ho), if_pos (by simp [Span.isDropped, h])]

/-- A line break that continues no line is dropped as any blank is. -/
theorem keptBack_break (hb : ∀ r, back ≠ .code '\\' :: r)
    (hr : ∀ r, back ≠ .code '\r' :: .code '\\' :: r) :
    keptBack (.code '\n' :: back) = keptBack back := by
  rw [keptBack]
  · rfl
  all_goals grind

theorem solid_code (c : Char) (front : List Span) :
    Span.solid (.code c :: front) =
      if Text.isBlank c then Span.solid front else .code c :: Span.solid front := by
  cases h : Text.isBlank c <;> simp [Span.solid, Span.isBlank, Span.isCodeOf, Span.trimmed, h]

theorem solid_dropWhile (front : List Span) :
    Span.solid (front.dropWhile (Span.isCodeOf Text.isSpaceOrTab)) = Span.solid front := by
  induction front with
  | nil => rfl
  | cons s front ih =>
    by_cases hs : s.isCodeOf Text.isSpaceOrTab
    · rw [List.dropWhile_cons_of_pos hs, ih]
      cases s with
      | code c => rw [solid_code, if_pos (Text.isBlank_of_isSpaceOrTab hs)]
      | comment | literal => cases hs
    · rw [List.dropWhile_cons_of_neg hs]

/-! ### The marks of spans -/

theorem marks_concat (o : Nat) (ss : List Span) (s : Span) :
    Span.marks o (ss ++ [s]) =
      Span.marks o ss ++ stamp s.isCode (o + Text.byteSize (ss.flatMap Span.text)) s.text := by
  induction ss generalizing o with
  | nil => simp [Span.marks]
  | cons s' ss ih => simp [Span.marks, ih, Nat.add_assoc]

/-- The marks of one more span. -/
theorem exists_marks_cons (s : Span) (back : List Span) :
    ∃ o, Span.marks 0 (s :: back).reverse =
      Span.marks 0 back.reverse ++ stamp s.isCode o s.text := by
  rw [List.reverse_cons, marks_concat]
  exact ⟨_, rfl⟩

theorem emitted_concat (ms : List Mark) (m : Mark) :
    emitted (ms ++ [m]) = emitted ms ++ (Place.lines ⟨ms, m⟩).flatMap Line.solid := by
  rw [emitted, places_concat, List.flatMap_append, List.flatMap_append]
  simp [emitted]

/-- A comment or a literal goes into the draft as it is. -/
theorem after_stamp (ms : List Mark) (o : Nat) (c : Char) (cs : List Char) :
    Segment.Draft.after (ms ++ stamp false o (c :: cs)) =
        ⟨(c :: cs).reverse ++ (Segment.Draft.after ms).text, .plain⟩ ∧
      emitted (ms ++ stamp false o (c :: cs)) = emitted ms := by
  induction cs generalizing ms o c with
  | nil =>
    rw [stamp, stamp, Segment.Draft.after_concat, emitted_concat]
    exact ⟨rfl, List.append_nil _⟩
  | cons c' cs ih =>
    obtain ⟨hafter, hemitted⟩ := ih (ms ++ [⟨o, c, false⟩]) (o + c.utf8Size) c'
    have hsplit : ms ++ stamp false o (c :: c' :: cs) =
        ms ++ [⟨o, c, false⟩] ++ stamp false (o + c.utf8Size) (c' :: cs) := by
      rw [List.append_assoc]
      rfl
    rw [hsplit, hafter, hemitted, Segment.Draft.after_concat, emitted_concat]
    refine ⟨?_, List.append_nil _⟩
    simp [Segment.Draft.next, Segment.Draft.read, Segment.Draft.push]

/-! ### One more span -/

theorem drafted_nil (back : List Span) : Drafted back [] [] where
  text_eq := rfl
  apart _ _ := trivial
  noBreak := List.not_mem_nil
  closed _ _ := List.not_mem_nil

theorem Drafted.cons (hd : Drafted back front t) (hn : s ≠ .code '\n')
    (hs : ∀ f b, s ≠ .literal f b false) :
    Drafted (s :: back) (s :: front) (s.text.reverse ++ t) where
  text_eq := by rw [hd.text_eq, Span.spellBack_cons]
  apart _ h := ⟨h.1, hd.apart _ h.2⟩
  noBreak h := (List.mem_cons.1 h).elim (fun h => hn h.symm) hd.noBreak
  closed f b h := (List.mem_cons.1 h).elim (fun h => hs f b h.symm) (hd.closed f b)

/-- A space or a tab that follows the space of a continuation adds nothing. -/
theorem Drafted.skip (hd : Drafted back (.code ' ' :: front) t) (c : Char) :
    Drafted (.code c :: back) (.code ' ' :: front) t where
  text_eq := hd.text_eq
  apart next h := ⟨⟨rfl, by decide⟩, (hd.apart _ h.2).2⟩
  noBreak := hd.noBreak
  closed := hd.closed

/-- A continuation takes back the spaces and tabs before its backslash. -/
theorem drafted_join (back : List Span) (hfront : Span.Apart front (some '\\'))
    (hn : Span.code '\n' ∉ front) (hclosed : ∀ f b, .literal f b false ∉ front) :
    Drafted back (.code ' ' :: front.dropWhile (Span.isCodeOf Text.isSpaceOrTab))
      (' ' :: (Span.spellBack front).dropWhile Text.isSpaceOrTab) := by
  have hsub := (List.dropWhile_sublist (Span.isCodeOf Text.isSpaceOrTab) (l := front)).subset
  refine ⟨?_, fun next h => ⟨⟨rfl, by decide⟩, hfront.dropWhile (by decide) hn⟩, ?_, ?_⟩
  · rw [Span.dropWhile_spellBack (fun u => by cases u <;> rfl) hfront (by decide) hn]
    rfl
  · exact fun h => (List.mem_cons.1 h).elim (by simp) fun h => hn (hsub h)
  · exact fun f b h => (List.mem_cons.1 h).elim (by simp) fun h => hclosed f b (hsub h)

theorem ends_plain (back front : List Span) : Ends back front .plain := by
  constructor <;> simp

theorem ends_joined (back front : List Span) : Ends back (.code ' ' :: front) .joined := by
  constructor <;> simp

theorem ends_slash (back front : List Span) :
    Ends (.code '\\' :: back) (.code '\\' :: front) .slash := by
  constructor <;> simp

theorem ends_slashReturn (back front : List Span) :
    Ends (.code '\r' :: .code '\\' :: back) (.code '\r' :: .code '\\' :: front) .slashReturn := by
  constructor <;> simp

/-- A comment or a literal is kept. -/
theorem Conserved.inert (h : Conserved back front d done) (hcode : s.isCode = false)
    (hs : ∀ f b, s ≠ .literal f b false) :
    Conserved (s :: back) (s :: front) ⟨s.text.reverse ++ d.text, .plain⟩ done where
  drafted := h.drafted.cons (by rintro rfl; cases hcode) hs
  ends := ends_plain _ _
  kept := by
    cases s with
    | code c => cases hcode
    | comment | literal =>
      rw [keptBack_other (by simp) (by simp), h.kept]
      rfl

/-- Code that is text goes into the draft. -/
theorem Conserved.code (h : Conserved back front d done)
    (hs : Mark.isStructural ⟨o, c, true⟩ = false) (hn : c ≠ '\n') (tail : Segment.Tail)
    (hends : Ends (.code c :: back) (.code c :: front) tail) :
    Conserved (.code c :: back) (.code c :: front) (d.push c tail) done where
  drafted := h.drafted.cons (by simpa using hn) (by simp)
  ends := hends
  kept := by
    simp only [Mark.isStructural, Mark.is_live, Bool.or_eq_false_iff, beq_eq_false_iff_ne] at hs
    rw [keptBack_other (by simpa using hn) (by simpa using hs.1.2), h.kept, solid_code]
    cases hc : Text.isBlank c <;> simp [Span.isDropped, hc, hs, Span.trimmed]

/-- A backslash before a line break was kept too early. -/
theorem kept_of_slash
    (h : keptBack (.code '\\' :: back) = Span.solid (.code '\\' :: front) ++ done) :
    keptBack back = Span.solid front ++ done := by
  rw [keptBack_other (by simp) (by simp), solid_code, if_neg (by decide), if_neg (by decide)] at h
  exact (List.cons.inj h).2

theorem solid_space_dropWhile (front : List Span) :
    Span.solid (.code ' ' :: front.dropWhile (Span.isCodeOf Text.isSpaceOrTab)) =
      Span.solid front := by
  rw [solid_code, if_pos (by decide), solid_dropWhile]

/-- A continuation leaves a space for the characters that it is made of and the blanks before. -/
theorem conserved_join {front₀ : List Span} (n : Nat) (hd : Drafted back front₀ d.text)
    (hsub : ∀ s ∈ front, s ∈ front₀) (htext : d.text.drop n = Span.spellBack front)
    (hfront : Span.Apart front (some '\\'))
    (hkept : keptBack (.code '\n' :: back) = Span.solid front ++ done.reverse) :
    ∃ front', Conserved (.code '\n' :: back) front' (d.join n) done := by
  have hn : Span.code '\n' ∉ front := fun hn => hd.noBreak (hsub _ hn)
  have hclosed : ∀ f b, .literal f b false ∉ front := fun f b hl => hd.closed f b (hsub _ hl)
  refine ⟨.code ' ' :: front.dropWhile (Span.isCodeOf Text.isSpaceOrTab), ?_, ends_joined _ _, ?_⟩
  · rw [Segment.Draft.join, htext]
    exact drafted_join _ hfront hn hclosed
  · rw [hkept, solid_space_dropWhile]

/-- A continuation is dropped with its backslash. -/
theorem Conserved.join (h : Conserved back front d done) (ht : d.tail = .slash)
    (hback : Span.Apart back (some '\n')) :
    ∃ front', Conserved (.code '\n' :: back) front' (d.join 1) done := by
  have hapart := h.drafted.apart _ hback
  obtain ⟨back, front, rfl, rfl⟩ := h.ends.slash ht
  have hsub : ∀ s ∈ front, s ∈ .code '\\' :: front := fun s hs => List.mem_cons_of_mem _ hs
  have htext : d.text.drop 1 = Span.spellBack front := by rw [h.drafted.text_eq]; rfl
  refine conserved_join 1 h.drafted hsub htext hapart.2 ?_
  rw [keptBack]
  exact kept_of_slash h.kept

/-- So it is if a carriage return stands between. -/
theorem Conserved.joinReturn (h : Conserved back front d done) (ht : d.tail = .slashReturn)
    (hback : Span.Apart back (some '\n')) :
    ∃ front', Conserved (.code '\n' :: back) front' (d.join 2) done := by
  have hapart := h.drafted.apart _ hback
  obtain ⟨back, front, rfl, rfl⟩ := h.ends.slashReturn ht
  have hsub : ∀ s ∈ front, s ∈ .code '\r' :: .code '\\' :: front :=
    fun s hs => List.mem_cons_of_mem _ (List.mem_cons_of_mem _ hs)
  have htext : d.text.drop 2 = Span.spellBack front := by rw [h.drafted.text_eq]; rfl
  refine conserved_join 2 h.drafted hsub htext hapart.2.2 ?_
  have hkept := h.kept
  rw [keptBack_blank (by decide) (by decide), solid_code, if_pos (by decide)] at hkept
  rw [keptBack]
  exact kept_of_slash hkept

theorem Conserved.skip (h : Conserved back front d done) (ht : d.tail = .joined)
    (hc : Text.isSpaceOrTab c = true) : Conserved (.code c :: back) front d done := by
  obtain ⟨front, rfl⟩ := h.ends.joined ht
  refine ⟨h.drafted.skip c, ⟨by simp [ht], by simp [ht], fun _ => ⟨_, rfl⟩⟩, ?_⟩
  rw [keptBack_blank (Text.isBlank_of_isSpaceOrTab hc), h.kept]
  rintro rfl
  exact absurd hc (by decide)

/-- A stop leaves nothing in the draft. What was there is in the statements that it makes. -/
theorem conserved_stop {more : List Span} (hkept : keptBack back = more.reverse ++ done.reverse) :
    Conserved back [] .empty (done ++ more) where
  drafted := drafted_nil _
  ends := ends_plain _ _
  kept := by rw [hkept, List.reverse_append]; rfl

/-- **The statement of a text** holds all of its spans but blank code. -/
theorem solid_statements (h : Span.Apart front next) (hn : .code '\n' ∉ front)
    (hclosed : ∀ f b, .literal f b false ∉ front) (level : Nat) :
    (statements level (Span.spellBack front).reverse).flatMap Line.solid =
      (Span.solid front).reverse := by
  rw [← Span.ofText_trim h hn hclosed, statements]
  cases Text.trim (Span.spellBack front).reverse with
  | nil => simp
  | cons c cs => simp [Line.solid]

/-- The header of a block holds them, too, and its colon. -/
theorem solid_withColon (h : Span.Apart front (some c)) (hc : c ≠ '\n') (hn : .code '\n' ∉ front)
    (hclosed : ∀ f b, .literal f b false ∉ front) (level : Nat) :
    (Line.statement level (String.ofList (Segment.withColon
        (Text.trim (Span.spellBack front).reverse)))).solid =
      (Span.solid front).reverse ++
        if (Text.trim (Span.spellBack front).reverse).getLast? = some ':' then []
        else [.code ':'] := by
  rw [Line.solid, String.toList_ofList, Segment.withColon]
  split
  · rw [Span.ofText_trim h hn hclosed, List.append_nil]
  · exact Span.ofText_trim_colon h hc hn hclosed

/-! ### The word of the loop -/

/-- A letter before a character of code is code. -/
theorem exists_code_of_spellBack (h : Span.Apart front (some e)) (he : e ≠ '\n')
    (hc : Text.isWordChar c = true) (ht : Span.spellBack front = c :: t) :
    ∃ front', front = .code c :: front' ∧ Span.spellBack front' = t := by
  cases front with
  | nil => cases ht
  | cons s front =>
    rw [Span.spellBack_cons] at ht
    cases s with
    | code a =>
      obtain ⟨rfl, rfl⟩ := List.cons.inj ht
      exact ⟨front, rfl, rfl⟩
    | comment body => exact absurd (h.1.2 _ rfl) he
    | literal f body closed =>
      cases closed with
      | false => cases h.1.2
      | true =>
        obtain ⟨u, hu⟩ := Span.exists_text_quote f body
        rw [hu, List.reverse_append] at ht
        obtain ⟨rfl, -⟩ := List.cons.inj ht
        rw [Text.isWordChar_quote] at hc
        cases hc

/-- So it is in the segment. -/
theorem exists_code_of_textBack (h : Span.Apart back (some e)) (he : e ≠ '\n')
    (hc : Text.isWordChar c = true)
    (ht : Segment.textBack (Span.marks 0 back.reverse).reverse = c :: t) :
    ∃ back', back = .code c :: back' ∧
      Segment.textBack (Span.marks 0 back'.reverse).reverse = t := by
  cases back with
  | nil => cases ht
  | cons s back =>
    obtain ⟨o, hmarks⟩ := exists_marks_cons s back
    rw [hmarks, List.reverse_append] at ht
    cases s with
    | code a =>
      rcases Segment.textBack_live_cases o a (Span.marks 0 back.reverse).reverse with h | ⟨u, h⟩ | h
      · cases h.symm.trans ht
      · obtain ⟨rfl, -⟩ := List.cons.inj (h.symm.trans ht)
        exact absurd hc (by decide +kernel)
      · obtain ⟨rfl, rfl⟩ := List.cons.inj (h.symm.trans ht)
        exact ⟨back, rfl, rfl⟩
    | comment body => exact absurd (h.1.2 _ rfl) he
    | literal f body closed =>
      cases closed with
      | false => cases h.1.2
      | true =>
        obtain ⟨u, hu⟩ := Span.exists_text_quote f body
        have hcode : (Span.literal f body true).isCode = false := rfl
        rw [hu, hcode, stamp_append, List.reverse_append, List.append_assoc] at ht
        have hquote := Segment.textBack_inert.symm.trans ht
        obtain ⟨rfl, -⟩ := List.cons.inj hquote
        rw [Text.isWordChar_quote] at hc
        cases hc

/-- The brace of the loop stands right after its word. -/
theorem exists_word_of_endsInLoop (h : Span.Apart back (some '{'))
    (hloop : endsInLoop (segmentOf back) = true) :
    ∃ back', back = .code 'L' :: .code 'E' :: back' := by
  rw [segmentOf, segmentAfter, endsInLoop_reverse] at hloop
  obtain ⟨before, hbefore⟩ := Option.isSome_iff_exists.1 hloop
  have ht := Segment.eq_cons_of_beforeEachLine? hbefore
  obtain ⟨back, rfl, ht'⟩ := exists_code_of_textBack h (by decide) (by decide +kernel) ht
  obtain ⟨back', rfl, -⟩ := exists_code_of_textBack h.2 (by decide) (by decide +kernel) ht'
  exact ⟨back', rfl⟩

/-! ### Along a script -/

/-- The statement of the draft holds what is kept of the segment. -/
theorem Conserved.statement (h : Conserved back front d done) (hback : Span.Apart back next)
    (level : Nat) :
    (statements level d.text.reverse).flatMap Line.solid = (Span.solid front).reverse := by
  rw [h.drafted.text_eq]
  exact solid_statements (h.drafted.apart _ hback) h.drafted.noBreak h.drafted.closed level

/-- The brace of the loop is dropped with the two letters of its word. -/
theorem Conserved.loop {before : List Char} (h : Conserved back front d done)
    (hback : Span.Apart back (some '{')) (hsegment : endsInLoop (segmentOf back) = true)
    (hdraft : Segment.beforeEachLine? d.text.reverse = some before) (level : Nat) :
    keptBack (.code '{' :: back) =
      ((statements level before).flatMap Line.solid).reverse ++ done.reverse := by
  -- the draft may stand before the brace as the spans may
  have hapart := h.drafted.apart _ hback
  have ht := Segment.eq_cons_of_beforeEachLine? hdraft
  rw [h.drafted.text_eq] at ht
  -- the letters are the last code of the draft, and of the segment
  obtain ⟨front', rfl, ht'⟩ := exists_code_of_spellBack hapart (by decide) (by decide +kernel) ht
  obtain ⟨front, rfl, hrest⟩ :=
    exists_code_of_spellBack hapart.2 (by decide) (by decide +kernel) ht'
  obtain ⟨back, rfl⟩ := exists_word_of_endsInLoop hback hsegment
  have hsub : ∀ s ∈ front, s ∈ .code 'L' :: .code 'E' :: front :=
    fun s hs => List.mem_cons_of_mem _ (List.mem_cons_of_mem _ hs)
  have hbefore : before = (Span.spellBack front).reverse := by rw [hrest, List.reverse_reverse]
  have hkept : keptBack back = Span.solid front ++ done.reverse := by
    have hkept := h.kept
    rw [keptBack_other (by simp) (by simp), keptBack_other (by simp) (by simp)] at hkept
    exact (List.cons.inj (List.cons.inj hkept).2).2
  rw [keptBack, if_pos hsegment, List.drop_succ_cons, List.drop_succ_cons, List.drop_zero, hkept,
    hbefore, solid_statements hapart.2.2 (fun hn => h.drafted.noBreak (hsub _ hn))
      (fun f b hl => h.drafted.closed f b (hsub _ hl)), List.reverse_reverse]

/-- Any other opening brace leaves the colon that its header does not have. -/
theorem Conserved.block (h : Conserved back front d done) (hback : Span.Apart back (some '{'))
    (hsegment : endsInLoop (segmentOf back) = false)
    (hcolon : (Text.trim d.text.reverse).getLast? = (Text.trim (segmentOf back)).getLast?)
    (level : Nat) :
    keptBack (.code '{' :: back) = (Line.statement level (String.ofList (Segment.withColon
      (Text.trim d.text.reverse)))).solid.reverse ++ done.reverse := by
  rw [keptBack, hsegment, if_neg (by simp), ← hcolon, h.kept, h.drafted.text_eq,
    solid_withColon (h.drafted.apart _ hback) (by decide) h.drafted.noBreak h.drafted.closed]
  split <;> simp

/-- What an opening brace keeps stands in the lines that it makes. -/
theorem keptBack_open {ms : List Mark} (hms : Span.marks 0 back.reverse = ms)
    (h : Conserved back front (.after ms) done) (hback : Span.Apart back (some '{')) (o : Nat) :
    keptBack (.code '{' :: back) =
      ((Place.lines ⟨ms, ⟨o, '{', true⟩⟩).flatMap Line.solid).reverse ++ done.reverse := by
  have hsegment : endsInLoop (segmentOf back) =
      (Segment.beforeEachLine? (Segment.Draft.after ms).text.reverse).isSome := by
    rw [segmentOf, hms, endsInLoop_segmentAfter]
  have hcolon : (Text.trim (Segment.Draft.after ms).text.reverse).getLast? =
      (Text.trim (segmentOf back)).getLast? := by
    rw [segmentOf, hms]
    exact Text.getLast?_trim_of_squeeze_eq (Segment.Draft.holds_after ms).text
  rw [lines_open]
  cases hdraft : Segment.beforeEachLine? (Segment.Draft.after ms).text.reverse with
  | none =>
    rw [hdraft] at hsegment
    rw [h.block hback hsegment hcolon (levelAfter ms), List.flatMap_cons, List.flatMap_nil,
      List.append_nil]
  | some before =>
    rw [hdraft] at hsegment
    have heach : ([Line.eachLine (levelAfter ms)]).flatMap Line.solid = [] := rfl
    rw [h.loop hback hsegment hdraft (levelAfter ms), List.flatMap_append, heach, List.append_nil]

/-- What any other stop keeps stands in the statement of the draft. -/
theorem keptBack_stop (h : Conserved back front d done) (hback : Span.Apart back (some c))
    (hdrop : keptBack (.code c :: back) = keptBack back) (level : Nat) :
    keptBack (.code c :: back) =
      ((statements level d.text.reverse).flatMap Line.solid).reverse ++ done.reverse := by
  rw [hdrop, h.kept, h.statement hback, List.reverse_reverse]

/-- A line break that continues no line is dropped alone. -/
theorem keptBack_lineBreak (h : ¬ Segment.continues (Span.marks 0 back.reverse).reverse = true) :
    keptBack (.code '\n' :: back) = keptBack back := by
  refine keptBack_break ?_ ?_
  · rintro r rfl
    obtain ⟨o, ho⟩ := exists_marks_cons (.code '\\') r
    refine h ?_
    rw [ho, List.reverse_append]
    rfl
  · rintro r rfl
    obtain ⟨o, ho⟩ := exists_marks_cons (.code '\r') (.code '\\' :: r)
    obtain ⟨o', ho'⟩ := exists_marks_cons (.code '\\') r
    refine h ?_
    rw [ho, ho', List.reverse_append, List.reverse_append]
    rfl

/-- **One more character of code** keeps the statements and the draft with the script. -/
theorem conserved_code {ms : List Mark} (hms : Span.marks 0 back.reverse = ms)
    (h : Conserved back front (.after ms) (emitted ms)) (hback : Span.Apart back (some c))
    (o : Nat) :
    ∃ front', Conserved (.code c :: back) front' (.after (ms ++ [⟨o, c, true⟩]))
      (emitted (ms ++ [⟨o, c, true⟩])) := by
  rw [Segment.Draft.after_concat, emitted_concat, Segment.Draft.next, Place.lines]
  have hstep := (Segment.Draft.after ms).step_read ⟨o, c, true⟩
  generalize (Segment.Draft.after ms).read ⟨o, c, true⟩ = r at hstep
  have hnil : emitted ms ++ List.flatMap Line.solid [] = emitted ms := List.append_nil _
  cases hstep with
  | openBrace => exact ⟨[], conserved_stop (keptBack_open hms h hback o)⟩
  | closeBrace =>
    have hdrop : keptBack (.code '}' :: back) = keptBack back := by
      rw [keptBack_other (by simp) (by simp), if_pos (by decide)]
    exact ⟨[], conserved_stop (keptBack_stop h hback hdrop (levelAfter ms))⟩
  | semicolon =>
    have hdrop : keptBack (.code ';' :: back) = keptBack back := by
      rw [keptBack_other (by simp) (by simp), if_pos (by decide)]
    exact ⟨[], conserved_stop (keptBack_stop h hback hdrop (levelAfter ms))⟩
  | lineBreak _ h₁ h₂ =>
    have hcont : ¬ Segment.continues ms.reverse = true := by
      rw [Segment.Draft.continues_iff_tail]
      exact fun h => h.elim h₁ h₂
    have hdrop := keptBack_lineBreak (hms ▸ hcont)
    exact ⟨[], conserved_stop (keptBack_stop h hback hdrop (levelAfter ms))⟩
  | join _ ht => rw [hnil]; exact h.join ht hback
  | joinReturn _ ht => rw [hnil]; exact h.joinReturn ht hback
  | slash =>
    rw [hnil]
    exact ⟨_, h.code (o := o) rfl (by decide) .slash (ends_slash _ _)⟩
  | slashReturn _ ht =>
    rw [hnil]
    obtain ⟨back', front', hb, hf⟩ := h.ends.slash ht
    refine ⟨_, h.code (o := o) rfl (by decide) .slashReturn ?_⟩
    rw [hb, hf]
    exact ends_slashReturn _ _
  | skip _ c hc ht => rw [hnil]; exact ⟨front, h.skip ht hc⟩
  | live _ c hs hn => rw [hnil]; exact ⟨_, h.code hs hn _ (ends_plain _ _)⟩

/-- **At each point of a script**, the statements and the draft hold what is kept of it so far. -/
theorem conserved (h : Span.Apart back next) (hclosed : ∀ f b, .literal f b false ∉ back) :
    ∃ front, Conserved back front (.after (Span.marks 0 back.reverse))
      (emitted (Span.marks 0 back.reverse)) := by
  induction back generalizing next with
  | nil => exact ⟨[], drafted_nil _, ends_plain _ _, by rw [keptBack]; rfl⟩
  | cons s back ih =>
    obtain ⟨front, hback⟩ := ih h.2 fun f b hl => hclosed f b (List.mem_cons_of_mem _ hl)
    obtain ⟨o, hmarks⟩ := exists_marks_cons s back
    rw [hmarks]
    cases hcode : s.isCode with
    | false =>
      have hs : ∀ f b, s ≠ .literal f b false := by
        rintro f b rfl
        exact hclosed f b List.mem_cons_self
      obtain ⟨c, t, ht, -⟩ := Span.exists_text_cons hcode
      obtain ⟨hafter, hemitted⟩ := after_stamp (Span.marks 0 back.reverse) o c t
      rw [ht, hafter, hemitted, ← ht]
      exact ⟨s :: front, hback.inert hcode hs⟩
    | true =>
      cases s with
      | code c => exact conserved_code rfl hback h.2 o
      | comment | literal => cases hcode

/-- The statements of a program hold what is kept of the spans of its script. -/
theorem kept_eq_solid {ss : List Span} (hss : Span.Separated ss)
    (hclosed : ∀ f b, .literal f b false ∉ ss) :
    kept ss = (programOf (Span.marks 0 ss)).lines.flatMap Line.solid := by
  have happart := hss.apart
  obtain ⟨front, h⟩ := conserved happart fun f b hl => hclosed f b (List.mem_reverse.1 hl)
  have hlast := h.statement happart (levelAfter (Span.marks 0 ss))
  rw [List.reverse_reverse] at h hlast
  rw [kept, h.kept, List.reverse_append, List.reverse_reverse, programOf, List.flatMap_append,
    hlast]
  rfl

/-! ### Characters and literals -/

/-- Marks without live blanks are spans without blank code. -/
theorem map_char_filter_marks (o : Nat) (ss : List Span) :
    ((Span.marks o ss).filter fun m => !(m.live && Text.isBlank m.char)).map Mark.char =
      (ss.filter fun s => !s.isBlank).flatMap Span.text := by
  induction ss generalizing o with
  | nil => rfl
  | cons s ss ih =>
    rw [Span.marks, List.filter_append, List.map_append, ih]
    cases hcode : s.isCode with
    | false =>
      have hsolid : s.isBlank = false := by
        cases s with
        | code c => cases hcode
        | comment | literal => rfl
      have hstamp : (stamp false o s.text).filter (fun m => !(m.live && Text.isBlank m.char)) =
          stamp false o s.text := by
        rw [List.filter_eq_self]
        intro m hm
        rw [live_of_mem_stamp hm, Bool.false_and, Bool.not_false]
      rw [hstamp, map_char_stamp, List.filter_cons_of_pos (by simp [hsolid]), List.flatMap_cons]
    | true =>
      cases s with
      | code c =>
        cases hc : Text.isBlank c <;> simp [stamp, Span.text, Span.isBlank, Span.isCodeOf, hc]
      | comment | literal => cases hcode

theorem flatMap_text_solid (l : Line) : l.solid.flatMap Span.text = l.content := by
  cases l with
  | eachLine level => rfl
  | statement level text =>
    rw [Line.content, (Scan.marks_start 0 text.toList).1, map_char_filter_marks]
    rfl

theorem filter_isLiteral_solid (l : Line) : l.solid.filter Span.isLiteral = l.literals := by
  cases l with
  | eachLine level => rfl
  | statement level text =>
    rw [Line.solid, Line.literals, List.filter_filter]
    congr 1
    funext s
    cases s <;> rfl

/-- **Every literal is kept**, as it is. -/
theorem filter_isLiteral_keptBack (h : Span.Apart back next) :
    (keptBack back).filter Span.isLiteral = back.filter Span.isLiteral := by
  fun_induction keptBack back generalizing next with
  | case1 back ih => exact ih h.2.2
  | case2 back ih => exact ih h.2.2.2
  | case3 back hloop ih =>
    obtain ⟨back', rfl⟩ := exists_word_of_endsInLoop h.2 hloop
    exact ih h.2.2.2
  | case4 back _ _ ih => exact ih h.2
  | case5 back _ _ ih => exact ih h.2
  | case6 s back _ _ _ hs ih =>
    have hlit : ¬ s.isLiteral = true := by
      cases s with
      | literal => cases hs
      | code | comment => simp [Span.isLiteral]
    rw [List.filter_cons_of_neg hlit]
    exact ih h.2
  | case7 s back _ _ _ hs ih =>
    cases s with
    | literal f body closed =>
      rw [List.filter_cons_of_pos (by rfl), List.filter_cons_of_pos (by rfl), ih h.2]
      rfl
    | code | comment => exact ih h.2
  | case8 => rfl

/-- What expands is scanned to its end. -/
theorem eq_programOf_of_expand {script : String} {p : Program} (h : expand script = .ok p) :
    p = programOf (Scan.marks .start 0 script.toList) ∧
      (Scan.endState .start 0 script.toList).finish = .ok () := by
  rw [expand, expandChars_eq_verdict] at h
  cases hfault : firstFault? (Scan.marks .start 0 script.toList) with
  | some e => rw [hfault] at h; cases h
  | none =>
    rw [hfault] at h
    cases hfinish : (Scan.endState .start 0 script.toList).finish with
    | error e => rw [hfinish] at h; cases h
    | ok u =>
      rw [hfinish] at h
      cases hopen : (openBlocks (Scan.marks .start 0 script.toList)).head? with
      | some q =>
        simp only [hopen] at h
        cases h
      | none =>
        simp only [hopen] at h
        exact ⟨(Except.ok.inj h).symm, rfl⟩

/-- No literal is open where a scan may stop. -/
theorem literal_false_not_mem {cs : List Char} (h : (Scan.endState .start 0 cs).finish = .ok ())
    (f : Fence) (b : List Char) : .literal f b false ∉ Span.ofText cs := by
  intro hl
  obtain ⟨before, after, hsplit⟩ := List.append_of_mem hl
  have hsep := Span.separated_ofText cs
  rw [hsplit, ← List.reverse_reverse before] at hsep
  -- nothing follows it
  obtain ⟨⟨-, hnone⟩, -⟩ := (Span.apart_of_separated hsep).2
  obtain rfl : after = [] := Span.flatMap_text_eq_nil (List.head?_eq_none_iff.1 hnone)
  have herror := Scan.finish_start.2 ⟨before, f, b, hsplit, rfl⟩
  rw [h] at herror
  cases herror

/-- **No code, literal or comment is lost, doubled, moved or changed.** What is kept of a script is
what its statements hold, character by character, and its literals are theirs, one by one. So each
literal stands in one statement, as it is written. -/
theorem content_conserved {script : String} {p : Program} (h : expand script = .ok p) :
    (kept (Span.ofText script.toList)).flatMap Span.text = p.lines.flatMap Line.content ∧
      (Span.ofText script.toList).filter Span.isLiteral = p.lines.flatMap Line.literals ∧
      ∀ s ∈ (Span.ofText script.toList).filter Span.isLiteral,
        ∃ level text, .statement level text ∈ p.lines ∧ s.text <:+: text.toList := by
  obtain ⟨rfl, hfinish⟩ := eq_programOf_of_expand h
  have hsep := Span.separated_ofText script.toList
  have hsolid := kept_eq_solid hsep (literal_false_not_mem hfinish)
  rw [← (Scan.marks_start 0 script.toList).1] at hsolid
  have hliterals : (Span.ofText script.toList).filter Span.isLiteral =
      (programOf (Scan.marks .start 0 script.toList)).lines.flatMap Line.literals := by
    have hkept : (kept (Span.ofText script.toList)).filter Span.isLiteral =
        (Span.ofText script.toList).filter Span.isLiteral := by
      rw [kept, List.filter_reverse, filter_isLiteral_keptBack hsep.apart, List.filter_reverse,
        List.reverse_reverse]
    rw [← hkept, hsolid, List.filter_flatMap]
    simp only [filter_isLiteral_solid]
  refine ⟨?_, hliterals, fun s hs => ?_⟩
  · rw [hsolid, List.flatMap_assoc]
    simp only [flatMap_text_solid]
  · rw [hliterals] at hs
    obtain ⟨l, hl, hs⟩ := List.mem_flatMap.1 hs
    cases l with
    | eachLine level => exact absurd hs List.not_mem_nil
    | statement level text =>
      exact ⟨level, text, hl, Span.text_infix_of_mem (List.mem_filter.1 hs).1⟩

/-- A header gets its colon, and the brace in the literal is kept. -/
theorem content_conserved_header :
    expand "if x \x7b y = '\x7d' \x7d # z " =
        .ok ⟨[.statement 0 "if x:", .statement 1 "y = '\x7d'", .statement 0 "# z"], true⟩ ∧
      (kept (Span.ofText "if x \x7b y = '\x7d' \x7d # z ".toList)).flatMap Span.text =
        "ifx:y='\x7d'# z".toList := by
  have hexpand : expand "if x \x7b y = '\x7d' \x7d # z " =
      .ok ⟨[.statement 0 "if x:", .statement 1 "y = '\x7d'", .statement 0 "# z"], true⟩ := by decide
  refine ⟨hexpand, (content_conserved hexpand).1.trans ?_⟩
  decide

end Braceline
