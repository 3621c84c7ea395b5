import Braceline.Proofs.Matching
import Braceline.Proofs.Sequence
import Braceline.Proofs.Skeleton

/-!
# The loop written out

The loop over the input lines stands for two blocks and three statements. Written out in full, it
ends the statement before it by a semicolon, opens the two blocks under their headers and ends with
the three statements, after which the body follows; a second brace then closes the second block.
Such a script makes the same physical lines.

* `reads_loopHead`: the pass over the head of the loop, written out.
* `exists_word_cut`: the script before the brace of a loop ends in the live word `EL`.
* `reads_inside`, `reads_swapped`: the body is read alike in the loop and in the two blocks, and so
  is what comes after it.
* `expand_writtenOut`: a script with a loop, and the script with the loop written out.
-/

namespace Braceline

/-- The head of the loop, written out, with the semicolon that ends the statement before it. -/
def loopHead : String :=
  ";with fileinput.input() as _EL\x7bfor (L, S) in enumerate(_EL)\x7b" ++
    "s = S.strip();F = s.split(DELIM);I = [toint(v) for v in F];"

/-- The lines of the loop's head, written out. -/
def Line.writtenOut (l : Nat) : List Line :=
  [.statement l "with fileinput.input() as _EL:",
    .statement (l + 1) "for (L, S) in enumerate(_EL):",
    .statement (l + 2) "s = S.strip()", .statement (l + 2) "F = s.split(DELIM)",
    .statement (l + 2) "I = [toint(v) for v in F]"]

variable {cs pre es body after : List Char} {q : Place} {ns : List Mark} {n : Nat}
  {x y y' : Expansion} {p P : Pass} {d : Segment.Draft} {b b' c : Block} {bs : List Block}

/-! ### The head of the loop -/

/-- The lines that are written out render as the head does. -/
theorem render_writtenOut (width l : Nat) :
    (Line.writtenOut l).flatMap (Line.render width) = Line.render width (.eachLine l) := rfl

theorem isEachLine_writtenOut (l : Nat) : (Line.writtenOut l).countP Line.isEachLine = 0 := rfl

/-- The texts that the head consists of. -/
theorem loopHead_eq (rest : List Char) :
    loopHead.toList ++ rest = ';' :: ("with fileinput.input() as _EL".toList ++
      '{' :: ("for (L, S) in enumerate(_EL)".toList ++ '{' :: ("s = S.strip()".toList ++
        ';' :: ("F = s.split(DELIM)".toList ++ ';' ::
          ("I = [toint(v) for v in F]".toList ++ ';' :: rest))))) := by
  have h : loopHead.toList = ';' :: ("with fileinput.input() as _EL".toList ++
      '{' :: ("for (L, S) in enumerate(_EL)".toList ++ '{' :: ("s = S.strip()".toList ++
        ';' :: ("F = s.split(DELIM)".toList ++ ';' ::
          ("I = [toint(v) for v in F]".toList ++ [';']))))) := by decide +kernel
  rw [h]
  simp only [List.cons_append, List.append_assoc, List.nil_append]

/-- A header of code, before its brace. -/
theorem reads_code_header {t : List Char} {k : Nat} {l : String}
    (ht : (∀ m ∈ Scan.marks .start 0 t, m.isStop = false) ∧ Scan.endState .start 0 t = .start)
    (hl : endsInLoop t = false ∧ t.all Text.isBlank = false) (hk : Text.byteSize t = k ∧
      String.ofList (Segment.withColon (Text.trim t)) = l) (hx : x.nesting.level + 1 ≤ maxLevel)
    (o : Nat) (rest : List Char) :
    Pass.reads ⟨x, .empty⟩ (Scan.marks .start o (t ++ '{' :: rest)) =
      Pass.reads ⟨⟨⟨⟨x.nesting.level + 1, o + k⟩ :: x.nesting.blocks⟩, x.looped,
        .statement x.nesting.level l :: x.lines⟩, .empty⟩
        (Scan.marks .start (o + k + 1) rest) := by
  obtain ⟨rfl, rfl⟩ := hk
  have hunbroken : Unbroken t := ⟨ht.1, by rw [ht.2]; rfl⟩
  exact Pass.reads_header_ok hunbroken (by rw [ht.2]; decide) hl.1 hl.2 hx o rest

/-- A statement of code, before its semicolon. -/
theorem reads_code_statement {t : String} {k : Nat}
    (ht : (∀ m ∈ Scan.marks .start 0 t.toList, m.isStop = false) ∧
      Scan.endState .start 0 t.toList = .start)
    (hk : Text.byteSize t.toList = k ∧ Text.trim t.toList = t.toList ∧ t.toList ≠ [])
    (x : Expansion) (o : Nat) (rest : List Char) :
    Pass.reads ⟨x, .empty⟩ (Scan.marks .start o (t.toList ++ ';' :: rest)) =
      Pass.reads ⟨⟨x.nesting, x.looped, .statement x.nesting.level t :: x.lines⟩, .empty⟩
        (Scan.marks .start (o + k + 1) rest) := by
  obtain ⟨rfl, htrim, hne⟩ := hk
  have hunbroken : Unbroken t.toList := ⟨ht.1, by rw [ht.2]; rfl⟩
  rw [Pass.reads_semicolon hunbroken (by rw [ht.2]; decide), emit_eq,
    statements_of_trim htrim hne]
  rfl

/-- The semicolon that ends the statement before the head. -/
theorem reads_first_semicolon (x : Expansion) (d : Segment.Draft) (o : Nat) (rest : List Char) :
    Pass.reads ⟨x, d⟩ (Scan.marks .start o (';' :: rest)) =
      Pass.reads ⟨x.emit d.text.reverse, .empty⟩ (Scan.marks .start (o + 1) rest) := by
  rw [Scan.marks_cons, Pass.reads_cons, Pass.read_of_statement rfl (.inl rfl)]
  rfl

/-- **The head of the loop, written out**, ends the statement before it, opens two blocks and makes
its five lines. -/
theorem reads_loopHead (hx : x.nesting.level + 2 ≤ maxLevel) (d : Segment.Draft) (o : Nat)
    (rest : List Char) :
    ∃ b c : Block, b.level = x.nesting.level + 2 ∧
      Pass.reads ⟨x, d⟩ (Scan.marks .start o (loopHead.toList ++ rest)) =
        Pass.reads ⟨⟨⟨b :: c :: x.nesting.blocks⟩, x.looped,
          (Line.writtenOut x.nesting.level).reverse ++ (x.emit d.text.reverse).lines⟩, .empty⟩
          (Scan.marks .start (o + 119) rest) := by
  have hlevel := nesting_emit x d.text.reverse
  have hlooped := looped_emit x d.text.reverse
  refine ⟨⟨x.nesting.level + 1 + 1, o + 1 + 29 + 1 + 28⟩,
    ⟨x.nesting.level + 1, o + 1 + 29⟩, rfl, ?_⟩
  rw [loopHead_eq, reads_first_semicolon]
  generalize x.emit d.text.reverse = y at *
  obtain ⟨n, l, ls⟩ := y
  simp only at hlevel hlooped
  subst hlevel hlooped
  rw [reads_code_header (k := 29) (l := "with fileinput.input() as _EL:") (by decide +kernel)
      (by decide +kernel) (by decide +kernel) (by simp only; omega),
    reads_code_header (k := 28) (l := "for (L, S) in enumerate(_EL):") (by decide +kernel)
      (by decide +kernel) (by decide +kernel) (by rw [Nesting.level_cons]; omega),
    reads_code_statement (k := 13) (by decide +kernel) (by decide +kernel),
    reads_code_statement (k := 18) (by decide +kernel) (by decide +kernel),
    reads_code_statement (k := 25) (by decide +kernel) (by decide +kernel)]
  simp only [Nesting.level_cons, Nat.add_assoc, Nat.reduceAdd]
  rfl

/-- The scan stands as it starts after the head. -/
theorem endState_loopHead (o : Nat) (rest : List Char) :
    Scan.endState .start o (loopHead.toList ++ rest) = Scan.endState .start (o + 119) rest := by
  have hcut : loopHead.toList = loopHead.toList.dropLast ++ [';'] := by decide +kernel
  have hcode : Scan.endState .start 0 loopHead.toList.dropLast = .start := by decide +kernel
  have hsize : Text.byteSize loopHead.toList.dropLast = 118 := by decide +kernel
  have hcode' := Scan.endState_start_of hcode o
  rw [hcut, List.append_assoc, List.singleton_append,
    Scan.endState_cut (by rw [hcode']; rfl), hsize]
  rfl

/-! ### The word of the loop -/

/-- The word before a live brace is live. -/
theorem exists_letters {back : List Mark} {sk : List (Option Char)}
    (h : Written (⟨n, '{', true⟩ :: back) sk)
    (hl : endsInLoop (Segment.textBack back).reverse = true) :
    ∃ o o' rest, back = ⟨o, 'L', true⟩ :: ⟨o', 'E', true⟩ :: rest := by
  have hL : Text.isWordChar 'L' = true := by decide +kernel
  have hE : Text.isWordChar 'E' = true := by decide +kernel
  obtain ⟨_, -, hback, hsettled⟩ := h.of_live
  rw [endsInLoop_reverse] at hl
  obtain ⟨before, hbefore⟩ := Option.isSome_iff_exists.1 hl
  have htext := Segment.eq_cons_of_beforeEachLine? hbefore
  obtain ⟨o, rest, rfl, hrest⟩ := live_of_textBack_word (hsettled (by decide)) hL htext
  obtain ⟨o', rest', rfl, -⟩ := live_of_textBack_word (hback.settled hL) hE hrest
  exact ⟨o, o', rest', rfl⟩

/-- **The script before the brace of a loop** ends in the live word `EL`, and what stands before the
word ends in code. -/
theorem exists_word_cut (hms : Scan.marks .start 0 cs = q.before ++ q.mark :: ns)
    (hl : q.isLoop = true) :
    ∃ pre es, cs = pre ++ 'E' :: 'L' :: '{' :: es ∧ Scan.endState .start 0 pre = .start ∧
      q.before = Scan.marks .start 0 pre ++
        [⟨Text.byteSize pre, 'E', true⟩, ⟨Text.byteSize pre + 1, 'L', true⟩] ∧
      q.mark = ⟨Text.byteSize pre + 2, '{', true⟩ ∧
      ns = Scan.marks .start (Text.byteSize pre + 3) es := by
  obtain ⟨back, ⟨n, a, live⟩⟩ := q
  obtain ⟨hbrace, hword⟩ := Bool.and_eq_true_iff.1 hl
  obtain ⟨rfl, ha⟩ : live = true ∧ (a == '{') = true := Bool.and_eq_true_iff.1 hbrace
  obtain rfl : a = '{' := eq_of_beq ha
  obtain ⟨ds, es, rfl, rfl, hlive, rfl, rfl⟩ := Scan.exists_cut hms
  have hds : Scan.endState .start 0 ds = .start := Scan.eq_start_of_live hlive (by decide)
  -- the marks up to the brace are written as a scan makes them
  have hwritten := written_marks (ds ++ ['{'])
  rw [Scan.marks_cut (by rw [hds]; rfl), Scan.marks_nil, List.reverse_concat] at hwritten
  obtain ⟨o, o', rest, hrest⟩ := exists_letters hwritten hword
  -- so the text is cut at the two letters
  have hmarks : Scan.marks .start 0 ds = rest.reverse ++ ⟨o', 'E', true⟩ :: [⟨o, 'L', true⟩] := by
    rw [← List.reverse_reverse (Scan.marks .start 0 ds), hrest]
    simp
  obtain ⟨pre, ls, rfl, rfl, hliveE, -, hls⟩ := Scan.exists_cut hmarks
  obtain rfl : ls = ['L'] := by
    cases ls with
    | nil => cases hls
    | cons a ls =>
      rw [Scan.marks_cons] at hls
      obtain ⟨ha, hnil⟩ := List.cons.inj hls
      obtain rfl : a = 'L' := (Mark.mk.inj ha).2.1.symm
      cases ls with
      | nil => rfl
      | cons => cases hnil
  have hpre : Scan.endState .start 0 pre = .start := Scan.eq_start_of_live hliveE (by decide)
  have hsize : 0 + Text.byteSize (pre ++ ['E', 'L']) = Text.byteSize pre + 2 := by
    rw [Text.byteSize_append, Nat.zero_add]
    rfl
  refine ⟨pre, es, by simp, hpre, ?_, ?_, ?_⟩
  · rw [Scan.marks_cut hliveE, Nat.zero_add]
    rfl
  · rw [hsize]
  · rw [hsize]
    rfl

/-- **The pass up to the body of the loop.** The statement before its word is made first. -/
theorem reads_word (hq : q.before = Scan.marks .start 0 pre ++
      [⟨Text.byteSize pre, 'E', true⟩, ⟨Text.byteSize pre + 1, 'L', true⟩])
    (hmark : q.mark = ⟨n, '{', true⟩) (hl : q.isLoop = true)
    (hp : Pass.start.reads (q.before ++ q.mark :: ns) = .ok P) :
    ∃ x d, Pass.start.reads (Scan.marks .start 0 pre) = .ok ⟨x, d⟩ ∧ x.looped = false ∧
      x.nesting.level + 2 ≤ maxLevel ∧ Pass.start.reads (q.before ++ [q.mark]) =
        .ok ⟨⟨⟨⟨x.nesting.level + 2, n⟩ :: x.nesting.blocks⟩, true,
          .eachLine x.nesting.level :: (x.emit d.text.reverse).lines⟩, .empty⟩ := by
  obtain ⟨p₂, hp₂, hrest⟩ := Pass.exists_of_reads_append hp
  obtain ⟨p₃, hp₃, -⟩ := Pass.exists_of_reads_cons hrest
  have hbefore := hp₂
  rw [hq] at hbefore
  obtain ⟨⟨x, d⟩, hx, hword⟩ := Pass.exists_of_reads_append hbefore
  obtain rfl : p₂ = ⟨x, ⟨'L' :: 'E' :: d.text, .plain⟩⟩ := (Except.ok.inj hword).symm
  have hordered := Pass.ordered_of_reads Pass.ordered_empty hp₂
  have hstep := Pass.step_of_read hp₃
  -- the draft ends in the word, since the place opens the loop
  have hdraft : Segment.Draft.after q.before = ⟨'L' :: 'E' :: d.text, .plain⟩ :=
    (congrArg Pass.draft (Pass.eq_after_of_reads hp₂)).symm
  have hsome := isLoop_open q.before n
  rw [← hmark, hl, hdraft, Segment.beforeEachLine?_reverse] at hsome
  have hall : Pass.start.reads (q.before ++ [q.mark]) = .ok p₃ := by
    rw [Pass.reads_concat, hp₂]
    exact hp₃
  rw [hmark] at hstep
  cases hstep with
  | draft hd => cases hd
  | statement hd hs => rcases hs with rfl | rfl <;> cases hd
  | block o hnone =>
    rw [Segment.beforeEachLine?_reverse] at hnone
    rw [hnone] at hsome
    cases hsome
  | @loop _ _ o before hloop hn hm =>
    rw [Segment.beforeEachLine?_reverse] at hloop
    split at hloop
    · cases hloop
    · obtain rfl := Option.some.inj hloop
      exact ⟨x, d, hx, hn, hm, hall⟩

/-! ### The body of the loop and what follows -/

/-- The footings of two expansions that stand at one level, above what they have made. -/
def Footing.swapped (n n' : Nesting) (ls ls' : List Line) (shift : Nat) (h : n'.level = n.level) :
    Footing := ⟨0, shift, n.blocks, n'.blocks, ls, ls', false, h⟩

/-- **A body is read alike** in blocks of one level, if it stays inside of them. -/
theorem reads_inside {ms : List Mark} (hy : y.nesting.Ordered)
    (hlevel : y'.nesting.level = y.nesting.level) (hlooped : y'.looped = false)
    (hp : Pass.reads ⟨y, .empty⟩ ms = .ok p) (hs : surplus ms = 0)
    (hn : p.expansion.nesting = y.nesting) (shift : Nat) :
    ∃ p', Pass.reads ⟨y', .empty⟩ (ms.map (Mark.moved shift)) = .ok p' ∧
      p'.expansion.nesting = y'.nesting ∧
      Pass.Above (.swapped y.nesting y'.nesting y.lines y'.lines shift hlevel) p p' := by
  have habove : Pass.Above (.swapped y.nesting y'.nesting y.lines y'.lines shift hlevel)
      ⟨y, .empty⟩ ⟨y', .empty⟩ := by
    refine ⟨⟨⟨[], [], rfl, rfl, rfl⟩, ⟨[], rfl, rfl⟩, Bool.noConfusion, fun h => ?_⟩, rfl⟩
    rw [hlooped] at h
    cases h
  have hdeep := Pass.deepest_le (p := ⟨y, .empty⟩) hy hp
  have hstay : surplus ms + y.nesting.blocks.length ≤ y.nesting.depth := by
    rw [hs, Nat.zero_add, Nesting.depth]
  obtain ⟨p', hp', habove'⟩ := Pass.reads_above habove hy hp hdeep hstay Bool.noConfusion
  have hblocks := habove'.expansion.blocks_eq (congrArg Nesting.blocks hn)
  exact ⟨p', hp', congrArg Nesting.mk hblocks, habove'⟩

/-- A body that ends in code, and the brace after it. -/
theorem marks_body (hbody : Scan.endState .start 0 body = .start) (o : Nat) (after : List Char) :
    Scan.marks .start o (body ++ '}' :: after) = Scan.marks .start o body ++
      ⟨o + Text.byteSize body, '}', true⟩ ::
        Scan.marks .start (o + Text.byteSize body + 1) after :=
  Scan.marks_cut (by rw [Scan.endState_start_of hbody]; rfl)

/-- **What follows is read alike** after it, too, with the block closed here and both blocks
there. -/
theorem reads_swapped (y' : Expansion) (hbody : Scan.endState .start 0 body = .start)
    (hy : y.nesting = ⟨b :: bs⟩) (hordered : y.nesting.Ordered) (hy' : y'.nesting = ⟨b' :: c :: bs⟩)
    (hlevel : b'.level = b.level) (hlooped : y'.looped = false)
    (hp : Pass.reads ⟨y, .empty⟩ (Scan.marks .start n body) = .ok p)
    (hs : surplus (Scan.marks .start n body) = 0) (hn : p.expansion.nesting = y.nesting)
    (hP : Pass.reads ⟨y, .empty⟩ (Scan.marks .start n (body ++ '}' :: after)) = .ok P)
    (hnP : P.expansion.nesting = .empty) (k : Nat) :
    ∃ P', Pass.reads ⟨y', .empty⟩
        (Scan.marks .start (n + k) (body ++ '}' :: '}' :: after)) = .ok P' ∧
      P'.expansion.nesting = .empty ∧
      ∃ ls, P.ended.lines = ls ++ y.lines ∧ P'.ended.lines = ls ++ y'.lines := by
  have hlevels : y'.nesting.level = y.nesting.level := by
    rw [hy, hy', Nesting.level_cons, Nesting.level_cons, hlevel]
  obtain ⟨p', hp', hn', habove⟩ := reads_inside hordered hlevels hlooped hp hs hn k
  have hmarks' : Scan.marks .start (n + k) (body ++ '}' :: '}' :: after) =
      (Scan.marks .start n body).map (Mark.moved k) ++
        ⟨n + k + Text.byteSize body, '}', true⟩ :: ⟨n + k + Text.byteSize body + 1, '}', true⟩ ::
          (Scan.marks .start (n + Text.byteSize body + 1) after).map (Mark.moved (k + 1)) := by
    have hoffset : n + k + Text.byteSize body + 1 + 1 = n + Text.byteSize body + 1 + (k + 1) := by
      omega
    rw [marks_body hbody, ← Scan.marks_moved, ← Scan.marks_moved, ← hoffset]
    rfl
  have hclosed (o : Nat) : p.read ⟨o, '}', true⟩ =
      .ok ⟨{ p.ended with nesting := ⟨bs⟩ }, .empty⟩ :=
    Pass.read_close_ok (by rw [hn, hy]) o
  have hclosed' (o o' : Nat) (ms : List Mark) :
      p'.reads (⟨o, '}', true⟩ :: ⟨o', '}', true⟩ :: ms) =
        Pass.reads ⟨{ p'.ended with nesting := ⟨bs⟩ }, .empty⟩ ms := by
    rw [Pass.reads_cons, Pass.read_close_ok (by rw [hn', hy'])]
    rfl
  rw [marks_body hbody, Pass.reads_append_ok hp, Pass.reads_cons, hclosed] at hP
  have habove' : Pass.Above (.swapped .empty .empty y.lines y'.lines (k + 1) rfl)
      ⟨{ p.ended with nesting := ⟨bs⟩ }, .empty⟩ ⟨{ p'.ended with nesting := ⟨bs⟩ }, .empty⟩ :=
    ⟨⟨⟨bs, bs, (List.append_nil bs).symm, (List.append_nil bs).symm, rfl⟩, habove.ended.lines,
      Bool.noConfusion, habove.ended.of_looped⟩, rfl⟩
  have hordered' : (⟨bs⟩ : Nesting).Ordered := Pass.ordered_of_cons hordered (by rw [hy])
  have hdeep := Pass.deepest_le (p := ⟨{ p.ended with nesting := ⟨bs⟩ }, .empty⟩) hordered' hP
  have hstay := Pass.surplus_le_depth (p := ⟨{ p.ended with nesting := ⟨bs⟩ }, .empty⟩) hordered' hP
  obtain ⟨P', hP', hlast⟩ := Pass.reads_above habove' hordered' hP hdeep hstay Bool.noConfusion
  refine ⟨P', ?_, ?_, ?_⟩
  · rw [hmarks', Pass.reads_append_ok hp', hclosed']
    exact hP'
  · exact congrArg Nesting.mk (hlast.expansion.blocks_eq (congrArg Nesting.blocks hnP))
  · obtain ⟨ls, hls, hls'⟩ := hlast.ended.lines
    exact ⟨ls, hls, by rw [hls']; simp only [Footing.swapped, map_raised_zero]⟩

/-! ### The loop written out -/

/-- Lines with the head of the loop render as they do with the head written out. -/
theorem renderLines_writtenOut (before after : List Line) (l width : Nat) (b b' : Bool) :
    Program.renderLines ⟨(after ++ ((Line.writtenOut l).reverse ++ before)).reverse, b⟩ width =
      Program.renderLines ⟨(after ++ .eachLine l :: before).reverse, b'⟩ width := by
  have hlines : (after ++ ((Line.writtenOut l).reverse ++ before)).reverse =
      before.reverse ++ Line.writtenOut l ++ after.reverse := by simp
  have hlines' : (after ++ .eachLine l :: before).reverse =
      before.reverse ++ [.eachLine l] ++ after.reverse := by simp
  rw [hlines, hlines', Program.renderLines, Program.renderLines]
  simp only [List.flatMap_append, render_writtenOut, List.flatMap_singleton]

/-- With its only head written out, a program loops no more. -/
theorem hasEachLine_writtenOut {before after : List Line} {l : Nat}
    (h : (after ++ .eachLine l :: before).countP Line.isEachLine ≤ 1) (b : Bool) :
    Program.hasEachLine ⟨(after ++ ((Line.writtenOut l).reverse ++ before)).reverse, b⟩ =
      false := by
  have hcount : (after ++ ((Line.writtenOut l).reverse ++ before)).countP Line.isEachLine = 0 := by
    rw [List.countP_append, List.countP_cons_of_pos rfl] at h
    rw [List.countP_append, List.countP_append, List.countP_reverse, isEachLine_writtenOut]
    omega
  rw [Program.hasEachLine, List.any_reverse, List.any_eq_false]
  exact List.countP_eq_zero.1 hcount

/-- The scans of both scripts end alike. -/
theorem finish_writtenOut (hpre : Scan.endState .start 0 pre = .start)
    (hbody : Scan.endState .start 0 body = .start)
    (h : (Scan.endState .start 0 (pre ++ 'E' :: 'L' :: '{' :: (body ++ '}' :: after))).finish =
      .ok ()) :
    (Scan.endState .start 0 (pre ++ (loopHead.toList ++ (body ++ '}' :: '}' :: after)))).finish =
      .ok () := by
  have hbody' := Scan.endState_start_of hbody
  have hend (o : Nat) : Scan.endState .start o (body ++ '}' :: after) =
      Scan.endState .start (o + Text.byteSize body + 1) after :=
    Scan.endState_cut (by rw [hbody' o]; rfl)
  have hend' (o : Nat) : Scan.endState .start o (body ++ '}' :: '}' :: after) =
      Scan.endState .start (o + Text.byteSize body + 1 + 1) after := by
    have hlive : ((Scan.endState .start o body).step (o + Text.byteSize body) '}'
        ('}' :: after)).2 = true := by
      rw [hbody' o]
      rfl
    rw [Scan.endState_cut hlive, Scan.endState_cons]
    rfl
  have hword : Scan.endState .start 0 (pre ++ 'E' :: 'L' :: '{' :: (body ++ '}' :: after)) =
      Scan.endState .start (Text.byteSize pre + 3 + Text.byteSize body + 1) after := by
    rw [Scan.endState_cut (by rw [hpre]; rfl), Nat.zero_add, ← hend, Scan.endState_cons,
      Scan.endState_cons]
    rfl
  have hhead : Scan.endState .start 0 (pre ++ (loopHead.toList ++ (body ++ '}' :: '}' :: after))) =
      Scan.endState .start (Text.byteSize pre + 119 + Text.byteSize body + 1 + 1) after := by
    rw [Scan.endState_append (by simp [loopHead_eq, Quote.ofChar?]), hpre, endState_loopHead, hend',
      Nat.zero_add]
  have hoffset : Text.byteSize pre + 119 + Text.byteSize body + 1 + 1 =
      Text.byteSize pre + 3 + Text.byteSize body + 1 + 117 := by omega
  have hmoved := Scan.endState_moved 117 .start
    (Text.byteSize pre + 3 + Text.byteSize body + 1) after
  rw [hword] at h
  rw [hhead, hoffset]
  exact (congrArg Scan.State.finish hmoved).trans (finish_moved 117 _ h)

/-- **A text with a loop** between its two braces, and the text with the loop written out. -/
theorem expandChars_writtenOut {p : Program} {ms : List Mark}
    (h : expandChars (pre ++ 'E' :: 'L' :: '{' :: (body ++ '}' :: after)) = .ok p)
    (hpre : Scan.endState .start 0 pre = .start) (hbody : Scan.endState .start 0 body = .start)
    (hq : q.before = Scan.marks .start 0 pre ++
      [⟨Text.byteSize pre, 'E', true⟩, ⟨Text.byteSize pre + 1, 'L', true⟩])
    (hmark : q.mark = ⟨Text.byteSize pre + 2, '{', true⟩) (hl : q.isLoop = true)
    (hms : ms = Scan.marks .start (Text.byteSize pre + 3) body) (hs : surplus ms = 0)
    (hopen : openBlocks (q.before ++ q.mark :: ms) = openBlocks (q.before ++ [q.mark])) :
    ∃ p', expandChars (pre ++ (loopHead.toList ++ (body ++ '}' :: '}' :: after))) = .ok p' ∧
      p'.hasEachLine = false ∧ ∀ width, p'.renderLines width = p.renderLines width := by
  obtain ⟨P, hP, hfinish, hnP, rfl⟩ := expandChars_eq_ok_iff.1 h
  have hmarks : Scan.marks .start 0 (pre ++ 'E' :: 'L' :: '{' :: (body ++ '}' :: after)) =
      q.before ++ q.mark ::
        Scan.marks .start (Text.byteSize pre + 3) (body ++ '}' :: after) := by
    rw [Scan.marks_cut (by rw [hpre]; rfl), Nat.zero_add, hq, hmark, List.append_assoc]
    rfl
  have hP' := hP
  rw [hmarks] at hP'
  obtain ⟨x, d, hx, hnot, hlevel, hloop⟩ := reads_word hq hmark hl hP'
  -- the pass from the body on, and the pass at its end
  have hrest := hP'
  rw [← List.singleton_append, ← List.append_assoc, Pass.reads_append_ok hloop] at hrest
  have hinside := hrest
  rw [marks_body hbody, ← hms] at hinside
  obtain ⟨p, hp, -⟩ := Pass.exists_of_reads_append hinside
  have hall : Pass.start.reads (q.before ++ q.mark :: ms) = .ok p := by
    rw [← List.singleton_append, ← List.append_assoc, Pass.reads_append_ok hloop]
    exact hp
  have hordered := Pass.ordered_of_reads Pass.ordered_empty hloop
  have hsame : p.expansion.nesting =
      ⟨⟨x.nesting.level + 2, Text.byteSize pre + 2⟩ :: x.nesting.blocks⟩ := by
    rw [Pass.nesting_of_reads hall, hopen]
    exact (Pass.nesting_of_reads hloop).symm
  obtain ⟨b, c, hb, hhead⟩ := reads_loopHead hlevel d (Text.byteSize pre)
    (body ++ '}' :: '}' :: after)
  rw [hms] at hp hs
  obtain ⟨P', hlast, hnP', ls, hls, hls'⟩ := reads_swapped
    ⟨⟨b :: c :: x.nesting.blocks⟩, x.looped,
      (Line.writtenOut x.nesting.level).reverse ++ (x.emit d.text.reverse).lines⟩
    hbody rfl hordered rfl hb hnot hp hs hsame hrest hnP 116
  have hcount := countP_isEachLine_le hP
  refine ⟨_, expandChars_eq_ok_iff.2 ⟨P', ?_, ?_, hnP', rfl⟩, ?_, fun width => ?_⟩
  · rw [Scan.marks_append (by simp [loopHead_eq, Quote.ofChar?]), hpre, Pass.reads_append_ok hx,
      Nat.zero_add, hhead, show Text.byteSize pre + 119 = Text.byteSize pre + 3 + 116 by omega]
    exact hlast
  · exact finish_writtenOut hpre hbody hfinish
  · rw [hls] at hcount
    rw [hls']
    exact hasEachLine_writtenOut hcount _
  · rw [hls, hls']
    exact renderLines_writtenOut _ _ _ width _ _

/-- Where no block is open at the end, every brace has been closed. -/
theorem openBlocks_eq_nil_of_reads {ms : List Mark} (h : Pass.start.reads ms = .ok P)
    (hn : P.expansion.nesting = .empty) : openBlocks ms = [] := by
  rw [Pass.nesting_of_reads h] at hn
  cases hopen : (openBlocks ms).reverse with
  | nil => exact List.reverse_eq_nil_iff.1 hopen
  | cons a as =>
    rw [hopen] at hn
    cases hn

/-- **The brace that closes a block** cuts what follows the brace that opens it. The body before it
ends in code and closes all blocks of its own. -/
theorem exists_body_cut {r : Place}
    (hr : r ∈ places (q.before ++ q.mark :: Scan.marks .start n es)) (hq : q.mark.is '{' = true)
    (h : r.Closes q) :
    ∃ body after, es = body ++ '}' :: after ∧ r.mark.offset = n + Text.byteSize body ∧
      Scan.endState .start 0 body = .start ∧ surplus (Scan.marks .start n body) = 0 ∧
      openBlocks (q.before ++ q.mark :: Scan.marks .start n body) =
        openBlocks (q.before ++ [q.mark]) := by
  obtain ⟨ms, hbefore, hs, hopen⟩ := exists_of_closes h
  obtain ⟨ns, hms⟩ := mem_places.1 hr
  obtain ⟨rb, ⟨o, a, live⟩⟩ := r
  obtain ⟨rfl, ha⟩ : live = true ∧ (a == '}') = true := Bool.and_eq_true_iff.1 h.1
  obtain rfl : a = '}' := eq_of_beq ha
  simp only at hbefore hopen
  rw [hbefore, List.append_assoc, List.cons_append] at hms
  have hrest : Scan.marks .start n es = ms ++ ⟨o, '}', true⟩ :: ns :=
    (List.cons.inj (List.append_cancel_left hms)).2
  obtain ⟨body, after, rfl, rfl, hlive, rfl, -⟩ := Scan.exists_cut hrest
  have hbody := Scan.endState_start_of (Scan.eq_start_of_live hlive (by decide)) 0
  refine ⟨body, after, rfl, rfl, hbody, hs, ?_⟩
  rw [← hbefore, hopen, openBlocks_concat_open _ hq]

/-- **The loop means what is written out for it.** A brace that opens the loop stands right after
the word `EL`, and a brace closes it. Put the written-out head for the word and its brace, and two
braces for the one that closes: the script still expands, it has no loop, and it renders to the same
physical lines. -/
theorem expand_writtenOut {script : String} {p : Program} {q : Place} (h : expand script = .ok p)
    (hq : q ∈ places (Scan.marks .start 0 script.toList)) (hl : q.isLoop = true) :
    (∃ r ∈ places (Scan.marks .start 0 script.toList), r.Closes q) ∧
      ∀ r ∈ places (Scan.marks .start 0 script.toList), r.Closes q →
        ∃ before body after : String, script = before ++ "EL\x7b" ++ body ++ "\x7d" ++ after ∧
          q.mark.offset = before.utf8ByteSize + 2 ∧
          r.mark.offset = (before ++ "EL\x7b" ++ body).utf8ByteSize ∧
          ∃ p', expand (before ++ loopHead ++ body ++ "\x7d\x7d" ++ after) = .ok p' ∧
            p'.hasEachLine = false ∧ ∀ width, p'.renderLines width = p.renderLines width := by
  obtain ⟨P, hP, -, hnP, -⟩ := expandChars_eq_ok_iff.1 h
  obtain ⟨ns, hms⟩ := mem_places.1 hq
  obtain ⟨pre, es, hcs, hpre, hbefore, hmark, hns⟩ := exists_word_cut hms hl
  have hbrace : q.mark.is '{' = true := (Bool.and_eq_true_iff.1 hl).1
  refine ⟨?_, fun r hr hcloses => ?_⟩
  · have hnone := openBlocks_eq_nil_of_reads hP hnP
    rw [hms] at hnone ⊢
    exact exists_closes hbrace (by rw [hnone]; exact List.not_mem_nil)
  · rw [hms, hns] at hr
    obtain ⟨body, after, rfl, hoffset, hbody, hs, hsame⟩ := exists_body_cut hr hbrace hcloses
    have hexpand : expandChars (pre ++ 'E' :: 'L' :: '{' :: (body ++ '}' :: after)) = .ok p := by
      rw [← hcs]
      exact h
    obtain ⟨p', hp', hloop, hlines⟩ :=
      expandChars_writtenOut hexpand hpre hbody hbefore hmark hl rfl hs hsame
    refine ⟨String.ofList pre, String.ofList body, String.ofList after, ?_, ?_, ?_, p', ?_, hloop,
      hlines⟩
    · refine String.toList_inj.1 ?_
      rw [hcs]
      simp
    · rw [hmark]
      rfl
    · rw [hoffset]
      simp only [String.utf8ByteSize_append]
      rfl
    · have htext : (String.ofList pre ++ loopHead ++ String.ofList body ++ "\x7d\x7d" ++
          String.ofList after).toList =
            pre ++ (loopHead.toList ++ (body ++ '}' :: '}' :: after)) := by simp
      rw [expand, htext]
      exact hp'

/-- A loop in a block, written out. -/
theorem expand_writtenOut_in_block :
    expand "if a\x7bEL\x7bp\x7d\x7d" =
        .ok ⟨[.statement 0 "if a:", .eachLine 1, .statement 3 "p"], true⟩ ∧
      ∃ q ∈ places (Scan.marks .start 0 "if a\x7bEL\x7bp\x7d\x7d".toList), q.isLoop = true ∧
        ∃ before body after : String, "if a\x7bEL\x7bp\x7d\x7d" =
            before ++ "EL\x7b" ++ body ++ "\x7d" ++ after ∧ before.utf8ByteSize = 5 ∧
          ∃ p', expand (before ++ loopHead ++ body ++ "\x7d\x7d" ++ after) = .ok p' ∧
            p'.hasEachLine = false := by
  have h : expand "if a\x7bEL\x7bp\x7d\x7d" =
      .ok ⟨[.statement 0 "if a:", .eachLine 1, .statement 3 "p"], true⟩ := by decide
  obtain ⟨q, hq, hl, ho⟩ : ∃ q ∈ places (Scan.marks .start 0 "if a\x7bEL\x7bp\x7d\x7d".toList),
      q.isLoop = true ∧ q.mark.offset = 7 := by decide
  obtain ⟨⟨r, hr, hcloses⟩, hall⟩ := expand_writtenOut h hq hl
  obtain ⟨before, body, after, hscript, hbefore, -, p', hp', hloop, -⟩ := hall r hr hcloses
  exact ⟨h, q, hq, hl, before, body, after, hscript, by omega, p', hp', hloop⟩

end Braceline
