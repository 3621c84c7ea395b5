import Braceline.Proofs.Statement

/-!
# One script after another

A semicolon after a script ends its last statement, and so does a line break. What follows is then
read as if it stood alone: no quote is owed, no block is open and no text is in the draft. The one
thing that is left of the first script is whether it has opened the loop.

* `reads_divided`: the pass over two texts with such a character between them.
* `expandChars_divided`: the lines of both, unless both open the loop.
* `expand_followedBy`: so it is with a semicolon, and with a line break that continues no line.
-/

namespace Braceline

/-- **What two programs come to**, one after the other, if the second opens its loop at `brace`. -/
def Program.followedBy (p q : Program) (structural : Bool) (brace : Nat) :
    Except ScriptError Program :=
  if p.hasEachLine && q.hasEachLine then .error (.repeatedEachLine brace)
  else .ok ⟨p.lines ++ q.lines, structural⟩

/-- A character of one byte that is live between the two texts and ends the statement before it. -/
structure Divides (c : Char) (cs ds : List Char) : Prop where
  width : c.utf8Size = 1
  live : ((Scan.endState .start 0 cs).step (0 + Text.byteSize cs) c ds).2 = true
  stop : ∃ stop, (Segment.Draft.after (Scan.marks .start 0 cs)).read
    ⟨0 + Text.byteSize cs, c, true⟩ = .inr stop ∧ (stop = .semicolon ∨ stop = .lineBreak)

/-- The footing of what is read after a script that has made `x`. -/
def Footing.following (x : Expansion) (shift : Nat) : Footing :=
  ⟨0, shift, [], [], [], x.lines, x.looped, rfl⟩

variable {c : Char} {cs ds : List Char} {p q : Pass} {x : Expansion} {pa pb : Program} {k : Nat}
  {r : Place} {ms : List Mark}

/-! ### What divides two scripts -/

theorem divides_semicolon (hfinish : (Scan.endState .start 0 cs).finish = .ok ())
    (hmode : (Scan.endState .start 0 cs).mode ≠ .comment) (ds : List Char) :
    Divides ';' cs ds where
  width := rfl
  live := by
    rw [Scan.endState_eq_start hfinish hmode]
    rfl
  stop := ⟨.semicolon, rfl, .inl rfl⟩

theorem divides_newline (hfinish : (Scan.endState .start 0 cs).finish = .ok ())
    (hcont : Segment.continues (Scan.marks .start 0 cs).reverse = false) (ds : List Char) :
    Divides '\n' cs ds where
  width := rfl
  live := by rw [Scan.step_newline hfinish]
  stop := ⟨.lineBreak, Segment.Draft.read_lineBreak hcont _, .inr rfl⟩

/-- The marks of both texts, those of the second further on. -/
theorem marks_divided (h : Divides c cs ds) :
    Scan.marks .start 0 (cs ++ c :: ds) = Scan.marks .start 0 cs ++
      ⟨Text.byteSize cs, c, true⟩ ::
        (Scan.marks .start 0 ds).map (Mark.moved (Text.byteSize cs + 1)) := by
  rw [Scan.marks_cut h.live, h.width, Nat.zero_add, ← Scan.marks_start_at]

/-- **The pass over both texts** reads the second one after the statements of the first. -/
theorem reads_divided (h : Divides c cs ds)
    (hp : Pass.start.reads (Scan.marks .start 0 cs) = .ok p) :
    Pass.start.reads (Scan.marks .start 0 (cs ++ c :: ds)) = Pass.reads ⟨p.ended, .empty⟩
      ((Scan.marks .start 0 ds).map (Mark.moved (Text.byteSize cs + 1))) := by
  obtain ⟨stop, hread, hstop⟩ := h.stop
  have hdraft : p.draft = .after (Scan.marks .start 0 cs) := by rw [Pass.eq_after_of_reads hp]; rfl
  rw [Nat.zero_add, ← hdraft] at hread
  rw [marks_divided h, Pass.reads_append_ok hp, Pass.reads_cons]
  change (Pass.read ⟨p.expansion, p.draft⟩ _).bind _ = _
  rw [Pass.read_of_statement hread hstop]
  rfl

/-! ### What a program has made -/

/-- A program loops over the input lines exactly if the pass has opened the loop. -/
theorem hasEachLine_of_counted (h : x.Counted) (b : Bool) :
    (⟨x.lines.reverse, b⟩ : Program).hasEachLine = x.looped := by
  rw [Expansion.Counted] at h
  rw [Program.hasEachLine, List.any_reverse, Bool.eq_iff_iff, List.any_eq_true,
    ← List.countP_pos_iff, h]
  cases x.looped <;> simp

theorem counted_ended (h : p.expansion.Counted) : p.ended.Counted := by
  rw [Expansion.Counted, Pass.ended, Pass.countP_emit, looped_emit]
  exact h

theorem hasEachLine_of_reads (h : Pass.start.reads ms = .ok p) (b : Bool) :
    (⟨p.ended.lines.reverse, b⟩ : Program).hasEachLine = p.expansion.looped := by
  rw [hasEachLine_of_counted (counted_ended (Pass.of_reads_start h).2), Pass.ended, looped_emit]

/-- A program loops over the input lines once at most. -/
theorem countP_isEachLine_le (h : Pass.start.reads ms = .ok p) :
    p.ended.lines.countP Line.isEachLine ≤ 1 := by
  have hcounted : p.ended.Counted := counted_ended (Pass.of_reads_start h).2
  rw [Expansion.Counted] at hcounted
  rw [hcounted]
  exact Bool.toNat_le _

/-- Two passes on their footings end their scripts alike. -/
theorem Pass.Above.ended {f : Footing} {p' : Pass} (h : Pass.Above f p p') :
    Expansion.Above f p.ended p'.ended := by
  rw [Pass.ended, Pass.ended, h.draft]
  exact h.expansion.emit _

/-- A second script starts in no block, and in no text. -/
theorem above_following (hx : x.nesting = .empty) (k : Nat) :
    Pass.Above (.following x k) .start ⟨x, .empty⟩ where
  expansion := ⟨⟨[], [], rfl, congrArg Nesting.blocks hx, rfl⟩, ⟨[], rfl, rfl⟩, id, .inr⟩
  draft := rfl

/-- A script reads on the footing of another as it does alone, unless both open the loop. -/
theorem reads_following (hx : x.nesting = .empty) (hp : Pass.start.reads ms = .ok p)
    (hloop : x.looped = true → p.expansion.looped = false) (k : Nat) :
    ∃ q, Pass.reads ⟨x, .empty⟩ (ms.map (Mark.moved k)) = .ok q ∧
      Pass.Above (.following x k) p q := by
  have habove := above_following hx k
  have hdeep := Pass.deepest_le Pass.ordered_empty hp
  have hstay := Pass.surplus_le_depth Pass.ordered_empty hp
  exact Pass.reads_above habove Pass.ordered_empty hp hdeep hstay hloop

/-- A script without a fault opens its loop only where none has been opened. -/
theorem not_looped_before (h : Pass.start.reads ms = .ok p) (hr : r ∈ places ms)
    (hl : r.isLoop = true) : (places r.before).any Place.isLoop = false := by
  rw [Pass.reads_start] at h
  have hfault : r.fault? = none := by
    cases hfirst : firstFault? ms with
    | some e =>
      rw [hfirst] at h
      cases h
    | none => exact List.findSome?_eq_none_iff.1 hfirst r hr
  have hbrace : r.mark.is '{' = true := (Bool.and_eq_true_iff.1 hl).1
  by_contra hlooped
  rw [Place.fault?, not_is_of_is (by decide) hbrace, hl, Bool.of_not_eq_false hlooped] at hfault
  cases hfault

/-- **A second loop** is refused at its brace, which is further on. -/
theorem reads_following_repeated (hx : x.nesting = .empty) (hlooped : x.looped = true)
    (hp : Pass.start.reads ms = .ok p) (hr : r ∈ places ms) (hl : r.isLoop = true) (k : Nat) :
    Pass.reads ⟨x, .empty⟩ (ms.map (Mark.moved k)) =
      .error (.repeatedEachLine (r.mark.offset + k)) := by
  obtain ⟨after, hms⟩ := mem_places.1 hr
  have hbefore := not_looped_before hp hr hl
  rw [hms] at hp ⊢
  obtain ⟨p₁, hp₁, hrest⟩ := Pass.exists_of_reads_append hp
  obtain ⟨p₂, hread, -⟩ := Pass.exists_of_reads_cons hrest
  have hp₂ : Pass.start.reads (r.before ++ [r.mark]) = .ok p₂ := by
    rw [Pass.reads_concat, hp₁]
    exact hread
  have hnot : p₁.expansion.looped = false := by
    rw [Pass.eq_after_of_reads hp₁]
    exact hbefore
  have hnow : p₂.expansion.looped = true := by
    rw [Pass.eq_after_of_reads hp₂]
    simp [Pass.after, hl]
  -- up to the brace, the second script reads as it does alone
  obtain ⟨q, hq, habove⟩ := reads_following hx hp₁ (fun _ => hnot) k
  have hordered := Pass.ordered_of_reads Pass.ordered_empty hp₁
  have hlevel := Pass.level_le_maxLevel hordered
  have hstop : q.read (r.mark.moved k) = .error (.repeatedEachLine (r.mark.offset + k)) :=
    Pass.read_repeated habove (Pass.step_of_read hread) hlooped hlevel hnot hnow
  rw [List.map_append, List.map_cons, Pass.reads_append_ok hq, Pass.reads_cons, hstop]
  rfl

/-! ### Two scripts in one -/

/-- **The expansion of two texts** with a character between them that divides them. -/
theorem expandChars_divided (h : Divides c cs ds) (ha : expandChars cs = .ok pa)
    (hb : expandChars ds = .ok pb) :
    (¬ (pa.hasEachLine = true ∧ pb.hasEachLine = true) →
      expandChars (cs ++ c :: ds) = .ok ⟨pa.lines ++ pb.lines,
        pa.structural || (Mark.isStructural ⟨0, c, true⟩ || pb.structural)⟩) ∧
    (pa.hasEachLine = true → ∀ r ∈ places (Scan.marks .start 0 ds), r.isLoop = true →
      expandChars (cs ++ c :: ds) =
        .error (.repeatedEachLine (r.mark.offset + (Text.byteSize cs + 1)))) := by
  obtain ⟨p, hp, hfinish, hnesting, rfl⟩ := expandChars_eq_ok_iff.1 ha
  obtain ⟨q, hq, hfinish', hnesting', rfl⟩ := expandChars_eq_ok_iff.1 hb
  rw [hasEachLine_of_reads hp, hasEachLine_of_reads hq]
  have hended : p.ended.nesting = .empty := by rw [Pass.nesting_ended, hnesting]
  have hlooped : p.ended.looped = p.expansion.looped := looped_emit _ _
  have hreads := reads_divided h hp
  refine ⟨fun hboth => ?_, fun hp' r hr hl => ?_⟩
  · have honce : p.ended.looped = true → q.expansion.looped = false := by
      rw [hlooped]
      exact fun hp => Bool.eq_false_iff.2 fun hq => hboth ⟨hp, hq⟩
    obtain ⟨q', hq', habove⟩ := reads_following hended hq honce (Text.byteSize cs + 1)
    rw [hq'] at hreads
    refine expandChars_eq_ok_iff.2 ⟨q', hreads, ?_, ?_, ?_⟩
    · rw [Scan.endState_cut h.live, Scan.endState_start_at]
      exact finish_moved _ _ hfinish'
    · have hblocks := habove.expansion.blocks_eq (congrArg Nesting.blocks hnesting')
      exact congrArg Nesting.mk hblocks
    · have hlines := habove.ended.lines_eq rfl
      rw [hlines, marks_divided h, List.any_append, List.any_cons, List.any_map]
      simp only [Footing.following, map_raised_zero, List.reverse_append]
      rfl
  · rw [hlooped.symm] at hp'
    exact expandChars_eq_error
      (hreads.trans (reads_following_repeated hended hp' hq hr hl _))

/-- **Sequencing is concatenation.** A semicolon between two scripts, or a line break that continues
no line, makes the lines of the first and then those of the second. Only if both loop over the input
lines is the brace of the second loop a fault, further on by the first script and the character. -/
theorem expand_followedBy {a b : String} (ha : expand a = .ok pa) (hb : expand b = .ok pb) :
    ∃ brace, (pb.hasEachLine = true →
        ∃ r ∈ places (Scan.marks .start 0 b.toList), r.isLoop = true ∧ r.mark.offset = brace) ∧
      ((Scan.endState .start 0 a.toList).mode ≠ .comment →
        expand (a ++ ";" ++ b) = pa.followedBy pb true (brace + a.utf8ByteSize + 1)) ∧
      (Segment.continues (Scan.marks .start 0 a.toList).reverse = false →
        expand (a ++ "\n" ++ b) =
          pa.followedBy pb (pa.structural || pb.structural) (brace + a.utf8ByteSize + 1)) := by
  obtain ⟨q, hq, -, -, hpb⟩ := expandChars_eq_ok_iff.1 hb
  obtain ⟨-, -, hfinish, -⟩ := expandChars_eq_ok_iff.1 ha
  have hloop : pb.hasEachLine = (places (Scan.marks .start 0 b.toList)).any Place.isLoop := by
    rw [hpb, hasEachLine_of_reads hq, Pass.eq_after_of_reads hq]
    rfl
  obtain ⟨brace, hbrace⟩ : ∃ brace, pb.hasEachLine = true →
      ∃ r ∈ places (Scan.marks .start 0 b.toList), r.isLoop = true ∧ r.mark.offset = brace := by
    by_cases h : pb.hasEachLine = true
    · obtain ⟨r, hr, hl⟩ := List.any_eq_true.1 (hloop ▸ h)
      exact ⟨r.mark.offset, fun _ => ⟨r, hr, hl, rfl⟩⟩
    · exact ⟨0, fun h' => absurd h' h⟩
  have hdivided (c : Char) (h : Divides c a.toList b.toList) :
      expandChars (a.toList ++ c :: b.toList) =
        pa.followedBy pb (pa.structural || (Mark.isStructural ⟨0, c, true⟩ || pb.structural))
          (brace + a.utf8ByteSize + 1) := by
    obtain ⟨hok, hrepeated⟩ := expandChars_divided h ha hb
    by_cases hboth : pa.hasEachLine = true ∧ pb.hasEachLine = true
    · obtain ⟨r, hr, hl, rfl⟩ := hbrace hboth.2
      rw [hrepeated hboth.1 r hr hl, Program.followedBy, hboth.1, hboth.2, Text.byteSize_toList,
        Nat.add_assoc]
      rfl
    · rw [hok hboth, Program.followedBy, if_neg (by simpa using hboth)]
  refine ⟨brace, hbrace, fun hmode => ?_, fun hcont => ?_⟩
  · have htext : (a ++ ";" ++ b).toList = a.toList ++ ';' :: b.toList := by simp
    have h := hdivided ';' (divides_semicolon hfinish hmode _)
    rw [expand, htext, h]
    simp [Mark.isStructural]
  · have htext : (a ++ "\n" ++ b).toList = a.toList ++ '\n' :: b.toList := by simp
    have h := hdivided '\n' (divides_newline hfinish hcont _)
    rw [expand, htext, h]
    rfl

/-- The second of two loops is refused where its brace has come to stand. -/
theorem expand_followedBy_second_loop :
    expand "EL\x7bp\x7d" = .ok ⟨[.eachLine 0, .statement 2 "p"], true⟩ ∧
      expand "q\nEL\x7br\x7d" = .ok ⟨[.statement 0 "q", .eachLine 0, .statement 2 "r"], true⟩ ∧
      expand ("EL\x7bp\x7d" ++ ";" ++ "q\nEL\x7br\x7d") = .error (.repeatedEachLine 10) := by
  have ha : expand "EL\x7bp\x7d" = .ok ⟨[.eachLine 0, .statement 2 "p"], true⟩ := by decide
  have hb : expand "q\nEL\x7br\x7d" =
      .ok ⟨[.statement 0 "q", .eachLine 0, .statement 2 "r"], true⟩ := by decide
  obtain ⟨brace, hbrace, hsemicolon, -⟩ := expand_followedBy ha hb
  obtain ⟨r, hr, hl, rfl⟩ := hbrace (by decide)
  have hoffset : ∀ r ∈ places (Scan.marks .start 0 "q\nEL\x7br\x7d".toList), r.isLoop = true →
      r.mark.offset = 4 := by decide
  refine ⟨ha, hb, ?_⟩
  rw [hsemicolon (by decide), hoffset r hr hl]
  decide

end Braceline
