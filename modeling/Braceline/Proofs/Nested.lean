import Braceline.Proofs.Sequence

/-!
# A script inside a block

A script that is put inside a block, or inside the loop, makes the lines that it makes alone, as
many levels deeper as the block is. So it does unless it goes too deep there. How deep it goes is a
matter of the blocks that it opens, and not of the lines that it makes: an empty block counts too.

* `Opens`: a text whose brace opens a block at the start of a script.
* `reads_body_ok`, `reads_body_error`: the pass over a script inside such a block.
* `expand_nested`: a script under a header, and a script in the loop.
-/

namespace Braceline

/-- A text that reads as the header of a block, whatever stands inside the block. -/
structure IsHeader (t : List Char) : Prop where
  noStop : ∀ m ∈ Scan.marks .start 0 t, m.isStop = false
  code : (Scan.endState .start 0 t).mode = .code
  notBlank : t.all Text.isBlank = false
  notLoop : endsInLoop t = false

/-- The brace after the text opens a block of level `k` under the line `l`, at the start of a
script. -/
structure Opens (t : List Char) (k : Nat) (l : Line) (loops : Bool) : Prop where
  code : Scan.endState .start 0 t = .start
  reads (rest : List Char) : Pass.start.reads (Scan.marks .start 0 (t ++ '{' :: rest)) =
    Pass.reads ⟨⟨⟨[⟨k, Text.byteSize t⟩]⟩, loops, [l]⟩, .empty⟩
      (Scan.marks .start (Text.byteSize t + 1) rest)

/-- The footing of what is read inside the one block that is open. -/
def Footing.inside (b : Block) (l : Line) (loops : Bool) (shift : Nat) : Footing :=
  ⟨b.level, shift, [], [b], [], [l], loops, (Nat.zero_add b.level).symm⟩

variable {t cs : List Char} {k o : Nat} {l : Line} {loops : Bool} {p : Pass} {pb : Program}
  {b : Block} {ms : List Mark}

/-! ### What opens a block -/

theorem IsHeader.opens (h : IsHeader t) :
    Opens t 1 (.statement 0 (String.ofList (Segment.withColon (Text.trim t)))) false where
  code := Scan.endState_of_code h.code
  reads rest := by
    have hclosed : (Scan.endState .start 0 t).finish = .ok () := by
      rw [Scan.endState_of_code h.code]
      rfl
    have hmode : (Scan.endState .start 0 t).mode ≠ .comment := by
      rw [h.code]
      simp
    have hreads := Pass.reads_header_ok (x := .start) ⟨h.noStop, hclosed⟩ hmode h.notLoop h.notBlank
      (by decide) 0 rest
    rw [Nat.zero_add] at hreads
    exact hreads

theorem opens_loop : Opens ['E', 'L'] 2 (.eachLine 0) true where
  code := rfl
  reads rest := Pass.reads_loopWord_ok (x := .start) rfl (by decide) 0 rest

/-! ### The script inside -/

theorem above_inside (b : Block) (l : Line) (loops : Bool) (shift : Nat) :
    Pass.Above (.inside b l loops shift) .start ⟨⟨⟨[b]⟩, loops, [l]⟩, .empty⟩ where
  expansion := ⟨⟨[], [], rfl, rfl, rfl⟩, ⟨[], rfl, rfl⟩, id, .inr⟩
  draft := rfl

/-- **Inside a block that is not too deep**, a script makes its own lines, deeper. -/
theorem reads_body_ok (hp : Pass.start.reads ms = .ok p) (hn : p.expansion.nesting = .empty)
    (hdeep : Pass.start.deepest ms + b.level ≤ maxLevel)
    (hloop : loops = true → p.expansion.looped = false) (shift : Nat) :
    ∃ q, Pass.reads ⟨⟨⟨[b]⟩, loops, [l]⟩, .empty⟩ (ms.map (Mark.moved shift)) = .ok q ∧
      q.expansion.nesting = ⟨[b]⟩ ∧
      q.ended.lines = p.ended.lines.map (Line.raised b.level) ++ [l] := by
  have habove := above_inside b l loops shift
  have hstay := Pass.surplus_le_depth Pass.ordered_empty hp
  obtain ⟨q, hq, habove'⟩ := Pass.reads_above habove Pass.ordered_empty hp hdeep hstay hloop
  have hblocks := habove'.expansion.blocks_eq (congrArg Nesting.blocks hn)
  exact ⟨q, hq, congrArg Nesting.mk hblocks, habove'.ended.lines_eq rfl⟩

/-- **Inside a block that is too deep**, one of its braces is refused. -/
theorem reads_body_error (hp : Pass.start.reads ms = .ok p) (hb : b.level ≤ maxLevel)
    (hdeep : maxLevel < Pass.start.deepest ms + b.level)
    (hloop : loops = true → p.expansion.looped = false) (shift : Nat) :
    ∃ m ∈ ms, m.is '{' = true ∧
      Pass.reads ⟨⟨⟨[b]⟩, loops, [l]⟩, .empty⟩ (ms.map (Mark.moved shift)) =
        .error (.nestingTooDeep (m.offset + shift)) := by
  have habove := above_inside b l loops shift
  have hstay := Pass.surplus_le_depth Pass.ordered_empty hp
  have hlevel : Pass.start.expansion.nesting.level + b.level ≤ maxLevel := by
    rw [show Pass.start.expansion.nesting.level = 0 from rfl]
    omega
  exact Pass.reads_tooDeep habove Pass.ordered_empty hp hlevel hdeep hstay hloop

/-- The marks of a block with its braces, whose body ends in code. -/
theorem marks_block (ht : Scan.endState .start 0 t = .start)
    (hcs : Scan.endState .start 0 cs = .start) :
    Scan.marks .start (Text.byteSize t + 1) (cs ++ ['}']) =
        (Scan.marks .start 0 cs).map (Mark.moved (Text.byteSize t + 1)) ++
          [⟨Text.byteSize t + 1 + Text.byteSize cs, '}', true⟩] ∧
      Scan.endState .start 0 (t ++ '{' :: (cs ++ ['}'])) = .start ∧
      (Scan.marks .start 0 (t ++ '{' :: (cs ++ ['}']))).any Mark.isStructural = true := by
  have hopen : ((Scan.endState .start 0 t).step (0 + Text.byteSize t) '{' (cs ++ ['}'])).2 =
      true := by
    rw [ht]
    rfl
  have hclose (o : Nat) : ((Scan.endState .start o cs).step (o + Text.byteSize cs) '}' []).2 =
      true := by
    rw [Scan.endState_start_of hcs o]
    rfl
  refine ⟨?_, ?_, ?_⟩
  · rw [Scan.marks_cut (hclose _), ← Scan.marks_start_at]
    rfl
  · rw [Scan.endState_cut hopen, Scan.endState_cut (hclose _), Scan.endState_nil]
  · rw [Scan.marks_cut hopen, List.any_append, List.any_cons]
    simp [Mark.isStructural]

/-- **A script inside a block** that a text opens at the start of a script. -/
theorem expandChars_nested (ht : Opens t k l loops) (hk : k ≤ maxLevel)
    (hb : expandChars cs = .ok pb) (hmode : (Scan.endState .start 0 cs).mode ≠ .comment)
    (hloop : loops = true → pb.hasEachLine = false) :
    (Pass.start.deepest (Scan.marks .start 0 cs) + k ≤ maxLevel →
      expandChars (t ++ '{' :: (cs ++ ['}'])) = .ok ⟨l :: pb.lines.map (Line.raised k), true⟩) ∧
    (maxLevel < Pass.start.deepest (Scan.marks .start 0 cs) + k →
      ∃ m ∈ Scan.marks .start 0 cs, m.is '{' = true ∧ expandChars (t ++ '{' :: (cs ++ ['}'])) =
        .error (.nestingTooDeep (m.offset + (Text.byteSize t + 1)))) := by
  obtain ⟨p, hp, hfinish, hnesting, rfl⟩ := expandChars_eq_ok_iff.1 hb
  rw [hasEachLine_of_reads hp] at hloop
  obtain ⟨hmarks, hend, hstruct⟩ := marks_block ht.code (Scan.endState_eq_start hfinish hmode)
  have hreads := ht.reads (cs ++ ['}'])
  rw [hmarks, Pass.reads_append] at hreads
  refine ⟨fun hdeep => ?_, fun hdeep => ?_⟩
  · obtain ⟨q, hq, hqn, hlines⟩ := reads_body_ok (b := ⟨k, Text.byteSize t⟩) (l := l) hp hnesting
      hdeep hloop (Text.byteSize t + 1)
    have hclosed : q.reads [⟨Text.byteSize t + 1 + Text.byteSize cs, '}', true⟩] =
        .ok ⟨{ q.ended with nesting := .empty }, .empty⟩ := by
      rw [Pass.reads_cons, Pass.read_close_ok (congrArg Nesting.blocks hqn)]
      rfl
    rw [hq] at hreads
    refine expandChars_eq_ok_iff.2 ⟨_, hreads.trans hclosed, ?_, rfl, ?_⟩
    · rw [hend]
      rfl
    · have hended : Pass.ended ⟨{ q.ended with nesting := .empty }, .empty⟩ =
        { q.ended with nesting := .empty } := rfl
      rw [hstruct, hended, hlines]
      simp
  · obtain ⟨m, hm, hbrace, herror⟩ := reads_body_error (b := ⟨k, Text.byteSize t⟩) (l := l) hp hk
      hdeep hloop (Text.byteSize t + 1)
    rw [herror] at hreads
    exact ⟨m, hm, hbrace, expandChars_eq_error hreads⟩

/-- **Nesting shifts levels** and changes nothing else. A script under a header makes the header's
line and then its own lines, a level deeper, as long as the deepest block it opens stays within the
limit there; beyond the limit, one of its braces is refused. So does a script in the loop, two
levels deeper, if it has no loop of its own. -/
theorem expand_nested {b : String} (hb : expand b = .ok pb)
    (hmode : (Scan.endState .start 0 b.toList).mode ≠ .comment) :
    (∀ h : String, IsHeader h.toList →
      (Pass.start.deepest (Scan.marks .start 0 b.toList) + 1 ≤ maxLevel →
        expand (h ++ "\x7b" ++ b ++ "\x7d") =
          .ok ⟨.statement 0 (String.ofList (Segment.withColon (Text.trim h.toList))) ::
            pb.lines.map (Line.raised 1), true⟩) ∧
      (maxLevel < Pass.start.deepest (Scan.marks .start 0 b.toList) + 1 →
        ∃ m ∈ Scan.marks .start 0 b.toList, m.is '{' = true ∧
          expand (h ++ "\x7b" ++ b ++ "\x7d") =
            .error (.nestingTooDeep (m.offset + (h.utf8ByteSize + 1))))) ∧
    (pb.hasEachLine = false →
      (Pass.start.deepest (Scan.marks .start 0 b.toList) + 2 ≤ maxLevel →
        expand ("EL\x7b" ++ b ++ "\x7d") =
          .ok ⟨.eachLine 0 :: pb.lines.map (Line.raised 2), true⟩) ∧
      (maxLevel < Pass.start.deepest (Scan.marks .start 0 b.toList) + 2 →
        ∃ m ∈ Scan.marks .start 0 b.toList, m.is '{' = true ∧
          expand ("EL\x7b" ++ b ++ "\x7d") = .error (.nestingTooDeep (m.offset + 3)))) := by
  refine ⟨fun h hh => ?_, fun hloop => ?_⟩
  · have htext : (h ++ "\x7b" ++ b ++ "\x7d").toList = h.toList ++ '{' :: (b.toList ++ ['}']) := by
      simp
    rw [expand, htext, ← Text.byteSize_toList]
    exact expandChars_nested hh.opens (by decide) hb hmode Bool.noConfusion
  · have htext : ("EL\x7b" ++ b ++ "\x7d").toList = ['E', 'L'] ++ '{' :: (b.toList ++ ['}']) := by
      simp
    rw [expand, htext]
    exact expandChars_nested opens_loop (by decide) hb hmode fun _ => hloop

/-- A script with an empty block, under a header and in the loop. -/
theorem expand_nested_empty_block :
    expand "if x\x7b\x7dy" = .ok ⟨[.statement 0 "if x:", .statement 0 "y"], true⟩ ∧
      expand ("while c " ++ "\x7b" ++ "if x\x7b\x7dy" ++ "\x7d") =
        .ok ⟨[.statement 0 "while c:", .statement 1 "if x:", .statement 1 "y"], true⟩ ∧
      expand ("EL\x7b" ++ "if x\x7b\x7dy" ++ "\x7d") =
        .ok ⟨[.eachLine 0, .statement 2 "if x:", .statement 2 "y"], true⟩ := by
  have hb : expand "if x\x7b\x7dy" = .ok ⟨[.statement 0 "if x:", .statement 0 "y"], true⟩ := by
    decide
  have hheader : IsHeader "while c ".toList := ⟨by decide, by decide, by decide, by decide⟩
  obtain ⟨hblock, hloop⟩ := expand_nested hb (by decide)
  refine ⟨hb, ((hblock _ hheader).1 (by decide)).trans ?_, ((hloop rfl).1 (by decide)).trans ?_⟩
  · decide
  · decide

end Braceline
