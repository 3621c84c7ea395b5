import Braceline.Proofs.Indentation

/-!
# Writing lines back as a script

The lines of a program can be written as a script again, line by line. Before a line, braces close
the blocks that are deeper than it. After its text, a brace opens a block if the next line is
deeper, and else a semicolon ends the statement, or a line break where a semicolon would belong to
a comment. Such a script expands to the lines that it was written from.

* `unparse`: the script that is written.
* `Leads`: what reading a text comes to, whatever follows the text.
* `exists_leads_closing`, `exists_leadsTo`: the braces before a line, and the line.
* `exists_leads_lines`: all the lines that follow, by induction on them.
* `expand_unparse`: what is written reads back as it was.
-/

namespace Braceline

/-- Does a line head those that follow it? The first of them is deeper. -/
def Line.heads (l : Line) (ls : List Line) : Bool := ls.head?.any (l.level < ·.level)

/-- A line as it is written before `ls`, with the character that ends it. -/
def Line.written (ls : List Line) : Line → List Char
  | .eachLine _ => ['E', 'L', '{']
  | .statement l text =>
    text.toList ++
      [if (Line.statement l text).heads ls then '{'
        else if (Scan.endState .start 0 text.toList).mode = .comment then '\n' else ';']

/-- The level of the block that a line opens, if it opens one. -/
def Line.opened (ls : List Line) : Line → List Nat
  | .eachLine l => [l + eachLineDepth]
  | .statement l text => if (Line.statement l text).heads ls then [l + 1] else []

/-- The script for lines that follow, where blocks of the given levels are open. -/
def unparseFrom (levels : List Nat) : List Line → List Char
  | [] => List.replicate levels.length '}'
  | l :: ls =>
    List.replicate (levels.countP (l.level < ·)) '}' ++ l.written ls ++
      unparseFrom (l.opened ls ++ levels.filter (· ≤ l.level)) ls

/-- **Writes lines as a script.** -/
def unparse (ls : List Line) : String := String.ofList (unparseFrom [] ls)

/-- What reading a text at `o` comes to, whatever follows the text: `x` becomes `y`, and the scan
stands as it starts. -/
structure Leads (o : Nat) (text : List Char) (x y : Expansion) : Prop where
  reads (rest : List Char) : Pass.reads ⟨x, .empty⟩ (Scan.marks .start o (text ++ rest)) =
    Pass.reads ⟨y, .empty⟩ (Scan.marks .start (o + Text.byteSize text) rest)
  endState (rest : List Char) : Scan.endState .start o (text ++ rest) =
    Scan.endState .start (o + Text.byteSize text) rest

/-- What reading a line that is written before `ls` comes to. -/
structure Line.LeadsTo (l : Line) (ls : List Line) (o : Nat) (x y : Expansion) : Prop where
  leads : Leads o (l.written ls) x y
  laid : y.IsLaid
  levels_eq : y.nesting.levels = l.opened ls ++ x.nesting.levels
  looped_eq : y.looped = (x.looped || l.isEachLine)
  lines_eq : y.lines = l :: x.lines
  /-- The next line is no deeper than the point that is reached. -/
  next_le : ∀ l' ∈ ls.head?, l'.level ≤ y.nesting.level

variable {x y z : Expansion} {l l' : Line} {ls : List Line} {t text text' : List Char}
  {s : String} {o k : Nat} {c : Char}

namespace Leads

theorem nil : Leads o [] x x := ⟨fun _ => rfl, fun _ => rfl⟩

theorem trans (h : Leads o text x y) (h' : Leads (o + Text.byteSize text) text' y z) :
    Leads o (text ++ text') x z where
  reads rest := by
    rw [List.append_assoc, h.reads, h'.reads, Text.byteSize_append, Nat.add_assoc]
  endState rest := by
    rw [List.append_assoc, h.endState, h'.endState, Text.byteSize_append, Nat.add_assoc]

/-- A text that ends in a live character. -/
theorem of_live
    (hlive : ∀ rest, ((Scan.endState .start o t).step (o + Text.byteSize t) c rest).2 = true)
    (hreads : ∀ rest, Pass.reads ⟨x, .empty⟩ (Scan.marks .start o (t ++ c :: rest)) =
      Pass.reads ⟨y, .empty⟩ (Scan.marks .start (o + Text.byteSize t + c.utf8Size) rest)) :
    Leads o (t ++ [c]) x y := by
  have hsize : o + Text.byteSize (t ++ [c]) = o + Text.byteSize t + c.utf8Size := by
    rw [Text.byteSize_append, Text.byteSize_cons, Text.byteSize_nil, Nat.add_zero, Nat.add_assoc]
  refine ⟨fun rest => ?_, fun rest => ?_⟩
  · rw [List.append_assoc, hsize]
    exact hreads rest
  · rw [List.append_assoc, hsize]
    exact Scan.endState_cut (hlive rest)

end Leads

/-! ### The braces before a line -/

theorem leads_closeBrace {b : Block} {bs : List Block} (hb : x.nesting.blocks = b :: bs) (o : Nat) :
    Leads o ['}'] x { x with nesting := ⟨bs⟩ } := by
  refine Leads.of_live (t := []) (fun _ => rfl) fun rest => ?_
  have hleave : x.leave o = .ok { x with nesting := ⟨bs⟩ } := by
    rw [Expansion.leave, Nesting.pop, hb]
    rfl
  have hreads := Pass.reads_closeBrace x o rest
  rw [hleave] at hreads
  exact hreads

/-- **As many braces as blocks are deeper than a level** close those blocks. -/
theorem exists_leads_closing (hx : x.IsLaid) (k o : Nat) :
    ∃ n : Nesting, Leads o (List.replicate (x.nesting.levels.countP (k < ·)) '}') x
        { x with nesting := n } ∧
      Expansion.IsLaid { x with nesting := n } ∧ n.levels = x.nesting.levels.filter (· ≤ k) := by
  obtain ⟨⟨bs⟩, looped, ls⟩ := x
  induction bs generalizing o with
  | nil => exact ⟨⟨[]⟩, .nil, hx, rfl⟩
  | cons b bs ih =>
    by_cases hb : b.level ≤ k
    · -- no block is deeper than the innermost
      have hkeep := filter_levels hx.ordered hb
      refine ⟨⟨b :: bs⟩, ?_, hx, hkeep.symm⟩
      have hnone : (⟨b :: bs⟩ : Nesting).levels.countP (k < ·) = 0 := by
        rw [List.countP_eq_zero]
        intro a ha
        have hle := List.filter_eq_self.1 hkeep a ha
        simpa using hle
      rw [hnone]
      exact .nil
    · obtain ⟨n, hlead, hlaid, hlevels⟩ := ih (o + 1) (hx.leave rfl)
      have hcount : (⟨b :: bs⟩ : Nesting).levels.countP (k < ·) =
          (⟨bs⟩ : Nesting).levels.countP (k < ·) + 1 :=
        List.countP_cons_of_pos (by simpa using hb)
      have hfilter : (⟨b :: bs⟩ : Nesting).levels.filter (· ≤ k) =
          (⟨bs⟩ : Nesting).levels.filter (· ≤ k) :=
        List.filter_cons_of_neg (by simpa using hb)
      refine ⟨n, ?_, hlaid, hlevels.trans hfilter.symm⟩
      rw [hcount, List.replicate_succ]
      exact (leads_closeBrace rfl o).trans hlead

/-! ### A line -/

theorem leads_loop (hm : x.nesting.level + Line.eachLineDepth ≤ maxLevel) (hl : x.looped = false)
    (o : Nat) :
    Leads o ['E', 'L', '{'] x
      ⟨⟨⟨x.nesting.level + Line.eachLineDepth, o + 2⟩ :: x.nesting.blocks⟩, true,
        .eachLine x.nesting.level :: x.lines⟩ :=
  Leads.of_live (t := ['E', 'L']) (fun _ => rfl) fun rest => Pass.reads_loopWord_ok hl hm o rest

/-- A text that ends in a colon does not end in the word of the loop. -/
theorem endsInLoop_of_colon (h : t.getLast? = some ':') : endsInLoop t = false := by
  rw [Bool.eq_false_iff]
  intro hloop
  obtain ⟨u, hu⟩ := List.isSuffixOf_iff_suffix.1 (Bool.and_eq_true_iff.1 hloop).1
  rw [← hu, List.getLast?_append] at h
  cases h

theorem leads_header (hs : CleanHeader s.toList) (hm : x.nesting.level + 1 ≤ maxLevel) (o : Nat) :
    Leads o (s.toList ++ ['{']) x
      ⟨⟨⟨x.nesting.level + 1, o + Text.byteSize s.toList⟩ :: x.nesting.blocks⟩, x.looped,
        .statement x.nesting.level s :: x.lines⟩ := by
  obtain ⟨⟨hunbroken, htrim, hne⟩, hcolon, hcode⟩ := hs
  have hmode : (Scan.endState .start 0 s.toList).mode ≠ .comment := by
    rw [hcode]
    decide
  have hblank : s.toList.all Text.isBlank = false := by
    rw [Bool.eq_false_iff, ne_eq, ← Text.trim_eq_nil_iff, htrim]
    exact hne
  have htext : String.ofList (Segment.withColon (Text.trim s.toList)) = s := by
    rw [htrim, Segment.withColon, if_pos hcolon, String.ofList_toList]
  refine Leads.of_live (fun rest => ?_) fun rest => ?_
  · rw [hunbroken.endState hmode]
    rfl
  · have hreads :=
      Pass.reads_header_ok hunbroken hmode (endsInLoop_of_colon hcolon) hblank hm o rest
    rw [htext] at hreads
    exact hreads

/-- A comment at the end of a text continues no line. -/
theorem continues_of_comment (h : (Scan.endState .start o t).mode = .comment) :
    Segment.continues (Scan.marks .start o t).reverse = false := by
  cases hms : (Scan.marks .start o t).reverse with
  | nil => rfl
  | cons m ms =>
    obtain ⟨n, c, live⟩ := m
    cases live with
    | false => exact Segment.continues_inert
    | true =>
      have hlast : (Scan.marks .start o t).getLast? = some ⟨n, c, true⟩ := by
        rw [← List.head?_reverse, hms]
        rfl
      rw [Scan.endState_of_live_getLast? hlast rfl] at h
      cases h

theorem leads_statement (ht : Clean t) (x : Expansion) (o : Nat) :
    Leads o (t ++ [if (Scan.endState .start 0 t).mode = .comment then '\n' else ';']) x
      (x.emit t) := by
  split
  · next hcomment =>
    refine Leads.of_live (fun rest => ?_) fun rest => ?_
    · rw [Scan.step_newline (ht.unbroken.closed_at o)]
    · exact Pass.reads_newline ht.unbroken (continues_of_comment hcomment) x o rest
  · next hcode =>
    refine Leads.of_live (fun rest => ?_) fun rest => ?_
    · rw [ht.unbroken.endState hcode]
      rfl
    · exact Pass.reads_semicolon ht.unbroken hcode x o rest

/-- What is emitted of the text of a statement is that text. -/
theorem emit_clean (hs : Clean s.toList) (x : Expansion) :
    x.emit s.toList = { x with lines := .statement x.nesting.level s :: x.lines } := by
  rw [emit_eq, statements_of_trim hs.trim_eq hs.ne_nil]
  rfl

theorem Laid.of_append {front : List Line} (h : Laid (front ++ ls)) : Laid ls := by
  induction front with
  | nil => exact h
  | cons l front ih => exact ih h.1

theorem Laid.level_le_maxLevel (h : Laid (l :: ls)) : l.level ≤ maxLevel := by
  obtain ⟨-, -, hsound⟩ := h
  cases l with
  | statement k text => exact hsound.2
  | eachLine k => exact (Nat.le_add_right _ _).trans hsound

/-- Where every body is an open block, the next line is no deeper than this point. -/
theorem level_le_of_laid (h : Laid (l :: x.lines)) (hn : x.nesting.Ordered)
    (hb : bodies x.lines = x.nesting.levels) : l.level ≤ x.nesting.level := by
  obtain ⟨-, hlevel, -⟩ := h
  by_contra hdeeper
  rw [hb, filter_levels hn (by omega), innermost_levels] at hlevel
  omega

/-- **A deeper line follows a line that opens a body.** -/
theorem body_ne_nil_of_deeper (hx : x.IsLaid) (hl : l.level = x.nesting.level) (hs : l.Sound)
    (h : Laid (l' :: l :: x.lines)) (hdeeper : l.level < l'.level) : l.body ≠ [] := by
  intro hnil
  have hbodies := (hx.cons hl hs).2
  rw [hnil, List.nil_append] at hbodies
  have hle : l'.level ≤ x.nesting.level :=
    level_le_of_laid (x := { x with lines := l :: x.lines }) h hx.ordered hbodies
  omega

/-- The head of the loop, written. -/
theorem exists_leadsTo_loop (hx : x.IsLaid)
    (hm : x.nesting.level + Line.eachLineDepth ≤ maxLevel) (hl : x.looped = false)
    (hnext : ∀ l' ∈ ls.head?, Laid (l' :: .eachLine x.nesting.level :: x.lines)) (o : Nat) :
    ∃ y, (Line.eachLine x.nesting.level).LeadsTo ls o x y := by
  have hbodies := (hx.cons (l := .eachLine x.nesting.level) rfl hm).2
  have hdeeper : 0 < Line.eachLineDepth := by decide
  have hlaid := hx.enter (l := .eachLine x.nesting.level) rfl hm hdeeper rfl hm (o + 2) true
  exact ⟨_, leads_loop hm hl o, hlaid, rfl, (Bool.or_true _).symm, rfl, fun l' hl' =>
    level_le_of_laid (hnext l' hl') hlaid.ordered hbodies⟩

/-- A statement that heads the next line, written. -/
theorem exists_leadsTo_header (hx : x.IsLaid) (hs : Clean s.toList)
    (hheads : (Line.statement x.nesting.level s).heads ls = true)
    (hnext : ∀ l' ∈ ls.head?, Laid (l' :: .statement x.nesting.level s :: x.lines)) (o : Nat) :
    ∃ y, (Line.statement x.nesting.level s).LeadsTo ls o x y := by
  obtain ⟨l', hl', hlt⟩ := (Option.any_eq_true _ _).1 hheads
  have hlt : x.nesting.level < l'.level := of_decide_eq_true hlt
  have hsound : (Line.statement x.nesting.level s).Sound :=
    ⟨hs, Pass.level_le_maxLevel hx.ordered⟩
  -- the next line stands in the body that this one opens
  have hne := body_ne_nil_of_deeper hx rfl hsound (hnext l' hl') hlt
  have hheader : CleanHeader s.toList := by
    rw [Line.body] at hne
    split at hne
    · next h => exact ⟨hs, h.1, h.2⟩
    · exact absurd rfl hne
  have hbody : (Line.statement x.nesting.level s).body = [x.nesting.level + 1] := by
    have h := body_header hheader x.nesting.level
    rwa [String.ofList_toList] at h
  have hbodies := (hx.cons (l := .statement x.nesting.level s) rfl hsound).2
  have hm : x.nesting.level + 1 ≤ maxLevel :=
    Nat.le_trans (Nat.succ_le_of_lt hlt) (hnext l' hl').level_le_maxLevel
  have hlaid := hx.enter (l := .statement x.nesting.level s) rfl hsound Nat.one_pos hbody hm
    (o + Text.byteSize s.toList) x.looped
  refine ⟨_, ?_, hlaid, ?_, (Bool.or_false _).symm, rfl, fun l' hl' => ?_⟩
  · rw [Line.written, if_pos hheads]
    exact leads_header hheader hm o
  · rw [Line.opened, if_pos hheads]
    rfl
  · rw [hbody] at hbodies
    exact level_le_of_laid (hnext l' hl') hlaid.ordered hbodies

/-- Any other statement, written. -/
theorem exists_leadsTo_statement (hx : x.IsLaid) (hs : Clean s.toList)
    (hheads : ¬ (Line.statement x.nesting.level s).heads ls = true) (o : Nat) :
    ∃ y, (Line.statement x.nesting.level s).LeadsTo ls o x y := by
  have hlaid : (x.emit s.toList).IsLaid := hx.emit fun _ => by
    rw [hs.trim_eq]
    exact hs
  have hlead := leads_statement hs x o
  rw [emit_clean hs] at hlaid hlead
  refine ⟨_, ?_, hlaid, ?_, (Bool.or_false _).symm, rfl, fun l' hl' => ?_⟩
  · rw [Line.written, if_neg hheads]
    exact hlead
  · rw [Line.opened, if_neg hheads]
    rfl
  · rw [Line.heads, Option.any_eq_true] at hheads
    exact Nat.not_lt.1 fun hlt => hheads ⟨l', hl', decide_eq_true hlt⟩

/-- **A line at the level of this point**, written. -/
theorem exists_leadsTo (hx : x.IsLaid) (hl : l.level = x.nesting.level) (hs : l.Sound)
    (hloop : l.isEachLine = true → x.looped = false)
    (hnext : ∀ l' ∈ ls.head?, Laid (l' :: l :: x.lines)) (o : Nat) : ∃ y, l.LeadsTo ls o x y := by
  cases l with
  | eachLine k =>
    obtain rfl : k = x.nesting.level := hl
    exact exists_leadsTo_loop hx hs (hloop rfl) hnext o
  | statement k s =>
    obtain rfl : k = x.nesting.level := hl
    by_cases hheads : (Line.statement x.nesting.level s).heads ls = true
    · exact exists_leadsTo_header hx hs.1 hheads hnext o
    · exact exists_leadsTo_statement hx hs.1 hheads o

/-! ### All lines -/

/-- The lines of a block are deeper than those outside of all blocks. -/
theorem levels_pos {n : Nesting} (h : n.Ordered) : ∀ a ∈ n.levels, 0 < a := fun a ha =>
  (List.pairwise_append.1 h.grows).2.2 a ha 0 (List.mem_singleton_self 0)

/-- Where no more than one loop has been or will be opened, the next line may open it. -/
theorem looped_or_of_countP {b : Bool} (h : b.toNat + (l :: ls).countP Line.isEachLine ≤ 1) :
    (l.isEachLine = true → b = false) ∧
      (b || l.isEachLine).toNat + ls.countP Line.isEachLine ≤ 1 := by
  rw [List.countP_cons] at h
  cases b with
  | false => exact ⟨fun _ => rfl, by cases hl : l.isEachLine <;> simp [hl] at h ⊢ <;> omega⟩
  | true =>
    rw [Bool.toNat_true] at h
    have hl : l.isEachLine = false := by
      by_contra hl
      rw [if_pos (by simpa using hl)] at h
      omega
    rw [hl] at h ⊢
    exact ⟨Bool.noConfusion, h⟩

/-- **Lines that follow**, written where blocks are open. -/
theorem exists_leads_lines (hx : x.IsLaid) (hfirst : ∀ l ∈ ls.head?, l.level ≤ x.nesting.level)
    (hlaid : Laid (ls.reverse ++ x.lines)) (hcount : x.looped.toNat + ls.countP Line.isEachLine ≤ 1)
    (o : Nat) :
    ∃ y : Expansion, Leads o (unparseFrom x.nesting.levels ls) x y ∧ y.nesting = .empty ∧
      y.lines = ls.reverse ++ x.lines := by
  induction ls generalizing x o with
  | nil =>
    have hpos : ∀ a ∈ x.nesting.levels, 0 < a := levels_pos hx.ordered
    obtain ⟨⟨bs⟩, hlead, -, hlevels⟩ := exists_leads_closing hx 0 o
    have hall : x.nesting.levels.countP (0 < ·) = x.nesting.levels.length :=
      List.countP_eq_length.2 fun a ha => decide_eq_true (hpos a ha)
    have hnone : x.nesting.levels.filter (· ≤ 0) = [] :=
      List.filter_eq_nil_iff.2 fun a ha => by simpa using Nat.ne_of_gt (hpos a ha)
    rw [hnone, Nesting.levels, List.map_eq_nil_iff] at hlevels
    rw [hall] at hlead
    exact ⟨_, hlead, congrArg Nesting.mk hlevels, rfl⟩
  | cons l ls ih =>
    have hrest : (l :: ls).reverse ++ x.lines = ls.reverse ++ l :: x.lines := by simp
    rw [hrest] at hlaid ⊢
    obtain ⟨-, hlevel, hsound⟩ := hlaid.of_append
    obtain ⟨n, hclose, hlaid', hlevels⟩ := exists_leads_closing hx l.level o
    have hl : l.level = n.level := by
      rw [← innermost_levels, hlevels, ← hx.filter_bodies (hfirst l rfl), hlevel]
    obtain ⟨hloop, hcount'⟩ := looped_or_of_countP hcount
    have hnext : ∀ l' ∈ ls.head?, Laid (l' :: l :: x.lines) := fun l' hl' => by
      obtain ⟨ls', rfl⟩ := List.head?_eq_some_iff.1 hl'
      rw [List.reverse_cons, List.append_assoc] at hlaid
      exact hlaid.of_append
    obtain ⟨y, hy⟩ := exists_leadsTo hlaid' hl hsound hloop hnext
      (o + Text.byteSize (List.replicate (x.nesting.levels.countP (l.level < ·)) '}'))
    rw [← hy.lines_eq] at hlaid
    rw [← hy.looped_eq] at hcount'
    obtain ⟨z, hz, hnesting, hlines⟩ := ih hy.laid hy.next_le hlaid hcount'
      (o + Text.byteSize (List.replicate (x.nesting.levels.countP (l.level < ·)) '}' ++
        l.written ls))
    rw [hy.levels_eq, hlevels] at hz
    rw [hy.lines_eq] at hlines
    exact ⟨z, (hclose.trans hy.leads).trans hz, hnesting, hlines⟩

/-- **What is written reads back as it was.** The lines of any program, written as a script, expand
to the same lines. -/
theorem expand_unparse {script : String} {p : Program} (h : expand script = .ok p) :
    ∃ p', expand (unparse p.lines) = .ok p' ∧ p'.lines = p.lines := by
  obtain ⟨hlaid, hcount⟩ := laid_of_expandChars h
  have hfirst : ∀ l ∈ p.lines.head?, l.level ≤ 0 := fun l hl => by
    obtain ⟨ls, hls⟩ := List.head?_eq_some_iff.1 hl
    rw [hls, List.reverse_cons] at hlaid
    obtain ⟨-, hlevel, -⟩ := hlaid.of_append
    exact Nat.le_of_eq hlevel.symm
  rw [← List.append_nil p.lines.reverse] at hlaid
  rw [← Nat.zero_add (p.lines.countP Line.isEachLine)] at hcount
  obtain ⟨y, hy, hnesting, hlines⟩ : ∃ y, Leads 0 (unparseFrom [] p.lines) .start y ∧
      y.nesting = .empty ∧ y.lines = p.lines.reverse ++ [] :=
    exists_leads_lines Pass.isLaid_start hfirst hlaid hcount 0
  have hreads := hy.reads []
  have hend := hy.endState []
  rw [List.append_nil] at hreads hend hlines
  have hexpand : expandChars (unparseFrom [] p.lines) =
      .ok ⟨y.lines.reverse, (Scan.marks .start 0 (unparseFrom [] p.lines)).any Mark.isStructural⟩ :=
    expandChars_eq_ok_iff.2 ⟨⟨y, .empty⟩, hreads, by rw [hend]; rfl, hnesting, rfl⟩
  rw [hlines, List.reverse_reverse] at hexpand
  rw [expand, unparse, String.toList_ofList]
  exact ⟨_, hexpand, rfl⟩

/-- A comment at the end of a block keeps its line break, and the header has its colon already. -/
theorem expand_unparse_comment :
    expand "if a\x7bx # y\n\x7dEL\x7bp\x7d" =
        .ok ⟨[.statement 0 "if a:", .statement 1 "x # y", .eachLine 0, .statement 2 "p"], true⟩ ∧
      ∃ p', expand "if a:\x7bx # y\n\x7dEL\x7bp;\x7d" = .ok p' ∧
        p'.lines = [.statement 0 "if a:", .statement 1 "x # y", .eachLine 0, .statement 2 "p"] := by
  have h : expand "if a\x7bx # y\n\x7dEL\x7bp\x7d" =
      .ok ⟨[.statement 0 "if a:", .statement 1 "x # y", .eachLine 0, .statement 2 "p"], true⟩ := by
    decide +kernel
  have hback := expand_unparse h
  have htext : unparse [.statement 0 "if a:", .statement 1 "x # y", .eachLine 0,
      .statement 2 "p"] = "if a:\x7bx # y\n\x7dEL\x7bp;\x7d" := by decide +kernel
  rw [htext] at hback
  exact ⟨h, hback⟩

end Braceline
