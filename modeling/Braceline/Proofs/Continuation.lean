import Braceline.Proofs.Relocation
import Mathlib.Data.List.DropRight

/-!
# A continuation is worth a space

A backslash right before a line break joins the two lines, and the spaces and tabs around it go. So
a continuation may be written for a space that stands between two texts, unless there are more
spaces or tabs on either side of it. The pass is left with the same text in its draft. In one of
the two scripts it would still skip spaces and tabs, but none follow. What does follow is read the
same way from there, further on.

* `marks_spliced`: the scan of what stands between two texts.
* `tight_after`: what the draft holds after a text that ends in no space or tab.
* `reads_continuation`, `reads_space`: what a continuation and a space leave in it.
* `concludes_congr`: the two drafts come to the same.
* `expandChars_continued`, `expand_continued`: so do the two scripts.
-/

namespace Braceline

/-- A line continuation, with spaces and tabs around it. -/
structure Continuation where
  before : String
  lineBreak : String
  after : String
  before_gap : ∀ c ∈ before.toList, Text.isSpaceOrTab c = true
  is_break : lineBreak = "\n" ∨ lineBreak = "\r\n"
  after_gap : ∀ c ∈ after.toList, Text.isSpaceOrTab c = true

/-- The continuation as it is written. -/
def Continuation.text (w : Continuation) : String :=
  w.before ++ "\\" ++ w.lineBreak ++ w.after

/-- A text of characters that a continuation, or the space for it, is made of. -/
structure Joins (t : List Char) : Prop where
  ne_nil : t ≠ []
  chars : ∀ c ∈ t, c = ' ' ∨ c = '\t' ∨ c = '\\' ∨ c = '\r' ∨ c = '\n'

namespace Segment.Draft

/-- The text of a draft, less the space that a continuation has left at its end. -/
def body (d : Draft) : List Char := if d.tail = .joined then d.text.tail else d.text

/-- A draft that ends in no space or tab but the space that a continuation has left. -/
structure Tight (d : Draft) : Prop where
  text : d.tail = .joined → d.text = ' ' :: d.body
  gap : d.body.dropWhile Text.isSpaceOrTab = d.body

/-- Drafts of one text that end in no part of a continuation. -/
structure Alike (d d' : Draft) : Prop where
  text : d.text = d'.text
  tail : d.tail = .plain ∨ d.tail = .joined
  tail' : d'.tail = .plain ∨ d'.tail = .joined

end Segment.Draft

variable {d d' : Segment.Draft} {m : Mark} {ms : List Mark} {c : Char} {t ps qs : List Char}
  {f : Nat → Nat} {p : Pass}

/-! ### Scanning what joins two texts -/

theorem joins_space : Joins [' '] where
  ne_nil := List.cons_ne_nil _ _
  chars _ hc := .inl (List.mem_singleton.1 hc)

theorem Continuation.toList_text (w : Continuation) :
    w.text.toList = w.before.toList ++ '\\' :: (w.lineBreak.toList ++ w.after.toList) := by
  simp [text]

theorem Continuation.joins (w : Continuation) : Joins w.text.toList where
  ne_nil := by simp [w.toList_text]
  chars c hc := by
    have hgap (h : Text.isSpaceOrTab c = true) :
        c = ' ' ∨ c = '\t' ∨ c = '\\' ∨ c = '\r' ∨ c = '\n' := by
      rcases Text.isSpaceOrTab_iff.1 h with rfl | rfl <;> simp
    rw [w.toList_text, List.mem_append, List.mem_cons, List.mem_append] at hc
    rcases hc with hc | rfl | hc | hc
    · exact hgap (w.before_gap c hc)
    · simp
    · have hbreak : c = '\r' ∨ c = '\n' := by
        rcases w.is_break with h | h
        · exact .inr (by simpa [h] using hc)
        · simpa [h] using hc
      rcases hbreak with rfl | rfl <;> simp
    · exact hgap (w.after_gap c hc)

/-- It begins no comment and no literal. -/
theorem Joins.code (h : Joins t) : ∀ c ∈ t, Quote.ofChar? c = none ∧ c ≠ '#' := by
  intro c hc
  rcases h.chars c hc with rfl | rfl | rfl | rfl | rfl <;> exact ⟨rfl, by decide⟩

/-- It has no structure. -/
theorem Joins.any_isStructural (h : Joins t) (o : Nat) :
    (stamp true o t).any Mark.isStructural = false := by
  rw [List.any_eq_false]
  intro m hm
  have hlive := live_of_mem_stamp hm
  have hchar : m.char ∈ t := by
    rw [← map_char_stamp true o t]
    exact List.mem_map_of_mem hm
  obtain ⟨n, c, live⟩ := m
  subst hlive
  rcases h.chars c hchar with rfl | rfl | rfl | rfl | rfl <;> exact Bool.false_ne_true

/-- **What stands between two texts** is live, and the second is scanned anew after it. -/
theorem marks_spliced (hp : Scan.endState .start 0 ps = .start) (ht : Joins t) (qs : List Char) :
    Scan.marks .start 0 (ps ++ (t ++ qs)) = Scan.marks .start 0 ps ++
        (stamp true (Text.byteSize ps) t ++ (Scan.marks .start 0 qs).map
          (Mark.relocated fun o => o + (Text.byteSize ps + Text.byteSize t))) ∧
      (Scan.endState .start 0 (ps ++ (t ++ qs))).finish =
        relocatedResult (fun o => o + (Text.byteSize ps + Text.byteSize t)) id
          (Scan.endState .start 0 qs).finish := by
  have hpass : Scan.Passes .start (Text.byteSize ps) t qs true .start := Scan.passes_code ht.code
  have hcut : ∀ c ∈ (t ++ qs).head?, Quote.ofChar? c = none := by
    intro c hc
    rw [List.head?_append_of_ne_nil _ ht.ne_nil] at hc
    exact (ht.code c (List.mem_of_mem_head? hc)).1
  constructor
  · rw [Scan.marks_append hcut, hp, Nat.zero_add, hpass.marks,
      Scan.marks_start_at (Text.byteSize ps + Text.byteSize t)]
    rfl
  · rw [Scan.endState_append hcut, hp, Nat.zero_add, hpass.finish, Scan.endState_start_at,
      Scan.finish_moved_eq]

/-! ### What is left in the draft -/

namespace Segment.Draft

/-- A space or a tab goes into the draft, unless a continuation has just left its space there. -/
theorem read_gap (hc : Text.isSpaceOrTab c = true) (d : Draft) (o : Nat) :
    d.read ⟨o, c, true⟩ = .inl (if d.tail = .joined then d else d.push c .plain) := by
  rcases Text.isSpaceOrTab_iff.1 hc with rfl | rfl
  all_goals
    simp only [read, readLive]
    by_cases hj : d.tail = .joined <;> simp [hj, hc]

theorem body_of_ne_joined (h : d.tail ≠ .joined) : d.body = d.text := if_neg h

/-- What ends in another character is tight. -/
theorem tight_push {tail : Tail} (hc : Text.isSpaceOrTab c = false) (ht : tail ≠ .joined) :
    (d.push c tail).Tight where
  text h := absurd h ht
  gap := by
    rw [body_of_ne_joined (by exact ht), push, List.dropWhile_cons_of_neg (by simp [hc])]

theorem tight_empty : Tight .empty where
  text := Tail.noConfusion
  gap := rfl

theorem tight_join (d : Draft) (n : Nat) : (d.join n).Tight where
  text _ := rfl
  gap := List.dropWhile_idempotent _ _

/-- **After marks that end in no space or tab** the draft is tight. -/
theorem tight_after (h : ∀ m ∈ ms.getLast?, Text.isSpaceOrTab m.char = false) :
    (after ms).Tight := by
  rcases List.eq_nil_or_concat ms with rfl | ⟨ms, m, rfl⟩
  · exact tight_empty
  · rw [List.concat_eq_append] at h ⊢
    have hm := h m List.getLast?_concat
    rw [after_concat, next]
    have hstep := (after ms).step_read m
    generalize (after ms).read m = r at hstep
    cases hstep with
    | openBrace | closeBrace | semicolon | lineBreak => exact tight_empty
    | join | joinReturn => exact tight_join _ _
    | slash | slashReturn => exact tight_push rfl Tail.noConfusion
    | skip o c hc => exact absurd hc (by simpa using hm)
    | live | inert => exact tight_push hm Tail.noConfusion

/-- Without the spaces and tabs at its end, a tight draft is its body. -/
theorem Tight.dropWhile_text (h : d.Tight) : d.text.dropWhile Text.isSpaceOrTab = d.body := by
  by_cases hj : d.tail = .joined
  · rw [h.text hj, List.dropWhile_cons_of_pos rfl, h.gap]
  · rw [← body_of_ne_joined hj, h.gap]

/-- What is neither a space nor a tab is read alike. -/
theorem Alike.read_eq (h : d.Alike d') (hm : Text.isSpaceOrTab m.char = false) :
    d.read m = d'.read m := by
  obtain ⟨t, tail⟩ := d
  obtain ⟨t', tail'⟩ := d'
  obtain rfl : t = t' := h.text
  have htail : tail = .plain ∨ tail = .joined := h.tail
  have htail' : tail' = .plain ∨ tail' = .joined := h.tail'
  unfold read readLive
  -- no test of the character asks for a tail that either has
  rcases htail with rfl | rfl <;> rcases htail' with rfl | rfl <;> simp [hm, push]

end Segment.Draft

namespace Pass

/-- Spaces and tabs change nothing in the draft but the spaces and tabs at its end. -/
theorem reads_gap (h : ∀ c ∈ t, Text.isSpaceOrTab c = true) (x : Expansion) (d : Segment.Draft)
    (o : Nat) : ∃ d', reads ⟨x, d⟩ (stamp true o t) = .ok ⟨x, d'⟩ ∧
      d'.text.dropWhile Text.isSpaceOrTab = d.text.dropWhile Text.isSpaceOrTab := by
  induction t generalizing d o with
  | nil => exact ⟨d, rfl, rfl⟩
  | cons c t ih =>
    have hc := h c List.mem_cons_self
    have hread := read_of_inl (x := x) (d.read_gap hc o)
    obtain ⟨d', hreads, hd'⟩ := ih (fun c hc => h c (List.mem_cons_of_mem _ hc))
      (if d.tail = .joined then d else d.push c .plain) (o + c.utf8Size)
    refine ⟨d', ?_, ?_⟩
    · rw [stamp, reads_cons, hread]
      exact hreads
    · rw [hd']
      split
      · rfl
      · rw [Segment.Draft.push, List.dropWhile_cons_of_pos hc]

/-- After the space of a continuation they change nothing at all. -/
theorem reads_skipped (h : ∀ c ∈ t, Text.isSpaceOrTab c = true) (x : Expansion)
    (hd : d.tail = .joined) (o : Nat) : reads ⟨x, d⟩ (stamp true o t) = .ok ⟨x, d⟩ := by
  induction t generalizing o with
  | nil => rfl
  | cons c t ih =>
    have hread := d.read_gap (h c List.mem_cons_self) o
    rw [if_pos hd] at hread
    rw [stamp, reads_cons, read_of_inl hread]
    exact ih (fun c hc => h c (List.mem_cons_of_mem _ hc)) _

/-- A backslash and a line break leave one space for what stands at the end of the draft. -/
theorem reads_break (w : Continuation) (x : Expansion) (d : Segment.Draft) (o : Nat) :
    reads ⟨x, d⟩ (stamp true o ('\\' :: w.lineBreak.toList)) =
      .ok ⟨x, ⟨' ' :: d.text.dropWhile Text.isSpaceOrTab, .joined⟩⟩ := by
  rcases w.is_break with h | h <;>
  · rw [h]
    rfl

/-- **A continuation** leaves one space after the body of the draft. -/
theorem reads_continuation (w : Continuation) (x : Expansion) (hd : d.Tight) (o : Nat) :
    reads ⟨x, d⟩ (stamp true o w.text.toList) = .ok ⟨x, ⟨' ' :: d.body, .joined⟩⟩ := by
  obtain ⟨d', hbefore, hd'⟩ := reads_gap w.before_gap x d o
  have hbreak := reads_break w x d' (o + Text.byteSize w.before.toList)
  rw [hd', hd.dropWhile_text] at hbreak
  rw [w.toList_text, stamp_append, reads_append_ok hbefore, ← List.cons_append, stamp_append,
    reads_append_ok hbreak]
  exact reads_skipped w.after_gap x rfl _

/-- **A space** leaves the same text, whether or not it is that of a continuation. -/
theorem reads_space (x : Expansion) (hd : d.Tight) (o : Nat) :
    ∃ d', reads ⟨x, d⟩ (stamp true o [' ']) = .ok ⟨x, d'⟩ ∧
      Segment.Draft.Alike ⟨' ' :: d.body, .joined⟩ d' := by
  have hread := d.read_gap (c := ' ') rfl o
  by_cases hj : d.tail = .joined
  · rw [if_pos hj] at hread
    refine ⟨d, ?_, (hd.text hj).symm, .inr rfl, .inr hj⟩
    rw [stamp, stamp, reads_cons, read_of_inl hread]
    rfl
  · rw [if_neg hj] at hread
    refine ⟨d.push ' ' .plain, ?_, ?_, .inr rfl, .inl rfl⟩
    · rw [stamp, stamp, reads_cons, read_of_inl hread]
      rfl
    · rw [Segment.Draft.body_of_ne_joined hj]
      rfl

/-- **Drafts that are alike** come to the same, if no space or tab follows. -/
theorem concludes_congr (h : d.Alike d')
    (hms : ∀ m ∈ ms.head?, Text.isSpaceOrTab m.char = false) (x : Expansion)
    (finish : Except ScriptError Unit) (b : Bool) :
    concludes ⟨x, d⟩ ms finish b = concludes ⟨x, d'⟩ ms finish b := by
  cases ms with
  | nil =>
    have hended : ended ⟨x, d⟩ = ended ⟨x, d'⟩ := by rw [ended, ended, h.text]
    unfold concludes
    change (Except.ok _).bind _ = (Except.ok _).bind _
    simp only [Except.bind, hended]
  | cons m ms =>
    have hread : read ⟨x, d⟩ m = read ⟨x, d'⟩ m := by
      simp only [read, h.read_eq (hms m rfl), Segment.Draft.close, h.text]
    rw [concludes, concludes, reads_cons, reads_cons, hread]

end Pass

/-! ### The two scripts -/

/-- What comes of a text that is spliced in, once the pass has read it into its draft. -/
theorem expandChars_spliced (hps : Scan.endState .start 0 ps = .start) (ht : Joins t)
    (hp : Pass.start.reads (Scan.marks .start 0 ps) = .ok p)
    (hd : p.reads (stamp true (Text.byteSize ps) t) = .ok ⟨p.expansion, d⟩) (qs : List Char) :
    expandChars (ps ++ (t ++ qs)) = Pass.concludes ⟨p.expansion, d⟩
      ((Scan.marks .start 0 qs).map
        (Mark.relocated fun o => o + (Text.byteSize ps + Text.byteSize t)))
      (relocatedResult (fun o => o + (Text.byteSize ps + Text.byteSize t)) id
        (Scan.endState .start 0 qs).finish)
      ((Scan.marks .start 0 ps).any Mark.isStructural ||
        (Scan.marks .start 0 qs).any Mark.isStructural) := by
  obtain ⟨hmarks, hfinish⟩ := marks_spliced hps ht qs
  rw [expandChars_eq_concludes, hmarks, hfinish, Pass.concludes_append_ok hp,
    Pass.concludes_append_ok hd, List.any_append, List.any_append, ht.any_isStructural,
    Bool.false_or, any_isStructural_relocated]

/-- A fault in the text before stays the fault. -/
theorem expandChars_spliced_error (hps : Scan.endState .start 0 ps = .start) (ht : Joins t)
    {e : ScriptError} (he : Pass.start.reads (Scan.marks .start 0 ps) = .error e)
    (qs : List Char) : expandChars (ps ++ (t ++ qs)) = .error e := by
  rw [expandChars_eq_concludes, (marks_spliced hps ht qs).1]
  exact Pass.concludes_append_error he _ _ _

/-- Where offsets within a text stay what they are, so does all that the pass makes of it. -/
theorem reads_fixed (hf : ∀ o, o < Text.byteSize ps → f o = o) :
    relocatedResult f (Pass.relocated f) (Pass.start.reads (Scan.marks .start 0 ps)) =
      Pass.start.reads (Scan.marks .start 0 ps) := by
  have hmarks : (Scan.marks .start 0 ps).map (Mark.relocated f) = Scan.marks .start 0 ps := by
    refine (List.map_congr_left fun m hm => ?_).trans (List.map_id _)
    have hlt := Scan.offset_lt_of_mem hm
    rw [Mark.relocated, hf m.offset (by omega), id]
  rw [← Pass.reads_relocated, hmarks]
  rfl

/-- **A continuation for a space** relocates the faults that are found after it, and changes nothing
else. -/
theorem expandChars_continued (w : Continuation) (hps : Scan.endState .start 0 ps = .start)
    (hlast : ∀ m ∈ (Scan.marks .start 0 ps).getLast?, Text.isSpaceOrTab m.char = false)
    (hqs : ∀ c ∈ qs.head?, Text.isSpaceOrTab c = false)
    (hf : ∀ o, o < Text.byteSize ps → f o = o)
    (hf' : ∀ o, f (o + (Text.byteSize ps + 1)) =
      o + (Text.byteSize ps + Text.byteSize w.text.toList)) :
    expandChars (ps ++ (w.text.toList ++ qs)) =
      relocatedResult f id (expandChars (ps ++ ([' '] ++ qs))) := by
  have hfix := reads_fixed hf
  cases hp : Pass.start.reads (Scan.marks .start 0 ps) with
  | error e =>
    rw [hp] at hfix
    rw [expandChars_spliced_error hps w.joins hp, expandChars_spliced_error hps joins_space hp]
    exact congrArg Except.error (Except.error.inj hfix).symm
  | ok p =>
    rw [hp] at hfix
    have hdraft : p.draft = .after (Scan.marks .start 0 ps) := by
      rw [Pass.eq_after_of_reads hp]
      rfl
    have htight : p.draft.Tight := hdraft ▸ Segment.Draft.tight_after hlast
    have hcont := Pass.reads_continuation w p.expansion htight (Text.byteSize ps)
    obtain ⟨d, hspace, halike⟩ := Pass.reads_space p.expansion htight (Text.byteSize ps)
    have hhead : ∀ m ∈ ((Scan.marks .start 0 qs).map (Mark.relocated fun o =>
        o + (Text.byteSize ps + Text.byteSize w.text.toList))).head?,
        Text.isSpaceOrTab m.char = false := by
      cases qs with
      | nil =>
        intro m hm
        cases hm
      | cons c qs =>
        intro m hm
        obtain rfl := Option.some.inj hm
        exact hqs c rfl
    -- the pass stands on what it has made of the first text, which is not relocated
    have hstart : Pass.relocated f ⟨p.expansion, d⟩ = ⟨p.expansion, d⟩ :=
      congrArg (fun q => Pass.mk q.expansion d) (Except.ok.inj hfix)
    have hsize : Text.byteSize [' '] = 1 := rfl
    rw [expandChars_spliced hps w.joins hp hcont, expandChars_spliced hps joins_space hp hspace,
      hsize, ← Pass.concludes_relocated, relocatedResult_relocatedResult, map_relocated_relocated,
      funext hf', hstart]
    exact Pass.concludes_congr halike hhead _ _ _

theorem Continuation.two_le_byteSize (w : Continuation) : 2 ≤ Text.byteSize w.text.toList := by
  have hslash : '\\'.utf8Size = 1 := rfl
  have hbreak : 1 ≤ Text.byteSize w.lineBreak.toList := by
    rcases w.is_break with h | h <;>
    · rw [h]
      decide
  rw [w.toList_text, Text.byteSize_append, Text.byteSize_cons, Text.byteSize_append, hslash]
  omega

/-- A text that ends in code and in no live space or tab ends in no space or tab at all: what is
inert at its end is the end of a fence. -/
theorem not_gap_of_getLast? (hps : Scan.endState .start 0 ps = .start)
    (hlast : ∀ m ∈ (Scan.marks .start 0 ps).getLast?, m.live = true →
      Text.isSpaceOrTab m.char = false) :
    ∀ m ∈ (Scan.marks .start 0 ps).getLast?, Text.isSpaceOrTab m.char = false := by
  intro m hm
  cases hlive : m.live with
  | true => exact hlast m hm hlive
  | false =>
    obtain ⟨a, ha⟩ := Scan.exists_quote_of_getLast? (Scan.owes_of_owed_eq_zero rfl) hps hm hlive
    rw [ha]
    cases a <;> rfl

/-- So it is for scripts, and for every way to relocate what is found after the continuation. Where
the space itself stands goes does not matter. -/
theorem expand_relocated {p q : String} (w : Continuation)
    (hps : Scan.endState .start 0 p.toList = .start)
    (hlast : ∀ m ∈ (Scan.marks .start 0 p.toList).getLast?, Text.isSpaceOrTab m.char = false)
    (hq : ∀ c ∈ q.toList.head?, Text.isSpaceOrTab c = false)
    (hf : ∀ o, o < p.utf8ByteSize → f o = o)
    (hf' : ∀ o, p.utf8ByteSize < o → f o = o + (w.text.utf8ByteSize - 1)) :
    expand (p ++ w.text ++ q) = relocatedResult f id (expand (p ++ " " ++ q)) := by
  have hsize := w.two_le_byteSize
  have hcont : (p ++ w.text ++ q).toList = p.toList ++ (w.text.toList ++ q.toList) := by simp
  have hplain : (p ++ " " ++ q).toList = p.toList ++ ([' '] ++ q.toList) := by simp
  rw [← Text.byteSize_toList] at hf hf'
  rw [← Text.byteSize_toList] at hf'
  rw [expand, expand, hcont, hplain]
  refine expandChars_continued w hps hlast hq hf fun o => ?_
  rw [hf' _ (by omega)]
  omega

/-- **A continuation is worth a space.** After a text that ends in code and in no live space or tab,
and before one that begins with neither, a continuation may be written for a space: the program is
the same, and so is the fault, which is found where it was before or, after the continuation, as
many bytes further on as the continuation is longer than the space. -/
theorem expand_continued {p q : String} (w : Continuation)
    (hcode : (Scan.endState .start 0 p.toList).mode = .code)
    (hlast : ∀ m ∈ (Scan.marks .start 0 p.toList).getLast?, m.live = true →
      Text.isSpaceOrTab m.char = false)
    (hq : ∀ c ∈ q.toList.head?, Text.isSpaceOrTab c = false) :
    (∀ r, expand (p ++ w.text ++ q) = .ok r ↔ expand (p ++ " " ++ q) = .ok r) ∧
    ∀ e, expand (p ++ " " ++ q) = .error e →
      (e.offset < p.utf8ByteSize ∧ expand (p ++ w.text ++ q) = .error e) ∨
      (p.utf8ByteSize < e.offset ∧ expand (p ++ w.text ++ q) =
        .error (e.moved (e.offset + (w.text.utf8ByteSize - " ".utf8ByteSize)))) := by
  have hps := Scan.endState_of_code hcode
  have hlast' := not_gap_of_getLast? hps hlast
  have hsize : 2 ≤ w.text.utf8ByteSize := by
    rw [← Text.byteSize_toList]
    exact w.two_le_byteSize
  have hspace : " ".utf8ByteSize = 1 := rfl
  have hshift := expand_relocated w hps hlast' hq
    (f := fun o => if o < p.utf8ByteSize then o else o + (w.text.utf8ByteSize - 1))
    (fun o ho => if_pos ho) fun o ho => if_neg (by omega)
  refine ⟨fun r => ?_, fun e he => ?_⟩
  · rw [hshift]
    cases expand (p ++ " " ++ q) <;> simp [relocatedResult]
  · rw [he, relocatedResult, ScriptError.relocated] at hshift
    rcases Nat.lt_trichotomy e.offset p.utf8ByteSize with hlt | heq | hgt
    · rw [if_pos hlt, e.moved_offset] at hshift
      exact .inl ⟨hlt, hshift⟩
    · -- no fault is found at the space: it could just as well have stayed there
      have hstay := expand_relocated w hps hlast' hq
        (f := fun o => if o ≤ p.utf8ByteSize then o else o + (w.text.utf8ByteSize - 1))
        (fun o ho => if_pos (by omega)) fun o ho => if_neg (by omega)
      rw [he, relocatedResult, ScriptError.relocated, if_pos heq.le, hshift] at hstay
      have hoffset := congrArg ScriptError.offset (Except.error.inj hstay)
      rw [ScriptError.offset_moved, ScriptError.offset_moved, if_neg (by omega)] at hoffset
      omega
    · rw [if_neg (by omega)] at hshift
      exact .inr ⟨hgt, hshift⟩

/-- A header is continued before its brace, in a script that expands and in one that closes a block
too many. -/
theorem expand_continued_header :
    expand ("if x" ++ " \\\r\n\t" ++ "\x7b y \x7d") =
        .ok ⟨[.statement 0 "if x:", .statement 1 "y"], true⟩ ∧
      expand ("if x" ++ " \\\r\n\t" ++ "\x7b y \x7d\x7d") = .error (.unbalancedBrace 14) := by
  obtain ⟨w, hw⟩ : ∃ w : Continuation, w.text = " \\\r\n\t" :=
    ⟨⟨" ", "\r\n", "\t", by simp [Text.isSpaceOrTab], .inr rfl, by simp [Text.isSpaceOrTab]⟩, rfl⟩
  have hcode : (Scan.endState .start 0 "if x".toList).mode = .code := by decide
  have hlast : ∀ m ∈ (Scan.marks .start 0 "if x".toList).getLast?, m.live = true →
      Text.isSpaceOrTab m.char = false := by decide
  rw [← hw]
  constructor
  · have h := expand_continued (q := "\x7b y \x7d") w hcode hlast (by simp [Text.isSpaceOrTab])
    exact (h.1 _).2 (by decide)
  · have h := expand_continued (q := "\x7b y \x7d\x7d") w hcode hlast (by simp [Text.isSpaceOrTab])
    rcases h.2 (.unbalancedBrace 10) (by decide) with ⟨hlt, -⟩ | ⟨-, herror⟩
    · exact absurd hlt (by decide)
    · rw [herror, hw]
      decide

end Braceline
