import Braceline.Proofs.Alone
import Braceline.Proofs.Rendered

/-!
# Where the characters of a statement stem from

Each character of a statement is one of its script. Only the space of a line continuation stands
for the line break, and the colon of a header may stand for the brace after it. A statement on its
own is scanned from a fresh state, without the text around it in the script, and yet each of its
characters is live exactly if it is so in the script.

* `sources`: the marks that the characters of a draft stem from.
* `sourceStep`: what a mark does to a draft and its sources.
* `faithful_sources`: the scan of a draft finds them as they are. The induction is along the script,
  and takes along that the scan stands alike after the draft and in the script.
* `tracked_of_mem_place`: so does the scan of what a statement is made of.
* `statements_scanned_alike`: all of it, for the statements of a program.
-/

namespace Braceline

/-- **Does the mark stem from one of these?** It is one of them, or the space for a line break, or
the colon for an opening brace. -/
def Mark.StemsFrom (m : Mark) (ms : List Mark) : Prop :=
  m ∈ ms ∨ (m.is ' ' = true ∧ { m with char := '\n' } ∈ ms) ∨
    (m.is ':' = true ∧ { m with char := '{' } ∈ ms)

namespace Segment.Draft

/-- The sources of a draft, last first, after a continuation that ends in `m`. It takes back the
last `n` of them, and those of the spaces and tabs before. -/
def joinSources (os : List Mark) (n : Nat) (m : Mark) : List Mark :=
  { m with char := ' ' } :: (os.drop n).dropWhile fun o => Text.isSpaceOrTab o.char

/-- The sources of the draft after one more mark, if they were `os` before. -/
def nextSources (d : Draft) (os : List Mark) (m : Mark) : List Mark :=
  match d.read m with
  | .inr _ => []
  | .inl d' =>
    match d'.tail, d.tail with
    | .joined, .joined => os
    | .joined, .slash => joinSources os 1 m
    | .joined, _ => joinSources os 2 m
    | _, _ => m :: os

/-- The draft under way after the marks, with its sources. -/
def traced (ms : List Mark) : Draft × List Mark :=
  ms.foldl (fun s m => (s.1.next m, s.1.nextSources s.2 m)) (.empty, [])

/-- **The marks that the characters of the draft stem from**, last first. -/
def sources (ms : List Mark) : List Mark := (traced ms).2

end Segment.Draft

/-- The sources of the statement that a text holds, if it is not blank. -/
def statementSources (os : List Mark) : List (List Mark) :=
  match trimMarks os with
  | [] => []
  | os => [os]

/-- The sources of a header with its colon, before the brace `m`. -/
def headerSources (os : List Mark) (m : Mark) : List Mark :=
  if (os.map Mark.char).getLast? = some ':' then os else os ++ [{ m with char := ':' }]

/-- The sources of the statements that a place makes. -/
def Place.sources (p : Place) : List (List Mark) :=
  let os := (Segment.Draft.sources p.before).reverse
  match (Segment.Draft.after p.before).read p.mark with
  | .inl _ => []
  | .inr (.openBrace _) =>
    match Segment.beforeEachLine? (os.map Mark.char) with
    | some _ => statementSources os.dropLast.dropLast
    | none => [headerSources (trimMarks os) p.mark]
  | .inr _ => statementSources os

/-- **The sources of the statements of a script**, one list for each, in order. -/
def sourcesOf (ms : List Mark) : List (List Mark) :=
  (places ms).flatMap Place.sources ++ statementSources (Segment.Draft.sources ms).reverse

/-- The text of a statement. -/
def Line.text? : Line → Option String
  | .statement _ text => some text
  | .eachLine _ => none

variable {os us ms ns : List Mark} {m : Mark} {cs ds rest : List Char} {d : Segment.Draft}

/-! ### The sources of a draft -/

theorem Mark.StemsFrom.append (h : m.StemsFrom ms) (ns : List Mark) : m.StemsFrom (ms ++ ns) := by
  rcases h with h | ⟨h, hm⟩ | ⟨h, hm⟩
  · exact .inl (List.mem_append_left _ h)
  · exact .inr (.inl ⟨h, List.mem_append_left _ hm⟩)
  · exact .inr (.inr ⟨h, List.mem_append_left _ hm⟩)

namespace Segment.Draft

theorem traced_concat (ms : List Mark) (m : Mark) :
    traced (ms ++ [m]) =
      ((traced ms).1.next m, (traced ms).1.nextSources (traced ms).2 m) := by
  rw [traced, List.foldl_append]
  rfl

theorem traced_fst (ms : List Mark) : (traced ms).1 = after ms := by
  induction ms using List.reverseRecOn with
  | nil => rfl
  | append_singleton ms m ih => rw [traced_concat, ih, after_concat]

theorem sources_concat (ms : List Mark) (m : Mark) :
    sources (ms ++ [m]) = (after ms).nextSources (sources ms) m := by
  rw [sources, traced_concat, traced_fst]
  rfl

/-- **What a mark does to a draft and its sources.** -/
inductive SourceStep (d : Draft) (os : List Mark) : Mark → Draft → List Mark → Prop where
  /-- The mark ends the segment. -/
  | stop {m : Mark} (hm : m.live = true) : SourceStep d os m .empty []
  /-- The mark is text. -/
  | text {m : Mark} {tail : Tail} (hbreak : m.is '\n' = false)
    (hslash : tail = .slash → m.is '\\' = true)
    (hreturn : tail = .slashReturn → d.tail = .slash) (hjoined : tail ≠ .joined) :
    SourceStep d os m (d.push m.char tail) (m :: os)
  /-- The mark is a blank after the space of a continuation. -/
  | skip {m : Mark} (hm : m.live = true) (ht : d.tail = .joined) : SourceStep d os m d os
  /-- The mark completes a continuation of `n` characters before it. -/
  | join {o n : Nat} (hn : n = 1 ∧ d.tail = .slash ∨ n = 2 ∧ d.tail = .slashReturn) :
    SourceStep d os ⟨o, '\n', true⟩ (d.join n) (joinSources os n ⟨o, '\n', true⟩)

theorem sourceStep (d : Draft) (os : List Mark) (m : Mark) :
    SourceStep d os m (d.next m) (d.nextSources os m) := by
  have hstep := d.step_read m
  unfold next nextSources
  generalize d.read m = r at hstep
  cases hstep with
  | openBrace | closeBrace | semicolon | lineBreak => exact .stop rfl
  | join o ht =>
    simp only [ht]
    exact .join (.inl ⟨rfl, ht⟩)
  | joinReturn o ht =>
    simp only [ht]
    exact .join (.inr ⟨rfl, ht⟩)
  | slash => exact .text rfl (fun _ => rfl) nofun nofun
  | slashReturn o ht => exact .text rfl nofun (fun _ => ht) nofun
  | skip o c hc ht =>
    simp only [ht]
    exact .skip rfl ht
  | live o c hs hn => exact .text (by simpa using hn) nofun nofun nofun
  | inert => exact .text rfl nofun nofun nofun

/-- The draft and its sources after the marks `ms` go together. -/
structure Sourced (ms : List Mark) (d : Draft) (os : List Mark) : Prop where
  text : os.map Mark.char = d.text
  slash : d.tail = .slash → ∃ b us, os = b :: us ∧ b.is '\\' = true
  slashReturn : d.tail = .slashReturn → ∃ a b us, os = a :: b :: us ∧ b.is '\\' = true
  joined : d.tail = .joined → ∃ a us, os = a :: us ∧ a.live = true
  noBreak : ∀ m ∈ os, m.is '\n' = false
  stems : ∀ m ∈ os, m.StemsFrom ms
  offsets : (os.reverse.map Mark.offset).Sublist (ms.map Mark.offset)

/-- A new draft has no sources. -/
theorem sourced_empty (ms : List Mark) : Sourced ms .empty [] := by
  refine ⟨rfl, nofun, nofun, nofun, ?_, ?_, List.nil_sublist _⟩
  · exact fun m hm => absurd hm List.not_mem_nil
  · exact fun m hm => absurd hm List.not_mem_nil

/-- Where a continuation is completed, its backslash is one of the sources, and live. -/
theorem Sourced.exists_slash (h : Sourced ms d os) {n : Nat}
    (hn : n = 1 ∧ d.tail = .slash ∨ n = 2 ∧ d.tail = .slashReturn) :
    ∃ front b, os = front ++ b :: os.drop n ∧ b.is '\\' = true := by
  rcases hn with ⟨rfl, ht⟩ | ⟨rfl, ht⟩
  · obtain ⟨b, us, rfl, hb⟩ := h.slash ht
    exact ⟨[], b, rfl, hb⟩
  · obtain ⟨a, b, us, rfl, hb⟩ := h.slashReturn ht
    exact ⟨[a], b, rfl, hb⟩

/-- What a continuation leaves of the sources was there before. -/
theorem mem_of_mem_dropWhile_drop {q : Mark → Bool} {n : Nat} (h : m ∈ (os.drop n).dropWhile q) :
    m ∈ os :=
  List.mem_of_mem_drop ((List.dropWhile_sublist q).subset h)

/-- **Reading a mark** keeps a draft and its sources together. -/
theorem Sourced.next (h : Sourced ms d os) (m : Mark) :
    Sourced (ms ++ [m]) (d.next m) (d.nextSources os m) := by
  have hstep := sourceStep d os m
  generalize d.next m = d', d.nextSources os m = os' at hstep
  have hgrown : (os.reverse.map Mark.offset).Sublist ((ms ++ [m]).map Mark.offset) := by
    rw [List.map_append]
    exact h.offsets.trans (List.sublist_append_left _ _)
  cases hstep with
  | stop hm => exact sourced_empty _
  | @text m tail hbreak hslash hreturn hjoined =>
    refine ⟨?_, ?_, ?_, ?_, ?_, ?_, ?_⟩
    · rw [List.map_cons, h.text]
      rfl
    · intro ht
      exact ⟨m, os, rfl, hslash ht⟩
    · intro ht
      obtain ⟨b, us, rfl, hb⟩ := h.slash (hreturn ht)
      exact ⟨m, b, us, rfl, hb⟩
    · intro ht
      exact absurd ht hjoined
    · intro m' hm'
      rcases List.mem_cons.1 hm' with rfl | hm'
      · exact hbreak
      · exact h.noBreak m' hm'
    · intro m' hm'
      rcases List.mem_cons.1 hm' with rfl | hm'
      · exact .inl (List.mem_append_right _ List.mem_cons_self)
      · exact (h.stems m' hm').append _
    · rw [List.reverse_cons, List.map_append, List.map_append]
      exact h.offsets.append (List.Sublist.refl _)
  | skip hm ht =>
    refine ⟨h.text, h.slash, h.slashReturn, h.joined, h.noBreak, ?_, hgrown⟩
    intro m' hm'
    exact (h.stems m' hm').append _
  | @join o n hn =>
    refine ⟨?_, nofun, nofun, fun _ => ⟨_, _, rfl, rfl⟩, ?_, ?_, ?_⟩
    · rw [joinSources, List.map_cons, Draft.join, ← h.text, ← List.map_drop, List.dropWhile_map]
      rfl
    · intro m' hm'
      rcases List.mem_cons.1 hm' with rfl | hm'
      · rfl
      · exact h.noBreak m' (mem_of_mem_dropWhile_drop hm')
    · intro m' hm'
      rcases List.mem_cons.1 hm' with rfl | hm'
      · exact .inr (.inl ⟨rfl, List.mem_append_right _ List.mem_cons_self⟩)
      · exact (h.stems m' (mem_of_mem_dropWhile_drop hm')).append _
    · have hsub : ((os.drop n).dropWhile fun m => Text.isSpaceOrTab m.char).Sublist os :=
        (List.dropWhile_sublist _).trans (List.drop_sublist n os)
      have hoffsets := (hsub.reverse.map Mark.offset).trans h.offsets
      rw [joinSources, List.reverse_cons, List.map_append, List.map_append]
      exact hoffsets.append (List.Sublist.refl _)

theorem sourced_after (ms : List Mark) : Sourced ms (after ms) (sources ms) := by
  induction ms using List.reverseRecOn with
  | nil => exact sourced_empty []
  | append_singleton ms m ih =>
    rw [after_concat, sources_concat]
    exact ih.next m

/-- The sources spell the draft. -/
theorem map_char_sources (ms : List Mark) :
    (sources ms).reverse.map Mark.char = (after ms).text.reverse := by
  rw [List.map_reverse, (sourced_after ms).text]

end Segment.Draft

/-! ### The scan of a draft -/

/-- **A continuation's sources are found**, and the scan stands in code before its space: the
backslash that it takes back was live. -/
theorem faithful_joinSources {n : Nat} (h : Segment.Draft.Sourced ms d os)
    (hos : Faithful os.reverse)
    (hn : n = 1 ∧ d.tail = .slash ∨ n = 2 ∧ d.tail = .slashReturn) (o : Nat) :
    Faithful (Segment.Draft.joinSources os n ⟨o, '\n', true⟩).reverse := by
  obtain ⟨front, b, hsplit, hb⟩ := h.exists_slash hn
  rw [Segment.Draft.joinSources, List.reverse_cons]
  generalize os.drop n = us at hsplit ⊢
  have hbreak : ∀ m ∈ us, m.is '\n' = false := by
    intro m hm
    exact h.noBreak m (by rw [hsplit]; exact List.mem_append_right _ (List.mem_cons_of_mem _ hm))
  -- the scan stands in code before the backslash, and so it does before the blanks there
  have hslash : Faithful (us.reverse ++ [b]) := by
    rw [hsplit, List.reverse_append, List.reverse_cons] at hos
    exact hos.of_append
  have hbs := Mark.eq_of_is hb
  have hcode : Scan.endState .start 0 (us.reverse.map Mark.char) = .start := by
    refine hslash.endState_of_live (by rw [hbs]) ?_
    rw [hbs]
    show '\\' ≠ '\n'
    decide
  have hstart := Faithful.endState_dropWhile (fun c hc => Text.isBlank_of_isSpaceOrTab hc)
    hslash.of_append hbreak hcode
  have hleft : Faithful (us.dropWhile fun m => Text.isSpaceOrTab m.char).reverse := by
    have hall := hslash.of_append
    rw [← List.takeWhile_append_dropWhile (p := fun m => Text.isSpaceOrTab (Mark.char m)) (l := us),
      List.reverse_append] at hall
    exact hall.of_append
  refine hleft.concat [] ?_
  have hspace := Scan.stateBefore_of_head?
    ((us.dropWhile fun m => Text.isSpaceOrTab m.char).reverse.map Mark.char) [' ']
    fun c hc => by cases hc; rfl
  rw [hspace, hstart]
  rfl

/-- **The scan of a draft** finds its sources as they are in the script. Before any rest of the
script, it stands there as the scan of the script does. -/
theorem faithful_sources (ds rest : List Char) :
    Faithful (Segment.Draft.sources (Scan.marks .start 0 ds)).reverse ∧
      (Scan.stateBefore ((Segment.Draft.sources (Scan.marks .start 0 ds)).reverse.map Mark.char)
        rest).placeless = (Scan.stateBefore ds rest).placeless := by
  induction ds using List.reverseRecOn generalizing rest with
  | nil => exact ⟨.nil, rfl⟩
  | append_singleton ds c ih =>
    obtain ⟨hos, hstate⟩ := ih (c :: rest)
    have hsourced := Segment.Draft.sourced_after (Scan.marks .start 0 ds)
    rw [Scan.marks_concat ds c rest, Segment.Draft.sources_concat]
    generalize Segment.Draft.sources (Scan.marks .start 0 ds) = os at hos hstate hsourced
    generalize Segment.Draft.after (Scan.marks .start 0 ds) = d at hsourced
    generalize hm : (⟨Text.byteSize ds, c,
      ((Scan.stateBefore ds (c :: rest)).step (Text.byteSize ds) c rest).2⟩ : Mark) = m
    -- after a live mark the scan of the script stands as it starts
    have hlive (h : m.live = true) : Scan.stateBefore (ds ++ [c]) rest = .start := by
      rw [← hm] at h
      rw [Scan.stateBefore_concat, (Scan.step_of_live h).1]
    have hstep := Segment.Draft.sourceStep d os m
    generalize d.next m = d', d.nextSources os m = os' at hstep
    cases hstep with
    | stop h =>
      rw [hlive h]
      exact ⟨.nil, rfl⟩
    | skip h ht =>
      obtain ⟨a, us, rfl, ha⟩ := hsourced.joined ht
      rw [hlive h]
      rw [List.reverse_cons] at hos ⊢
      exact ⟨hos, by rw [hos.stateBefore_of_live ha]⟩
    | @join o n hn =>
      have hjoined := faithful_joinSources hsourced hos hn o
      rw [hlive rfl]
      refine ⟨hjoined, ?_⟩
      rw [Segment.Draft.joinSources, List.reverse_cons] at hjoined ⊢
      rw [hjoined.stateBefore_of_live rfl]
    | text =>
      obtain ⟨hsame, hnext⟩ := Scan.step_placeless hstate
        (Text.byteSize (os.reverse.map Mark.char)) (Text.byteSize ds) c rest
      have hchar : m.char = c := by rw [← hm]
      have hmlive : m.live =
        ((Scan.stateBefore ds (c :: rest)).step (Text.byteSize ds) c rest).2 := by rw [← hm]
      rw [List.reverse_cons]
      refine ⟨hos.concat rest ?_, ?_⟩
      · rw [hchar, hmlive]
        exact hsame
      · rw [List.map_append, List.map_singleton, hchar, Scan.stateBefore_concat,
          Scan.stateBefore_concat]
        exact hnext

/-! ### The sources of statements -/

/-- The text of marks. -/
def spelled (os : List Mark) : String := String.ofList (os.map Mark.char)

/-- **Sources of a statement** in a script with the marks `ms`: they stem from it, in order, and a
scan of the statement alone finds them as they are. -/
structure Tracked (ms os : List Mark) : Prop where
  stems : ∀ m ∈ os, m.StemsFrom ms
  offsets : (os.map Mark.offset).Sublist (ms.map Mark.offset)
  faithful : Faithful os

theorem tracked_sources (ds : List Char) :
    Tracked (Scan.marks .start 0 ds) (Segment.Draft.sources (Scan.marks .start 0 ds)).reverse where
  stems m hm := (Segment.Draft.sourced_after _).stems m (List.mem_reverse.1 hm)
  offsets := (Segment.Draft.sourced_after _).offsets
  faithful := (faithful_sources ds []).1

namespace Tracked

theorem append (h : Tracked ms os) (ns : List Mark) : Tracked (ms ++ ns) os where
  stems m hm := (h.stems m hm).append ns
  offsets := by
    rw [List.map_append]
    exact h.offsets.trans (List.sublist_append_left _ _)
  faithful := h.faithful

/-- Some of the sources are sources, if they are found. -/
theorem of_sublist (h : Tracked ms os) (hus : us.Sublist os) (hf : Faithful us) :
    Tracked ms us where
  stems m hm := h.stems m (hus.subset hm)
  offsets := (hus.map Mark.offset).trans h.offsets
  faithful := hf

theorem trim (h : Tracked ms os) : Tracked ms (trimMarks os) :=
  h.of_sublist (trimMarks_sublist os) h.faithful.trim

theorem dropLast (h : Tracked ms os) : Tracked ms os.dropLast := by
  refine h.of_sublist (List.dropLast_sublist os) ?_
  rcases List.eq_nil_or_concat os with rfl | ⟨us, m, rfl⟩
  · exact .nil
  · have hf := h.faithful
    rw [List.concat_eq_append] at hf ⊢
    rw [List.dropLast_concat]
    exact hf.of_append

theorem of_mem_statementSources (h : Tracked ms os) (hus : us ∈ statementSources os) :
    Tracked ms us := by
  have htrim := h.trim
  unfold statementSources at hus
  split at hus
  · exact absurd hus List.not_mem_nil
  · next hne =>
    rw [List.mem_singleton.1 hus]
    exact htrim

/-- **A header's colon is live** on its own, too, since the brace after the header is. -/
theorem header {n : Nat} (h : Tracked ms os)
    (hcode : Scan.endState .start 0 (os.map Mark.char) = .start) :
    Tracked (ms ++ [⟨n, '{', true⟩]) (headerSources os ⟨n, '{', true⟩) := by
  unfold headerSources
  split
  · exact h.append _
  · refine ⟨?_, ?_, h.faithful.concat [] ?_⟩
    · intro m hm
      rcases List.mem_append.1 hm with hm | hm
      · exact (h.append _).stems m hm
      · obtain rfl := List.mem_singleton.1 hm
        exact .inr (.inr ⟨rfl, List.mem_append_right _ List.mem_cons_self⟩)
    · rw [List.map_append, List.map_append]
      exact h.offsets.append (List.Sublist.refl _)
    · rw [Scan.stateBefore_of_head? _ [':'] fun c hc => by cases hc; rfl, hcode]
      rfl

end Tracked

theorem char_of_read_openBrace {n o : Nat} {c : Char} {live : Bool}
    (h : d.read ⟨n, c, live⟩ = .inr (.openBrace o)) : c = '{' := by
  have hstep := d.step_read ⟨n, c, live⟩
  rw [h] at hstep
  cases hstep with
  | openBrace => rfl

/-- What stands before an opening brace, trimmed, ends in code on its own. -/
theorem endState_trim_before {n : Nat}
    (h : Scan.marks .start 0 cs = ms ++ ⟨n, '{', true⟩ :: ns) :
    Scan.endState .start 0 (Text.trim (Segment.Draft.after ms).text.reverse) = .start := by
  obtain ⟨front, hfront, htext⟩ := exists_whole h
  obtain ⟨front', htrim, -, hspace⟩ := hfront.exists_trim
  rw [htext, htrim]
  exact (hspace '{' rfl (by decide)).endState

/-- **The sources that a place of a script makes** are sources of statements. -/
theorem tracked_of_mem_place {p : Place} (hp : p ∈ places (Scan.marks .start 0 cs))
    (hos : os ∈ p.sources) : Tracked (Scan.marks .start 0 cs) os := by
  obtain ⟨before, n, c, live⟩ := p
  obtain ⟨after, hms⟩ := mem_places.1 hp
  have hms : Scan.marks .start 0 cs = before ++ [⟨n, c, live⟩] ++ after := by simpa using hms
  rw [hms]
  unfold Place.sources at hos
  simp only at hos
  cases hread : (Segment.Draft.after before).read ⟨n, c, live⟩ with
  | inl d =>
    rw [hread] at hos
    exact absurd hos List.not_mem_nil
  | inr stop =>
    obtain rfl : live = true := Pass.live_of_read_inr hread
    have hcut : Scan.marks .start 0 cs = before ++ ⟨n, c, true⟩ :: after := by
      rw [hms, List.append_assoc]
      rfl
    obtain ⟨ds, es, -, -, -, hbefore, -⟩ := Scan.exists_cut hcut
    have htracked := tracked_sources ds
    rw [← hbefore] at htracked
    rw [hread] at hos
    have hstatement (hos : os ∈ statementSources (Segment.Draft.sources before).reverse) :
        Tracked (before ++ [⟨n, c, true⟩] ++ after) os :=
      ((htracked.of_mem_statementSources hos).append _).append _
    cases stop with
    | closeBrace | semicolon | lineBreak | endOfScript => exact hstatement hos
    | openBrace o =>
      simp only at hos
      split at hos
      · have hshort := htracked.dropLast.dropLast.of_mem_statementSources hos
        exact (hshort.append _).append _
      · obtain rfl := List.mem_singleton.1 hos
        obtain rfl : c = '{' := char_of_read_openBrace hread
        refine (htracked.trim.header ?_).append _
        rw [map_char_trimMarks, Segment.Draft.map_char_sources]
        exact endState_trim_before hcut

theorem tracked_of_mem_sourcesOf (hos : os ∈ sourcesOf (Scan.marks .start 0 cs)) :
    Tracked (Scan.marks .start 0 cs) os := by
  rcases List.mem_append.1 hos with hos | hos
  · obtain ⟨p, hp, hos⟩ := List.mem_flatMap.1 hos
    exact tracked_of_mem_place hp hos
  · exact (tracked_sources cs).of_mem_statementSources hos

/-! ### The statements of a program -/

theorem texts_statements (level : Nat) (os : List Mark) :
    (statements level (os.map Mark.char)).filterMap Line.text? =
      (statementSources os).map spelled := by
  have htrim := map_char_trimMarks os
  unfold statements statementSources
  cases hos : trimMarks os with
  | nil =>
    rw [hos] at htrim
    rw [← htrim]
    rfl
  | cons m us =>
    rw [hos] at htrim
    rw [← htrim]
    rfl

theorem map_char_headerSources (os : List Mark) (m : Mark) :
    (headerSources os m).map Mark.char = Segment.withColon (os.map Mark.char) := by
  unfold headerSources Segment.withColon
  split
  · rfl
  · rw [List.map_append]
    rfl

/-- What stands before the word of the loop is all but its two letters. -/
theorem dropLast_of_beforeEachLine? {front : List Char}
    (h : Segment.beforeEachLine? (os.map Mark.char) = some front) :
    front = os.dropLast.dropLast.map Mark.char := by
  rw [← List.reverse_reverse (os.map Mark.char)] at h
  have hword := Segment.eq_cons_of_beforeEachLine? h
  have hchars : os.map Mark.char = front ++ ['E'] ++ ['L'] := by
    rw [← List.reverse_reverse (os.map Mark.char), hword]
    simp
  rw [List.map_dropLast, List.map_dropLast, hchars, List.dropLast_concat, List.dropLast_concat]

/-- The statements that a place makes are spelled by their sources. -/
theorem texts_lines (p : Place) : p.lines.filterMap Line.text? = p.sources.map spelled := by
  obtain ⟨before, m⟩ := p
  unfold Place.lines Place.sources Segment.lines
  simp only
  cases (Segment.Draft.after before).read m with
  | inl d => rfl
  | inr stop =>
    simp only [Segment.Draft.close, ← Segment.Draft.map_char_sources]
    cases stop with
    | closeBrace | semicolon | lineBreak | endOfScript => exact texts_statements _ _
    | openBrace o =>
      simp only
      cases hloop : Segment.beforeEachLine?
          ((Segment.Draft.sources before).reverse.map Mark.char) with
      | none =>
        simp only [List.filterMap_cons, Line.text?, List.filterMap_nil, List.map_cons, List.map_nil]
        rw [spelled, map_char_headerSources, map_char_trimMarks]
      | some front =>
        simp only [List.filterMap_append]
        rw [dropLast_of_beforeEachLine? hloop, texts_statements]
        exact List.append_nil _

/-- **The statements of a program** are spelled by the sources of its script. -/
theorem texts_programOf (ms : List Mark) :
    (programOf ms).lines.filterMap Line.text? = (sourcesOf ms).map spelled := by
  rw [programOf, sourcesOf, List.filterMap_append, List.map_append,
    ← Segment.Draft.map_char_sources, texts_statements, List.filterMap_flatMap, List.map_flatMap]
  simp only [texts_lines]

/-- **The text of a statement** expands to itself, outside of blocks. -/
theorem expand_of_clean {text : String} (h : Clean text.toList) :
    expand text = .ok ⟨[.statement 0 text], false⟩ := by
  have hreads := (Pass.reads_text .start h.unbroken.noStop).1
  have hdraft := Pass.text_after_unbroken h.unbroken 0
  refine expandChars_eq_ok_iff.2 ⟨_, hreads, h.unbroken.closed, rfl, ?_⟩
  have hlines : (Expansion.start.emit text.toList).lines.reverse = [.statement 0 text] := by
    rw [emit_eq, statements_of_trim h.trim_eq h.ne_nil]
    rfl
  have hflat : (Scan.marks .start 0 text.toList).any Mark.isStructural = false := by
    rw [List.any_eq_false]
    intro m hm
    have hstop := h.unbroken.noStop m hm
    rw [Mark.isStop, Bool.or_eq_false_iff] at hstop
    rw [hstop.1]
    exact Bool.false_ne_true
  rw [Pass.ended, hdraft, hlines, hflat]

/-- **Every statement is clean on its own.** It is not empty, no blank stands at either end of it,
and it expands to itself and nothing else, as a bare expression. Its characters are those of its
script, in order, but for the space of a continuation and the colon of a header; and a scan of the
statement alone finds each of them live or inert, as it is in the script. -/
theorem statements_scanned_alike {script : String} {p : Program} (h : expand script = .ok p) :
    (∀ level text, .statement level text ∈ p.lines →
      text ≠ "" ∧ (∀ c ∈ text.toList.head?, Text.isBlank c = false) ∧
        (∀ c ∈ text.toList.getLast?, Text.isBlank c = false) ∧
        ∃ q, expand text = .ok q ∧ q.lines = [.statement 0 text] ∧ q.structural = false ∧
          q.isExpression = true) ∧
    p.lines.filterMap Line.text? =
      (sourcesOf (Scan.marks .start 0 script.toList)).map spelled ∧
    ∀ os ∈ sourcesOf (Scan.marks .start 0 script.toList),
      (∀ m ∈ os, m.StemsFrom (Scan.marks .start 0 script.toList)) ∧
        os.Pairwise (fun m m' => m.offset < m'.offset) ∧
        (Scan.marks .start 0 (spelled os).toList).map Mark.live = os.map Mark.live := by
  obtain ⟨hp, -⟩ := eq_programOf_of_expand h
  refine ⟨fun level text hline => ?_, ?_, fun os hos => ?_⟩
  · obtain ⟨hclean, -⟩ : (Line.statement level text).Sound :=
      (laid_of_expandChars h).1.sound _ (List.mem_reverse.2 hline)
    have hfirst := Text.head?_trim_not_blank text.toList
    have hlast := Text.getLast?_trim_not_blank text.toList
    rw [hclean.trim_eq] at hfirst hlast
    refine ⟨?_, hfirst, hlast, _, expand_of_clean hclean, rfl, rfl, rfl⟩
    rintro rfl
    exact hclean.ne_nil rfl
  · rw [hp]
    exact texts_programOf _
  · obtain ⟨hstems, hoffsets, hfaithful⟩ := tracked_of_mem_sourcesOf hos
    refine ⟨hstems, ?_, ?_⟩
    · have hgrowing := (Scan.pairwise_offset .start 0 script.toList).map Mark.offset
        (S := (· < ·)) fun _ _ hlt => hlt
      exact List.pairwise_map.1 (hgrowing.sublist hoffsets)
    · rw [spelled, String.toList_ofList]
      have hlive := congrArg (List.map Mark.live) hfaithful
      rw [List.map_map, List.map_map] at hlive
      exact hlive

/-- A continuation, a literal and a comment, and then a header without its colon. The space of the
continuation stands for the line break at byte 3, and the colon for the brace at byte 12. -/
theorem statements_scanned_alike_of_lines :
    expand "a \\\n ';'#c\nx\x7b\x7d" =
        .ok ⟨[.statement 0 "a ';'#c", .statement 0 "x:"], true⟩ ∧
      (∃ q, expand "a ';'#c" = .ok q ∧ q.lines = [.statement 0 "a ';'#c"] ∧
        q.structural = false ∧ q.isExpression = true) ∧
      (Scan.marks .start 0 (spelled [⟨11, 'x', true⟩, ⟨12, ':', true⟩]).toList).map Mark.live =
        [true, true] ∧
      (Scan.marks .start 0 (spelled [⟨0, 'a', true⟩, ⟨3, ' ', true⟩, ⟨5, '\'', false⟩,
        ⟨6, ';', false⟩, ⟨7, '\'', false⟩, ⟨8, '#', false⟩, ⟨9, 'c', false⟩]).toList).map
          Mark.live = [true, true, false, false, false, false, false] := by
  have hexpand : expand "a \\\n ';'#c\nx\x7b\x7d" =
      .ok ⟨[.statement 0 "a ';'#c", .statement 0 "x:"], true⟩ := by decide
  obtain ⟨hclean, -, hsources⟩ := statements_scanned_alike hexpand
  obtain ⟨-, -, -, hq⟩ := hclean 0 "a ';'#c" List.mem_cons_self
  have hheader := hsources [⟨11, 'x', true⟩, ⟨12, ':', true⟩] (by decide)
  have hfirst := hsources [⟨0, 'a', true⟩, ⟨3, ' ', true⟩, ⟨5, '\'', false⟩, ⟨6, ';', false⟩,
    ⟨7, '\'', false⟩, ⟨8, '#', false⟩, ⟨9, 'c', false⟩] (by decide)
  exact ⟨hexpand, hq, hheader.2.2, hfirst.2.2⟩

end Braceline
