import Braceline.Proofs.Prefixes
import Braceline.Proofs.Restart

/-!
# A stretch of a script on its own

A stretch of a script may be scanned on its own, from a fresh state and with nothing after it. Some
marks of the script are *faithful*: the scan of their characters alone finds each of them as live or
inert as it is. The first of such marks are, since no mark depends on what comes after it. Blanks at
the front may be dropped, since a scan starts in code; and so may blanks at the end of code.

* `stateBefore`, `stateBefore_concat`: where a scan stands after a text, with more text after it.
* `Faithful.concat`: one more mark is faithful if it is as live as the scan finds it there.
* `Faithful.stateBefore_of_live`, `Faithful.endState_of_live`: at a live mark the scan starts anew,
  and it stands in code before it.
* `Faithful.trim`: a trimmed text is scanned as it is in the whole.
-/

namespace Braceline

/-- The mark wherever it stands. -/
def Mark.placeless (m : Mark) : Mark := m.relocated fun _ => 0

/-- Is the character blank, live or not? -/
def Mark.isBlank (m : Mark) : Bool := Text.isBlank m.char

/-- Marks without the blanks at either end. -/
def trimMarks (os : List Mark) : List Mark :=
  ((os.dropWhile Mark.isBlank).reverse.dropWhile Mark.isBlank).reverse

/-- **A scan of the marks' characters alone** finds the marks, wherever they stand. -/
def Faithful (os : List Mark) : Prop :=
  (Scan.marks .start 0 (os.map Mark.char)).map Mark.placeless = os.map Mark.placeless

namespace Scan

/-- The state wherever its literal began. -/
def State.placeless (s : State) : State := s.relocated fun _ => 0

/-- The state that a scan has come to after a text, with more text after it. -/
def stateBefore (cs rest : List Char) : State :=
  stateAfter .start ((readings .start 0 (cs ++ rest)).take cs.length)

variable {s s' : State} {o o' : Nat} {c : Char} {cs ds rest : List Char}

/-! ### A text before more text -/

/-- Before a character that is no quote, the rest does not matter. -/
theorem stateBefore_of_head? (cs rest : List Char)
    (h : ∀ c ∈ rest.head?, Quote.ofChar? c = none) :
    stateBefore cs rest = endState .start 0 cs := by
  have hlength : (readings .start 0 cs).length = cs.length := length_readings _ _ _
  rw [stateBefore, readings_append h, ← hlength, List.take_left]
  rfl

/-- What the scan reads after the text, and the rest. -/
theorem drop_readings (cs : List Char) (c : Char) (rest : List Char) :
    (readings .start 0 (cs ++ c :: rest)).drop cs.length =
      (⟨Text.byteSize cs, c, ((stateBefore cs (c :: rest)).step (Text.byteSize cs) c rest).2⟩,
        ((stateBefore cs (c :: rest)).step (Text.byteSize cs) c rest).1) ::
      readings ((stateBefore cs (c :: rest)).step (Text.byteSize cs) c rest).1
        (Text.byteSize cs + c.utf8Size) rest := by
  rw [readings_drop, Nat.zero_add]
  rfl

theorem take_readings_concat (cs : List Char) (c : Char) (rest : List Char) :
    (readings .start 0 (cs ++ [c] ++ rest)).take (cs ++ [c]).length =
      (readings .start 0 (cs ++ c :: rest)).take cs.length ++
        [(⟨Text.byteSize cs, c, ((stateBefore cs (c :: rest)).step (Text.byteSize cs) c rest).2⟩,
          ((stateBefore cs (c :: rest)).step (Text.byteSize cs) c rest).1)] := by
  rw [List.append_assoc, List.singleton_append, List.length_append, List.length_singleton,
    List.take_add, drop_readings]
  rfl

/-- The state after one more character. -/
theorem stateBefore_concat (cs : List Char) (c : Char) (rest : List Char) :
    stateBefore (cs ++ [c]) rest =
      ((stateBefore cs (c :: rest)).step (Text.byteSize cs) c rest).1 := by
  rw [stateBefore, take_readings_concat, stateAfter_append]
  rfl

/-- The marks of a text are those that it has before any more text. -/
theorem marks_eq_take (cs rest : List Char) :
    marks .start 0 cs = ((readings .start 0 (cs ++ rest)).take cs.length).map Prod.fst := by
  have hfront := marks_prefix .start 0 cs rest
  rw [List.prefix_iff_eq_take.1 hfront, marks, List.map_take, marks, List.length_map,
    length_readings]

/-- **The mark of one more character**, whatever comes after it. -/
theorem marks_concat (cs : List Char) (c : Char) (rest : List Char) :
    marks .start 0 (cs ++ [c]) = marks .start 0 cs ++
      [⟨Text.byteSize cs, c,
        ((stateBefore cs (c :: rest)).step (Text.byteSize cs) c rest).2⟩] := by
  rw [marks_eq_take (cs ++ [c]) rest, take_readings_concat, List.map_append,
    ← marks_eq_take cs (c :: rest)]
  rfl

/-- A step is the same from states that are alike. -/
theorem step_placeless (h : s.placeless = s'.placeless) (o o' : Nat) (c : Char)
    (rest : List Char) :
    (s.step o c rest).2 = (s'.step o' c rest).2 ∧
      (s.step o c rest).1.placeless = (s'.step o' c rest).1.placeless := by
  have hs := step_relocated (fun _ => 0) s o c rest
  have hs' := step_relocated (fun _ => 0) s' o' c rest
  have hboth : s.relocated (fun _ => 0) = s'.relocated fun _ => 0 := h
  rw [hboth, hs'] at hs
  obtain ⟨hstate, hlive⟩ := Prod.mk.inj hs
  exact ⟨hlive.symm, hstate.symm⟩

/-- Blanks in code are live, and leave the scan as it starts. -/
theorem marks_blanks (h : ∀ c ∈ ds, Text.isBlank c = true) (cs : List Char) :
    marks .start 0 (ds ++ cs) = stamp true 0 ds ++ marks .start (Text.byteSize ds) cs := by
  have hcode : ∀ c ∈ ds, Quote.ofChar? c = none ∧ c ≠ '#' := by
    intro c hc
    have hblank := h c hc
    refine ⟨?_, ?_⟩
    · cases hq : Quote.ofChar? c with
      | none => rfl
      | some q =>
        rw [Quote.ofChar?_eq_some_iff.1 hq, Text.isBlank_quote] at hblank
        cases hblank
    · rintro rfl
      exact absurd hblank (by decide)
  have hpasses : Passes .start 0 ds cs true .start := passes_code hcode
  rw [hpasses.marks, Nat.zero_add]

/-- A live character other than a line break is read in code, so the text before it ends there. -/
theorem endState_of_marks_concat {ms : List Mark} {n : Nat} (hc : c ≠ '\n')
    (h : marks .start 0 (cs ++ [c]) = ms ++ [⟨n, c, true⟩]) : endState .start 0 cs = .start := by
  obtain ⟨ds, es, hsplit, -, hlive, -, hes⟩ := exists_cut h
  have hnil : es = [] := by
    cases es with
    | nil => rfl
    | cons => cases hes
  rw [hnil] at hsplit
  rw [(List.append_inj' hsplit rfl).1]
  exact eq_start_of_live hlive hc

/-- **A blank at the end of a text that ends in code** is live there, unless it is a line break. -/
theorem endState_of_concat_blank (hblank : Text.isBlank c = true)
    (hbreak : ∀ m ∈ marks .start 0 (cs ++ [c]), m.is '\n' = false)
    (h : endState .start 0 (cs ++ [c]) = .start) : endState .start 0 cs = .start := by
  have hlast := marks_concat cs c []
  have hlive : ((stateBefore cs [c]).step (Text.byteSize cs) c []).2 = true := by
    by_contra hinert
    -- what is inert at the end of code is a quote, and no quote is blank
    have hm : (marks .start 0 (cs ++ [c])).getLast? =
        some ⟨Text.byteSize cs, c, ((stateBefore cs [c]).step (Text.byteSize cs) c []).2⟩ := by
      rw [hlast, List.getLast?_concat]
    obtain ⟨q, hq⟩ := exists_quote_of_getLast? (owes_of_owed_eq_zero rfl) h hm
      (Bool.eq_false_iff.2 hinert)
    have hc : c = q.char := hq
    rw [hc, Text.isBlank_quote] at hblank
    cases hblank
  rw [hlive] at hlast
  have hne : c ≠ '\n' := by
    rintro rfl
    have hnot := hbreak ⟨Text.byteSize cs, '\n', true⟩ (by rw [hlast]; simp)
    cases hnot
  exact endState_of_marks_concat hne hlast

end Scan

variable {os us : List Mark} {m : Mark}

/-! ### Faithful marks -/

theorem map_char_trimMarks (os : List Mark) :
    (trimMarks os).map Mark.char = Text.trim (os.map Mark.char) := by
  have hblank : Mark.isBlank = Text.isBlank ∘ Mark.char := rfl
  rw [trimMarks, Text.trim, Text.trimEnd, Text.trimStart, List.dropWhile_map, ← hblank,
    ← List.map_reverse, List.dropWhile_map, ← hblank, List.map_reverse]

theorem trimMarks_sublist (os : List Mark) : (trimMarks os).Sublist os := by
  have hend := (List.dropWhile_sublist Mark.isBlank
    (l := (os.dropWhile Mark.isBlank).reverse)).reverse
  rw [List.reverse_reverse] at hend
  exact hend.trans (List.dropWhile_sublist _)

theorem map_placeless_moved (k : Nat) (ms : List Mark) :
    (ms.map (Mark.moved k)).map Mark.placeless = ms.map Mark.placeless := by
  rw [List.map_map]
  rfl

theorem placeless_eq_iff {m m' : Mark} :
    m.placeless = m'.placeless ↔ m.char = m'.char ∧ m.live = m'.live := by
  constructor
  · intro h
    obtain ⟨-, hchar, hlive⟩ := Mark.mk.inj h
    exact ⟨hchar, hlive⟩
  · rintro ⟨hchar, hlive⟩
    simp only [Mark.placeless, Mark.relocated, hchar, hlive]

/-- Marks that are alike come apart where their texts do. -/
theorem placeless_append_inj {ms ns : List Mark}
    (h : (ms ++ ns).map Mark.placeless = (os ++ us).map Mark.placeless)
    (hchars : ms.map Mark.char = os.map Mark.char) :
    ms.map Mark.placeless = os.map Mark.placeless ∧
      ns.map Mark.placeless = us.map Mark.placeless := by
  have hlength := congrArg List.length hchars
  rw [List.length_map, List.length_map] at hlength
  rw [List.map_append, List.map_append] at h
  exact List.append_inj h (by rw [List.length_map, List.length_map, hlength])

namespace Faithful

theorem nil : Faithful [] := rfl

/-- **One more mark** is found if it is as live as the scan finds it. -/
theorem concat (h : Faithful os) (rest : List Char)
    (hm : ((Scan.stateBefore (os.map Mark.char) (m.char :: rest)).step
      (Text.byteSize (os.map Mark.char)) m.char rest).2 = m.live) : Faithful (os ++ [m]) := by
  have hplaceless : Mark.placeless ⟨Text.byteSize (os.map Mark.char), m.char, m.live⟩ =
      m.placeless := rfl
  unfold Faithful at h ⊢
  rw [List.map_append, List.map_singleton, Scan.marks_concat _ _ rest, hm, List.map_append,
    List.map_append, List.map_singleton, List.map_singleton, h, hplaceless]

/-- The first marks of such marks are found. -/
theorem of_append (h : Faithful (os ++ us)) : Faithful os := by
  unfold Faithful at h ⊢
  have hprefix := Scan.marks_prefix .start 0 (os.map Mark.char) (us.map Mark.char)
  rw [← List.map_append] at hprefix
  obtain ⟨ns, hns⟩ := hprefix
  rw [← hns] at h
  exact (placeless_append_inj h (Scan.marks_char _ _ _)).1

/-- The last mark of such marks is found. -/
theorem exists_marks_concat (h : Faithful (os ++ [m])) :
    ∃ n, Scan.marks .start 0 (os.map Mark.char ++ [m.char]) =
      Scan.marks .start 0 (os.map Mark.char) ++ [⟨n, m.char, m.live⟩] := by
  have hmarks := Scan.marks_concat (os.map Mark.char) m.char []
  have hos := h.of_append
  unfold Faithful at h hos
  rw [List.map_append, List.map_singleton, hmarks, List.map_append, List.map_append, hos] at h
  have hlast := List.singleton_inj.1 (List.append_inj_right h rfl)
  have hlive := (placeless_eq_iff.1 hlast).2
  simp only at hlive
  rw [hlive] at hmarks
  exact ⟨_, hmarks⟩

/-- **After a live mark** the scan stands as it starts, whatever comes next. -/
theorem stateBefore_of_live (h : Faithful (os ++ [m])) (hm : m.live = true) (rest : List Char) :
    Scan.stateBefore ((os ++ [m]).map Mark.char) rest = .start := by
  obtain ⟨n, hn⟩ := h.exists_marks_concat
  have hmarks := Scan.marks_concat (os.map Mark.char) m.char rest
  rw [hn] at hmarks
  obtain ⟨-, -, hlive⟩ := Mark.mk.inj (List.singleton_inj.1 (List.append_cancel_left hmarks))
  rw [hm] at hlive
  rw [List.map_append, List.map_singleton, Scan.stateBefore_concat,
    (Scan.step_of_live hlive.symm).1]

/-- **Before a live mark** other than a line break, the scan stands in code. -/
theorem endState_of_live (h : Faithful (os ++ [m])) (hm : m.live = true) (hne : m.char ≠ '\n') :
    Scan.endState .start 0 (os.map Mark.char) = .start := by
  obtain ⟨n, hn⟩ := h.exists_marks_concat
  rw [hm] at hn
  exact Scan.endState_of_marks_concat hne hn

/-- What the marks are not, the scan does not find. -/
theorem is_eq_false (h : Faithful os) {c : Char} (hos : ∀ m ∈ os, m.is c = false) :
    ∀ m ∈ Scan.marks .start 0 (os.map Mark.char), m.is c = false := by
  intro m hm
  have hmem : m.placeless ∈ os.map Mark.placeless := by
    rw [← show _ = os.map Mark.placeless from h]
    exact List.mem_map_of_mem hm
  obtain ⟨m', hm', heq⟩ := List.mem_map.1 hmem
  obtain ⟨hchar, hlive⟩ := placeless_eq_iff.1 heq
  rw [Mark.is, ← hchar, ← hlive]
  exact hos m' hm'

/-- **Blanks at the end of code** may be taken away. -/
theorem endState_dropWhile {q : Char → Bool} (hq : ∀ c, q c = true → Text.isBlank c = true)
    (h : Faithful os.reverse) (hbreak : ∀ m ∈ os, m.is '\n' = false)
    (hend : Scan.endState .start 0 (os.reverse.map Mark.char) = .start) :
    Scan.endState .start 0 ((os.dropWhile fun m => q m.char).reverse.map Mark.char) = .start := by
  induction os with
  | nil => exact hend
  | cons m os ih =>
    cases hm : q m.char with
    | false => rwa [List.dropWhile_cons_of_neg (by simp [hm])]
    | true =>
      rw [List.dropWhile_cons_of_pos (by simpa using hm)]
      rw [List.reverse_cons] at h hend
      have hfound := h.is_eq_false (c := '\n') fun m' hm' => by
        rw [← List.reverse_cons] at hm'
        exact hbreak m' (List.mem_reverse.1 hm')
      rw [List.map_append, List.map_singleton] at hend hfound
      have hbefore := Scan.endState_of_concat_blank (hq _ hm) hfound hend
      exact ih h.of_append (fun m' hm' => hbreak m' (List.mem_cons_of_mem _ hm')) hbefore

/-- **Blanks at the front** may be taken away: the scan starts in code. -/
theorem of_blanks (h : Faithful (us ++ os)) (hus : ∀ m ∈ us, m.isBlank = true) :
    Faithful os := by
  unfold Faithful at h ⊢
  have hblanks : ∀ c ∈ us.map Mark.char, Text.isBlank c = true := by
    intro c hc
    obtain ⟨m, hm, rfl⟩ := List.mem_map.1 hc
    exact hus m hm
  rw [List.map_append, Scan.marks_blanks hblanks, Scan.marks_start_at] at h
  have hrest := (placeless_append_inj h (map_char_stamp _ _ _)).2
  rw [← hrest]
  exact (map_placeless_moved _ _).symm

/-- **A trimmed text** is scanned as it is in the whole. -/
theorem trim (h : Faithful os) : Faithful (trimMarks os) := by
  have hfront : Faithful (os.dropWhile Mark.isBlank) := by
    rw [← List.takeWhile_append_dropWhile (p := Mark.isBlank) (l := os)] at h
    exact h.of_blanks fun m hm => List.mem_takeWhile_imp hm
  rw [← List.reverse_reverse (os.dropWhile Mark.isBlank),
    ← List.takeWhile_append_dropWhile (p := Mark.isBlank)
      (l := (os.dropWhile Mark.isBlank).reverse),
    List.reverse_append] at hfront
  exact hfront.of_append

end Faithful

end Braceline
