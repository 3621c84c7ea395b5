import Braceline.Proofs.Indentation
import Braceline.Proofs.Outline

/-!
# How a rendered program is indented

The interpreter holds the indentation of each line against a stack of indentations. A deeper line
is put on the stack; any other takes off what is deeper than itself, and must then find its own
indentation there. The lines that a program renders to are legal in this sense, at any width: only
a line after a colon is deeper, by one step, and each other line goes back to one that is still on
the stack.

* `mem_stacked`, `pairwise_stacked`: what a line leaves on the stack.
* `grown_of_laid`: the physical lines of a program, by induction on its lines. The invariant is that
  each body that is open may be gone on with.
* `wellIndented_renderLines`: so a rendered program is indented as the interpreter wants it.
* `indentation_legal`: and where the levels come from.
-/

namespace Braceline

/-- The number of spaces that a line begins with. -/
def indentation (line : String) : Nat := (line.toList.takeWhile (· == ' ')).length

/-- A line without the spaces that it begins with. -/
def unindented (line : String) : String := String.ofList (line.toList.dropWhile (· == ' '))

/-- **The interpreter's stack of indentations after one more line**, innermost first. A deeper line
is put on it; any other takes off what is deeper than the line. -/
def stacked (stack : List Nat) (n : Nat) : List Nat :=
  if stack.headD 0 < n then n :: stack else stack.dropWhile (n < ·)

/-- The stack after lines of these indentations. At first there is the indentation 0 on it. -/
def indentStack (ns : List Nat) : List Nat := ns.foldl stacked [0]

/-- **Lines that the interpreter can take apart into blocks**, at so many spaces a level. -/
structure WellIndented (width : Nat) (lines : List String) : Prop where
  first : ∀ a ∈ lines.head?, indentation a = 0
  multiple : ∀ a ∈ lines, width ∣ indentation a
  /-- Only a line after a colon is deeper, and then by one step. -/
  deeper : ∀ before a b after, lines = before ++ a :: b :: after →
    indentation a < indentation b →
      a.toList.getLast? = some ':' ∧ indentation b = indentation a + width
  /-- A line that is shallower finds its indentation on the stack. -/
  shallower : ∀ before a b after, lines = before ++ a :: b :: after →
    indentation b < indentation a →
      indentation b ∈ indentStack ((before ++ [a]).map indentation)

/-- Does a segment end here? -/
def Place.endsSegment (p : Place) : Bool := p.mark.is '{' || p.endsStatement

/-- The stack after lines that are given last first. -/
def stackOf (back : List String) : List Nat := indentStack (back.reverse.map indentation)

/-- The texts of the lines that the head of the loop renders to. -/
def loopTexts : List String :=
  ["with fileinput.input() as _EL:", "for (L, S) in enumerate(_EL):", "s = S.strip()",
   "F = s.split(DELIM)", "I = [toint(v) for v in F]"]

/-- The texts of the physical lines of a line. -/
def Line.texts : Line → List String
  | .statement _ text => [text]
  | .eachLine _ => loopTexts

/-- May a line of level `k` follow the lines, which are given last first? It goes back to an
indentation on the stack, or one step on after a colon. -/
def MayFollow (width : Nat) (back : List String) (k : Nat) : Prop :=
  k * width ∈ stackOf back ∨
    k * width = (stackOf back).headD 0 + width ∧ ∃ a ∈ back.head?, a.toList.getLast? = some ':'

/-- Physical lines, last first, each of which may follow those before it. -/
inductive Grown (width : Nat) : List String → Prop where
  | nil : Grown width []
  | cons {back : List String} {k : Nat} {text : String} (h : Grown width back)
    (hk : MayFollow width back k) (ht : ∀ c ∈ text.toList.head?, c ≠ ' ') :
    Grown width (Line.indented width k text :: back)

variable {stack : List Nat} {m n k j width : Nat} {text : String} {back lines : List String}
  {l : Line} {ls : List Line} {ms : List Mark}

/-! ### Spaces in front -/

theorem toList_indented (width k : Nat) (text : String) :
    (Line.indented width k text).toList = List.replicate (k * width) ' ' ++ text.toList := by
  simp [Line.indented]

/-- A line is indented by its level, if its text does not begin with a space. -/
theorem indentation_indented (h : ∀ c ∈ text.toList.head?, c ≠ ' ') :
    indentation (Line.indented width k text) = k * width := by
  have hnone : text.toList.takeWhile (· == ' ') = [] := by
    cases ht : text.toList with
    | nil => rfl
    | cons c cs =>
      rw [ht] at h
      exact List.takeWhile_cons_of_neg (by simpa using h c rfl)
  have hall : ∀ c ∈ List.replicate (k * width) ' ', (c == ' ') = true := by
    intro c hc
    rw [List.eq_of_mem_replicate hc]
    rfl
  rw [indentation, toList_indented, List.takeWhile_append_of_pos hall, hnone, List.append_nil,
    List.length_replicate]

/-- Without its indentation a line is its text. -/
theorem unindented_indented (h : ∀ c ∈ text.toList.head?, c ≠ ' ') :
    unindented (Line.indented width k text) = text := by
  have hkeep : text.toList.dropWhile (· == ' ') = text.toList := by
    cases ht : text.toList with
    | nil => rfl
    | cons c cs =>
      rw [ht] at h
      exact List.dropWhile_cons_of_neg (by simpa using h c rfl)
  have hall : ∀ c ∈ List.replicate (k * width) ' ', (c == ' ') = true := by
    intro c hc
    rw [List.eq_of_mem_replicate hc]
    rfl
  rw [unindented, toList_indented, List.dropWhile_append_of_pos hall, hkeep, String.ofList_toList]

/-- A line ends as its text does. -/
theorem getLast?_indented {c : Char} (h : text.toList.getLast? = some c) :
    (Line.indented width k text).toList.getLast? = some c := by
  rw [toList_indented, List.getLast?_append, h]
  rfl

/-! ### The stack of indentations -/

theorem le_headD (hs : stack.Pairwise (· > ·)) (hm : m ∈ stack) : m ≤ stack.headD 0 := by
  cases stack with
  | nil => exact absurd hm List.not_mem_nil
  | cons a stack =>
    rcases List.mem_cons.1 hm with rfl | hm
    · exact Nat.le_refl _
    · have := List.rel_of_pairwise_cons hs hm
      exact Nat.le_of_lt this

/-- What is taken off an ordered stack is what is deeper. -/
theorem mem_dropWhile_lt (hs : stack.Pairwise (· > ·)) :
    m ∈ stack.dropWhile (n < ·) ↔ m ∈ stack ∧ m ≤ n := by
  induction stack with
  | nil => simp
  | cons a stack ih =>
    by_cases ha : n < a
    · rw [List.dropWhile_cons_of_pos (by simpa using ha), ih (List.Pairwise.of_cons hs)]
      constructor
      · rintro ⟨hm, hle⟩
        exact ⟨List.mem_cons_of_mem _ hm, hle⟩
      · rintro ⟨hm, hle⟩
        rcases List.mem_cons.1 hm with rfl | hm
        · omega
        · exact ⟨hm, hle⟩
    · -- the first that is kept is the deepest that is kept
      rw [List.dropWhile_cons_of_neg (by simpa using ha)]
      refine ⟨fun hm => ⟨hm, ?_⟩, And.left⟩
      have hle := le_headD hs hm
      rw [List.headD_cons] at hle
      omega

/-- The stack stays in order. -/
theorem pairwise_stacked (hs : stack.Pairwise (· > ·)) : (stacked stack n).Pairwise (· > ·) := by
  unfold stacked
  split
  · next hn =>
    refine List.pairwise_cons.2 ⟨fun m hm => ?_, hs⟩
    have hle := le_headD hs hm
    show n > m
    omega
  · exact hs.sublist (List.dropWhile_sublist _)

/-- **What is on the stack after a line** that is on it or deeper than all of it. -/
theorem mem_stacked (hs : stack.Pairwise (· > ·)) (hn : n ∈ stack ∨ stack.headD 0 < n) :
    m ∈ stacked stack n ↔ m = n ∨ m ∈ stack ∧ m ≤ n := by
  unfold stacked
  split
  · next hdeep =>
    rw [List.mem_cons]
    refine or_congr_right ⟨fun hm => ⟨hm, ?_⟩, And.left⟩
    have hle := le_headD hs hm
    omega
  · next hdeep =>
    have hmem := hn.resolve_right hdeep
    rw [mem_dropWhile_lt hs]
    constructor
    · exact .inr
    · rintro (rfl | hm)
      · exact ⟨hmem, Nat.le_refl _⟩
      · exact hm

/-- The line is then the innermost. -/
theorem headD_stacked (hs : stack.Pairwise (· > ·)) (hn : n ∈ stack ∨ stack.headD 0 < n) :
    (stacked stack n).headD 0 = n := by
  have hself : n ∈ stacked stack n := (mem_stacked hs hn).2 (.inl rfl)
  have hle := le_headD (pairwise_stacked hs) hself
  have hhead : (stacked stack n).headD 0 ∈ stacked stack n := by
    cases h : stacked stack n with
    | nil => exact absurd (h ▸ hself) List.not_mem_nil
    | cons a t => exact List.mem_cons_self
  rcases (mem_stacked hs hn).1 hhead with h | h
  · exact h
  · omega

theorem stackOf_cons (a : String) (back : List String) :
    stackOf (a :: back) = stacked (stackOf back) (indentation a) := by
  rw [stackOf, stackOf, indentStack, indentStack, List.reverse_cons, List.map_append,
    List.foldl_append]
  rfl

/-! ### Lines that follow each other -/

/-- A line that may follow is on the stack or deeper than all of it. -/
theorem MayFollow.mem_or_lt (h : MayFollow width back k) (hw : 1 ≤ width) :
    k * width ∈ stackOf back ∨ (stackOf back).headD 0 < k * width := by
  rcases h with h | ⟨h, -⟩
  · exact .inl h
  · exact .inr (by omega)

namespace Grown

theorem of_append {front : List String} (h : Grown width (front ++ back)) : Grown width back := by
  induction front with
  | nil => exact h
  | cons a front ih =>
    cases h with
    | cons h _ _ => exact ih h

/-- **The stack after such lines** is in order, and has the indentation 0 at its bottom. -/
theorem ordered_stackOf (h : Grown width back) (hw : 1 ≤ width) :
    (stackOf back).Pairwise (· > ·) ∧ 0 ∈ stackOf back := by
  induction h with
  | nil => exact ⟨List.pairwise_singleton _ _, List.mem_singleton_self 0⟩
  | cons h hk ht ih =>
    rw [stackOf_cons, indentation_indented ht]
    exact ⟨pairwise_stacked ih.1,
      (mem_stacked ih.1 (hk.mem_or_lt hw)).2 (.inr ⟨ih.2, Nat.zero_le _⟩)⟩

/-- After a line, its indentation is the innermost. -/
theorem headD_stackOf {a : String} (h : Grown width (a :: back)) (hw : 1 ≤ width) :
    (stackOf (a :: back)).headD 0 = indentation a := by
  cases h with
  | cons h hk ht =>
    rw [stackOf_cons, indentation_indented ht]
    exact headD_stacked (h.ordered_stackOf hw).1 (hk.mem_or_lt hw)

/-- A line of level 0 may follow any lines. -/
theorem mayFollow_zero (h : Grown width back) (hw : 1 ≤ width) : MayFollow width back 0 := by
  refine .inl ?_
  rw [Nat.zero_mul]
  exact (h.ordered_stackOf hw).2

/-- **What may follow lines may follow one more line**, if it is no deeper than that. -/
theorem mayFollow_cons (h : Grown width back) (hw : 1 ≤ width) (hk : MayFollow width back k)
    (ht : ∀ c ∈ text.toList.head?, c ≠ ' ') (hj : MayFollow width back j) (hle : j ≤ k) :
    MayFollow width (Line.indented width k text :: back) j := by
  refine .inl ?_
  have hmul : j * width ≤ k * width := Nat.mul_le_mul_right width hle
  rw [stackOf_cons, indentation_indented ht, mem_stacked (h.ordered_stackOf hw).1 (hk.mem_or_lt hw)]
  rcases hj with hj | ⟨hj, -⟩
  · exact .inr ⟨hj, hmul⟩
  · -- `j` would be one step on, so `k` is
    left
    rcases hk with hk | ⟨hk, -⟩
    · have := le_headD (h.ordered_stackOf hw).1 hk
      omega
    · omega

/-- A line of one level more may follow a line that ends in a colon. -/
theorem mayFollow_succ (h : Grown width (Line.indented width k text :: back)) (hw : 1 ≤ width)
    (ht : ∀ c ∈ text.toList.head?, c ≠ ' ') (hcolon : text.toList.getLast? = some ':') :
    MayFollow width (Line.indented width k text :: back) (k + 1) := by
  refine .inr ⟨?_, _, rfl, getLast?_indented hcolon⟩
  rw [h.headD_stackOf hw, indentation_indented ht, Nat.succ_mul]

/-- **Lines that follow each other are well indented.** -/
theorem wellIndented (h : Grown width lines.reverse) (hw : 1 ≤ width) :
    WellIndented width lines := by
  have hsplit (before : List String) (a b : String) (after : List String)
      (hlines : lines = before ++ a :: b :: after) : Grown width (b :: a :: before.reverse) := by
    rw [hlines] at h
    have hrev : (before ++ a :: b :: after).reverse =
        after.reverse ++ b :: a :: before.reverse := by simp
    rw [hrev] at h
    exact h.of_append
  refine ⟨fun a ha => ?_, fun a ha => ?_, fun before a b after hlines hlt => ?_,
    fun before a b after hlines hlt => ?_⟩
  · obtain ⟨rest, rfl⟩ := List.head?_eq_some_iff.1 ha
    rw [List.reverse_cons] at h
    cases h.of_append with
    | cons h hk ht =>
      rw [indentation_indented ht]
      rcases hk with hk | ⟨-, a, ha, -⟩
      · exact List.mem_singleton.1 hk
      · cases ha
  · obtain ⟨before, after, rfl⟩ := List.append_of_mem ha
    rw [List.reverse_append, List.reverse_cons, List.append_assoc] at h
    cases h.of_append with
    | cons h hk ht =>
      rw [indentation_indented ht]
      exact Nat.dvd_mul_left width _
  · have hgrown := hsplit before a b after hlines
    cases hgrown with
    | cons h hk ht =>
      have hhead := h.headD_stackOf hw
      rw [indentation_indented ht] at hlt ⊢
      rcases hk with hk | ⟨hk, c, hc, hcolon⟩
      · -- all that is on the stack is no deeper than `a`
        have hle := le_headD (h.ordered_stackOf hw).1 hk
        omega
      · obtain rfl : a = c := Option.some.inj hc
        exact ⟨hcolon, by omega⟩
  · have hgrown := hsplit before a b after hlines
    cases hgrown with
    | cons h hk ht =>
      have hhead := h.headD_stackOf hw
      rw [indentation_indented ht] at hlt ⊢
      have hstack : stackOf (a :: before.reverse) =
          indentStack ((before ++ [a]).map indentation) := by simp [stackOf]
      rw [← hstack]
      rcases hk with hk | ⟨hk, -⟩
      · exact hk
      · omega

end Grown

/-! ### The lines of a program -/

theorem Laid.sound (h : Laid ls) : ∀ l ∈ ls, l.Sound := by
  induction ls with
  | nil => exact fun l hl => absurd hl List.not_mem_nil
  | cons l ls ih =>
    obtain ⟨hlaid, -, hsound⟩ := h
    intro l' hl'
    rcases List.mem_cons.1 hl' with rfl | hl'
    · exact hsound
    · exact ih hlaid l' hl'

/-- The text of a statement begins with no space. -/
theorem head?_ne_space (h : Clean text.toList) : ∀ c ∈ text.toList.head?, c ≠ ' ' := by
  intro c hc
  rw [← h.trim_eq] at hc
  have hblank := Text.head?_trim_not_blank _ c hc
  rintro rfl
  cases hblank

/-- The lines of the loop's head are like statements of their own. -/
theorem clean_of_mem_loopTexts (h : text ∈ loopTexts) : Clean text.toList := by
  have hall : ∀ t ∈ loopTexts, (∀ m ∈ Scan.marks .start 0 t.toList, m.isStop = false) ∧
      (Scan.endState .start 0 t.toList).finish = .ok () ∧ Text.trim t.toList = t.toList ∧
        t.toList ≠ [] := by decide +kernel
  obtain ⟨hstop, hclosed, htrim, hne⟩ := hall text h
  exact ⟨⟨hstop, hclosed⟩, htrim, hne⟩

theorem clean_of_mem_texts (h : l.Sound) (ht : text ∈ l.texts) : Clean text.toList := by
  cases l with
  | statement k t =>
    rw [List.mem_singleton.1 ht]
    exact h.1
  | eachLine k => exact clean_of_mem_loopTexts ht

/-- The physical lines of a line, after others, and the levels that may follow then. -/
structure Follows (width : Nat) (back : List String) (l : Line) : Prop where
  grown : Grown width ((l.render width).reverse ++ back)
  body : ∀ j ∈ l.body, MayFollow width ((l.render width).reverse ++ back) j
  outer : ∀ j, MayFollow width back j → j ≤ l.level →
    MayFollow width ((l.render width).reverse ++ back) j

theorem follows_statement (h : Grown width back) (hw : 1 ≤ width) (hk : MayFollow width back k)
    (hclean : Clean text.toList) : Follows width back (.statement k text) := by
  have ht := head?_ne_space hclean
  have hgrown : Grown width (Line.indented width k text :: back) := .cons h hk ht
  refine ⟨hgrown, fun j hj => ?_, fun j hj hle => h.mayFollow_cons hw hk ht hj hle⟩
  -- a statement that opens a body ends in a colon
  rw [Line.body] at hj
  split at hj
  · next hcolon =>
    obtain rfl := List.mem_singleton.1 hj
    exact hgrown.mayFollow_succ hw ht hcolon.1
  · exact absurd hj List.not_mem_nil

/-- The head of the loop opens two blocks and goes on in the inner one. -/
theorem follows_loop (h : Grown width back) (hw : 1 ≤ width) (hk : MayFollow width back k) :
    Follows width back (.eachLine k) := by
  have htexts : ∀ t ∈ loopTexts, ∀ c ∈ t.toList.head?, c ≠ ' ' := fun t h =>
    head?_ne_space (clean_of_mem_loopTexts h)
  simp only [loopTexts, List.forall_mem_cons] at htexts
  obtain ⟨hwith, hfor, hstrip, hsplit, hints, -⟩ := htexts
  have h₁ := h.cons hk hwith
  have hk₁ := h₁.mayFollow_succ hw hwith (by decide)
  have h₂ := h₁.cons hk₁ hfor
  have hk₂ := h₂.mayFollow_succ hw hfor (by decide)
  have h₃ := h₂.cons hk₂ hstrip
  have hk₃ := h₂.mayFollow_cons hw hk₂ hstrip hk₂ (Nat.le_refl _)
  have h₄ := h₃.cons hk₃ hsplit
  have hk₄ := h₃.mayFollow_cons hw hk₃ hsplit hk₃ (Nat.le_refl _)
  have hk₅ := h₄.mayFollow_cons hw hk₄ hints hk₄ (Nat.le_refl _)
  refine ⟨h₄.cons hk₄ hints, fun j hj => ?_, fun j hj hle => ?_⟩
  · obtain rfl := List.mem_singleton.1 hj
    exact hk₅
  · have hle : j ≤ k := hle
    have hj₁ := h.mayFollow_cons hw hk hwith hj hle
    have hj₂ := h₁.mayFollow_cons hw hk₁ hfor hj₁ (by omega)
    have hj₃ := h₂.mayFollow_cons hw hk₂ hstrip hj₂ (by omega)
    have hj₄ := h₃.mayFollow_cons hw hk₃ hsplit hj₃ (by omega)
    exact h₄.mayFollow_cons hw hk₄ hints hj₄ (by omega)

/-- A line whose level may follow. -/
theorem follows_line (h : Grown width back) (hw : 1 ≤ width) (hk : MayFollow width back l.level)
    (hs : l.Sound) : Follows width back l := by
  cases l with
  | statement k text => exact follows_statement h hw hk hs.1
  | eachLine k => exact follows_loop h hw hk

/-- The innermost body is one of the bodies, or there is none. -/
theorem innermost_mem (levels : List Nat) : innermost levels = 0 ∨ innermost levels ∈ levels := by
  cases levels with
  | nil => exact .inl rfl
  | cons a levels => exact .inr List.mem_cons_self

/-- **The physical lines of lines that are laid out** follow each other, and each body that is open
may be gone on with. The lines are given last first. -/
theorem grown_of_laid (hw : 1 ≤ width) (h : Laid ls) :
    Grown width (ls.flatMap fun l => (l.render width).reverse) ∧
      ∀ j ∈ bodies ls, MayFollow width (ls.flatMap fun l => (l.render width).reverse) j := by
  induction ls with
  | nil => exact ⟨.nil, fun j hj => absurd hj List.not_mem_nil⟩
  | cons l ls ih =>
    obtain ⟨hlaid, hlevel, hsound⟩ := h
    obtain ⟨hgrown, hbodies⟩ := ih hlaid
    have hk : MayFollow width (ls.flatMap fun l => (l.render width).reverse) l.level := by
      rcases innermost_mem ((bodies ls).filter (· ≤ l.level)) with hzero | hmem
      · rw [← hlevel, hzero]
        exact hgrown.mayFollow_zero hw
      · rw [hlevel] at hmem
        exact hbodies _ (List.mem_filter.1 hmem).1
    have hfollows := follows_line hgrown hw hk hsound
    rw [List.flatMap_cons]
    refine ⟨hfollows.grown, fun j hj => ?_⟩
    rw [bodies] at hj
    rcases List.mem_append.1 hj with hj | hj
    · exact hfollows.body j hj
    · obtain ⟨hj, hle⟩ := List.mem_filter.1 hj
      exact hfollows.outer j (hbodies j hj) (by simpa using hle)

/-- **A rendered program is well indented.** -/
theorem wellIndented_renderLines {p : Program} (hw : 1 ≤ width) (h : Laid p.lines.reverse) :
    WellIndented width (p.renderLines width) := by
  have hreverse : (p.renderLines width).reverse =
      p.lines.reverse.flatMap fun l => (l.render width).reverse := by
    rw [Program.renderLines, List.reverse_flatMap]
    rfl
  refine Grown.wellIndented ?_ hw
  rw [hreverse]
  exact (grown_of_laid hw h).1

/-- At any width, a line renders to its texts. -/
theorem map_unindented_render (h : l.Sound) (width : Nat) :
    (l.render width).map unindented = l.texts := by
  have htexts : ∀ t ∈ l.texts, ∀ c ∈ t.toList.head?, c ≠ ' ' := fun t ht =>
    head?_ne_space (clean_of_mem_texts h ht)
  cases l with
  | statement k text =>
    have ht := htexts text (List.mem_singleton_self text)
    simp only [Line.render, List.map_cons, List.map_nil, unindented_indented ht, Line.texts]
  | eachLine k =>
    simp only [Line.texts, loopTexts, List.forall_mem_cons] at htexts
    obtain ⟨hwith, hfor, hstrip, hsplit, hints, -⟩ := htexts
    simp only [Line.render, List.map_cons, List.map_nil, unindented_indented hwith,
      unindented_indented hfor, unindented_indented hstrip, unindented_indented hsplit,
      unindented_indented hints, Line.texts, loopTexts]

theorem map_unindented_renderLines {p : Program} (h : Laid p.lines.reverse) (width : Nat) :
    (p.renderLines width).map unindented = p.lines.flatMap Line.texts := by
  rw [Program.renderLines, List.map_flatMap]
  refine List.flatMap_congr fun l hl => map_unindented_render ?_ width
  exact h.sound l (List.mem_reverse.2 hl)

/-! ### Where the levels come from -/

theorem eq_of_mem_outlineOf {x : Bool × Nat} {t : List Char} (h : x ∈ outlineOf k t) :
    x = (false, k) := by
  unfold outlineOf at h
  split at h
  · exact absurd h List.not_mem_nil
  · exact List.mem_singleton.1 h

/-- What the outline of a place says of a line: a segment ends there, and the line has the level of
that point. Only a brace makes the head of the loop. -/
theorem of_mem_outline {r : Place} {x : Bool × Nat} (h : x ∈ r.outline) :
    r.endsSegment = true ∧ x.2 = levelAfter r.before ∧ (x.1 = true → r.mark.is '{' = true) := by
  rw [Place.endsSegment]
  unfold Place.outline at h
  split at h
  · next hl =>
    have hbrace : r.mark.is '{' = true := (Bool.and_eq_true_iff.1 hl).1
    refine ⟨by rw [hbrace, Bool.true_or], ?_, fun _ => hbrace⟩
    rcases List.mem_append.1 h with h | h
    · rw [eq_of_mem_outlineOf h]
    · rw [List.mem_singleton.1 h]
  split at h
  · next hbrace =>
    exact ⟨by rw [hbrace, Bool.true_or], by rw [List.mem_singleton.1 h], fun _ => hbrace⟩
  split at h
  · next hend =>
    rw [eq_of_mem_outlineOf h]
    exact ⟨by rw [hend, Bool.or_true], rfl, Bool.noConfusion⟩
  · exact absurd h List.not_mem_nil

/-- **A line has the level of the point where its segment ends.** -/
theorem of_mem_lines {r : Place} (h : l ∈ r.lines) :
    r.endsSegment = true ∧ l.level = levelAfter r.before ∧
      (l.isEachLine = true → r.mark.is '{' = true) := by
  have hmem : l.outline ∈ r.outline := by
    rw [← Place.outline_lines]
    exact List.mem_map_of_mem h
  exact of_mem_outline hmem

theorem exists_of_mem_statements {t : List Char} (h : l ∈ statements k t) :
    ∃ text, l = .statement k text := by
  unfold statements at h
  split at h
  · exact absurd h List.not_mem_nil
  · exact ⟨_, List.mem_singleton.1 h⟩

/-- **The indentation of a program is legal.** The lines are made by the segments in order, and each
has the level that the steps of the open blocks add up to where its segment ends. No level is beyond
the limit. At any width, the rendered lines are well indented, and are the same texts. -/
theorem indentation_legal {script : String} {p : Program} (h : expand script = .ok p) :
    (p.lines = (places (Scan.marks .start 0 script.toList)).flatMap Place.lines ++
        statements (levelAfter (Scan.marks .start 0 script.toList))
          (Segment.Draft.after (Scan.marks .start 0 script.toList)).text.reverse ∧
      (∀ r ∈ places (Scan.marks .start 0 script.toList), ∀ l ∈ r.lines,
        r.endsSegment = true ∧ l.level = ((openBlocks r.before).map Place.step).sum) ∧
      ∀ l ∈ statements (levelAfter (Scan.marks .start 0 script.toList))
          (Segment.Draft.after (Scan.marks .start 0 script.toList)).text.reverse,
        l.level = ((openBlocks (Scan.marks .start 0 script.toList)).map Place.step).sum) ∧
    (∀ l ∈ p.lines, l.level ≤ maxLevel ∧
      (l.isEachLine = true → l.level + Line.eachLineDepth ≤ maxLevel)) ∧
    (∀ w, 1 ≤ w → WellIndented w (p.renderLines w)) ∧
    ∀ w w', (p.renderLines w).map unindented = (p.renderLines w').map unindented := by
  obtain ⟨hp, -⟩ := eq_programOf_of_expand h
  have hlaid := (laid_of_expandChars h).1
  refine ⟨⟨by rw [hp]; rfl, fun r _ l hl => ?_,
    fun l hl => ?_⟩, fun l hl => ?_, fun w hw => wellIndented_renderLines hw hlaid,
    fun w w' => ?_⟩
  · obtain ⟨hends, hlevel, -⟩ := of_mem_lines hl
    exact ⟨hends, hlevel⟩
  · obtain ⟨text, rfl⟩ := exists_of_mem_statements hl
    rfl
  · have hsound := hlaid.sound l (List.mem_reverse.2 hl)
    cases l with
    | statement k text => exact ⟨hsound.2, Bool.noConfusion⟩
    | eachLine k => exact ⟨(Nat.le_add_right _ _).trans hsound, fun _ => hsound⟩
  · rw [map_unindented_renderLines hlaid, map_unindented_renderLines hlaid]

/-- The loop's head spans three levels, and the line after the block goes back over all of them. -/
theorem indentation_legal_loop :
    expand "x EL\x7bif a\x7bb\x7d\x7dc" = .ok ⟨[.statement 0 "x", .eachLine 0, .statement 2 "if a:",
        .statement 3 "b", .statement 0 "c"], true⟩ ∧
      WellIndented 3 (Program.renderLines ⟨[.statement 0 "x", .eachLine 0, .statement 2 "if a:",
        .statement 3 "b", .statement 0 "c"], true⟩ 3) := by
  have h : expand "x EL\x7bif a\x7bb\x7d\x7dc" = .ok ⟨[.statement 0 "x", .eachLine 0,
      .statement 2 "if a:", .statement 3 "b", .statement 0 "c"], true⟩ := by decide +kernel
  obtain ⟨-, -, hwell, -⟩ := indentation_legal h
  exact ⟨h, hwell 3 (by decide)⟩

end Braceline
