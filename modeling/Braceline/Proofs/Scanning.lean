import Braceline.Proofs.Span

/-!
# The scan reads span by span

The scan goes through a script character by character, with a flag for an escaped character, a look
at two characters ahead and a count of quotes still owed. `Span.ofText` cuts the script into
comments, literals and single characters of code. The two mark the same characters.

* `marks_start`: a scan that starts in code marks the code of the spans as live and all else as
  inert.
* `finish_start`, `openAt?_endState`: it may stop unless the last span is a literal that is not
  closed, and that is the one that it stands in.
* `scan_eq_spans`: both, with the offsets that the marks carry, for the scan of a script.
-/

namespace Braceline

namespace Text

/-- The number of bytes that a text takes. -/
def byteSize (cs : List Char) : Nat := (String.ofList cs).utf8ByteSize

@[simp]
theorem byteSize_nil : byteSize [] = 0 := rfl

@[simp]
theorem byteSize_append (cs ds : List Char) : byteSize (cs ++ ds) = byteSize cs + byteSize ds := by
  simp [byteSize, String.ofList_append]

@[simp]
theorem byteSize_cons (c : Char) (cs : List Char) :
    byteSize (c :: cs) = c.utf8Size + byteSize cs := by
  simp [byteSize, String.ofList_cons]

theorem byteSize_toList (text : String) : byteSize text.toList = text.utf8ByteSize := by
  rw [byteSize, String.ofList_toList]

end Text

/-- The marks of a text that begins at `o` and is all live or all inert. -/
def stamp (live : Bool) (o : Nat) : List Char → List Mark
  | [] => []
  | c :: cs => ⟨o, c, live⟩ :: stamp live (o + c.utf8Size) cs

theorem stamp_append (live : Bool) (o : Nat) (cs ds : List Char) :
    stamp live o (cs ++ ds) = stamp live o cs ++ stamp live (o + Text.byteSize cs) ds := by
  induction cs generalizing o with
  | nil => simp [stamp]
  | cons c cs ih => simp [stamp, ih, Nat.add_assoc]

theorem live_of_mem_stamp {live : Bool} {o : Nat} {cs : List Char} {m : Mark}
    (h : m ∈ stamp live o cs) : m.live = live := by
  induction cs generalizing o with
  | nil => exact absurd h List.not_mem_nil
  | cons c cs ih =>
    rcases List.mem_cons.1 h with rfl | h
    · rfl
    · exact ih h

theorem map_char_stamp (live : Bool) (o : Nat) (cs : List Char) :
    (stamp live o cs).map Mark.char = cs := by
  induction cs generalizing o with
  | nil => rfl
  | cons c cs ih => rw [stamp, List.map_cons, ih]

namespace Span

/-- The marks that spans stand for: code is live, comments and literals are inert, fences and the
sign of a comment included. -/
def marks (o : Nat) : List Span → List Mark
  | [] => []
  | s :: ss => stamp s.isCode o s.text ++ marks (o + Text.byteSize s.text) ss

/-- The fault of spans that end in a literal which is not closed. -/
def finish (o : Nat) : List Span → Except ScriptError Unit
  | [] => .ok ()
  | literal f _ false :: _ => .error (.unterminatedLiteral o f)
  | s :: ss => finish (o + Text.byteSize s.text) ss

end Span

namespace Scan

/-- From `s` at `o`, the scan marks all of `text` alike and goes on with `rest` from `s'`. -/
structure Passes (s : State) (o : Nat) (text rest : List Char) (live : Bool) (s' : State) :
    Prop where
  marks : marks s o (text ++ rest) =
    stamp live o text ++ Scan.marks s' (o + Text.byteSize text) rest
  finish : (endState s o (text ++ rest)).finish = (endState s' (o + Text.byteSize text) rest).finish

variable {s s' s'' : State} {o st : Nat} {text rest cs body : List Char} {live : Bool} {f : Fence}
  {c : Char}

@[simp]
theorem step_literal (e : Bool) (rest : List Char) :
    State.step ⟨.literal f st e, 0⟩ o c rest = (stepLiteral f st e c rest, false) := rfl

@[simp]
theorem step_start (rest : List Char) : State.start.step o c rest = stepCode o c rest := rfl

@[simp]
theorem repeats_self (c : Char) (rest : List Char) : repeats c (c :: c :: rest) = true :=
  repeats_iff.2 ⟨rest, rfl⟩

namespace Passes

theorem nil : Passes s o [] rest live s := ⟨by simp [stamp], by simp⟩

/-- One step of the scan. -/
theorem single (h : s.step o c rest = (s', live)) : Passes s o [c] rest live s' :=
  ⟨by simp [marks_cons, stamp, h], by simp [endState_cons, h]⟩

theorem trans {t₁ t₂ : List Char} (h₁ : Passes s o t₁ (t₂ ++ rest) live s')
    (h₂ : Passes s' (o + Text.byteSize t₁) t₂ rest live s'') :
    Passes s o (t₁ ++ t₂) rest live s'' := by
  constructor
  · rw [List.append_assoc, h₁.marks, h₂.marks, stamp_append]
    simp [Nat.add_assoc]
  · rw [List.append_assoc, h₁.finish, h₂.finish]
    simp [Nat.add_assoc]

/-- A step, and then the rest of the text. -/
theorem cons {t : List Char} (h : s.step o c (t ++ rest) = (s', live))
    (ht : Passes s' (o + c.utf8Size) t rest live s'') : Passes s o (c :: t) rest live s'' :=
  (single h).trans (by simpa using ht)

end Passes

/-- A comment passes up to the line break. -/
theorem passes_comment (hb : '\n' ∉ body) :
    Passes ⟨.comment, 0⟩ o body rest false ⟨.comment, 0⟩ := by
  induction body generalizing o with
  | nil => exact .nil
  | cons c body ih =>
    have hc : c ≠ '\n' := by rintro rfl; simp at hb
    refine .cons ?_ (ih (fun h => hb (List.mem_cons_of_mem _ h)))
    simp [State.step, hc]

/-- The quotes that are owed pass, whatever they are. -/
theorem passes_owed {r : Region} (text : List Char) :
    Passes ⟨r, text.length⟩ o text rest false ⟨r, 0⟩ := by
  induction text generalizing o with
  | nil => exact .nil
  | cons c text ih => exact .cons rfl ih

/-- Where a comment ends, the scan stands as in code. -/
theorem marks_comment (hn : ∀ c ∈ rest.head?, c = '\n') :
    marks ⟨.comment, 0⟩ o rest = marks .start o rest ∧
      (endState ⟨.comment, 0⟩ o rest).finish = (endState .start o rest).finish := by
  cases rest with
  | nil => exact ⟨rfl, rfl⟩
  | cons c rest =>
    obtain rfl := hn c rfl
    have hstep : State.step ⟨.comment, 0⟩ o '\n' rest = State.step .start o '\n' rest := by
      simp [State.step, State.start, stepCode, Quote.ofChar?]
    simp [marks_cons, endState_cons, hstep]

/-- Do a triple fence's quotes stand here? -/
theorem triple_prefix_iff (hf : f.triple = true) :
    f.chars <+: f.quote.char :: rest ↔ repeats f.quote.char rest = true := by
  rw [repeats_iff]
  simp [Fence.chars, Fence.width, hf, List.IsPrefix, eq_comm]

/-- In a literal, a character at which the fence does not stand changes nothing. -/
theorem stepLiteral_of_no_fence (hc : c ≠ '\\') (hp : ¬ f.chars <+: c :: rest) :
    stepLiteral f st false c rest = ⟨.literal f st false, 0⟩ := by
  unfold stepLiteral
  by_cases hq : c = f.quote.char
  · subst hq
    cases hf : f.triple with
    | false => simp [Fence.chars, Fence.width, hf] at hp
    | true => simp [hc, Bool.eq_false_iff.2 (mt (triple_prefix_iff hf).2 hp)]
  · simp [hc, hq]

/-- A backslash escapes the next character. -/
theorem step_backslash (rest : List Char) :
    State.step ⟨.literal f st false, 0⟩ o '\\' rest = (⟨.literal f st true, 0⟩, false) := by
  simp [stepLiteral]

/-- The closing fence leads back to code. -/
theorem passes_fence : Passes ⟨.literal f st false, 0⟩ o f.chars rest false .start := by
  have hne := Fence.quote_ne_backslash f.quote
  cases hf : f.triple with
  | false =>
    have hq : f.chars = [f.quote.char] := by simp [Fence.chars, Fence.width, hf]
    rw [hq]
    exact .single (by simp [stepLiteral, hne, hf, State.start])
  | true =>
    have hq : f.chars = [f.quote.char] ++ [f.quote.char, f.quote.char] := by
      simp [Fence.chars, Fence.width, hf]
    rw [hq]
    -- the first quote sees the other two, and leaves them owed
    have hfirst : Passes ⟨.literal f st false, 0⟩ o [f.quote.char]
        ([f.quote.char, f.quote.char] ++ rest) false ⟨.code, 2⟩ :=
      .single (by simp [stepLiteral, hne, hf])
    exact hfirst.trans (passes_owed [f.quote.char, f.quote.char])

/-- **The content of a literal** passes up to the end of its closing fence. -/
theorem passes_literal (h : f.close? cs = some (body, rest)) :
    Passes ⟨.literal f st false, 0⟩ o (body ++ f.chars) rest false .start := by
  fun_induction Fence.close? f cs generalizing body rest o with
  | case1 c tail ih =>
    obtain ⟨⟨b, r⟩, hr, he⟩ := Option.map_eq_some_iff.1 h
    obtain ⟨rfl, rfl⟩ := Prod.mk.inj he
    -- the backslash, then the character that it escapes
    exact .cons (step_backslash _) (.cons (by simp [stepLiteral]) (ih hr))
  | case2 c tail _ hp =>
    obtain ⟨rfl, rfl⟩ := Prod.mk.inj (Option.some.inj h)
    exact passes_fence
  | case3 c tail hne hp ih =>
    obtain ⟨⟨b, r⟩, hr, he⟩ := Option.map_eq_some_iff.1 h
    obtain ⟨rfl, rfl⟩ := Prod.mk.inj he
    have htail := Fence.close?_eq_some hr
    have hc := Fence.ne_backslash_of_close? hne hr
    refine .cons ?_ (ih hr)
    rw [htail] at hp
    exact congrArg (·, false) (stepLiteral_of_no_fence hc hp)
  | case4 => cases h

/-- A literal that is never closed takes the rest of the script. -/
theorem passes_unclosed (h : f.close? cs = none) :
    ∃ escaped, Passes ⟨.literal f st false, 0⟩ o cs [] false ⟨.literal f st escaped, 0⟩ := by
  fun_induction Fence.close? f cs generalizing o with
  | case1 c tail ih =>
    obtain ⟨e, he⟩ := ih (o := o + '\\'.utf8Size + c.utf8Size) (by simpa using h)
    exact ⟨e, .cons (step_backslash _) (.cons (by simp [stepLiteral]) he)⟩
  | case2 c tail _ hp => cases h
  | case3 c tail hne hp ih =>
    have hr : f.close? tail = none := by simpa using h
    by_cases hc : c = '\\'
    · -- a backslash that escapes nothing stands at the very end
      obtain rfl : tail = [] := by
        cases tail with
        | nil => rfl
        | cons d ds => exact (hne d ds hc rfl).elim
      exact ⟨true, .single (by simp [stepLiteral, hc])⟩
    · obtain ⟨e, he⟩ := ih (o := o + c.utf8Size) hr
      refine ⟨e, .cons ?_ he⟩
      rw [List.append_nil, step_literal, stepLiteral_of_no_fence hc hp]
  | case4 => exact ⟨false, .nil⟩

/-- Both ways of looking for two more quotes agree. -/
theorem triple_opening (q : Quote) (rest : List Char) :
    (Fence.opening q rest).triple = repeats q.char rest := by
  rw [Bool.eq_iff_iff, repeats_iff]
  exact decide_eq_true_iff.trans (exists_congr fun _ => eq_comm)

/-- An opening fence leads into its literal. -/
theorem passes_opening
    (h : Fence.opening f.quote (List.replicate (f.width - 1) f.quote.char ++ rest) = f) :
    Passes .start o f.chars rest false ⟨.literal f o false, 0⟩ := by
  set tail := List.replicate (f.width - 1) f.quote.char with ht
  have hstep : State.start.step o f.quote.char (tail ++ rest) =
      (⟨.literal f o false, tail.length⟩, false) := by
    have hrep : repeats f.quote.char (tail ++ rest) = f.triple := by rw [← triple_opening, h]
    have hlen : tail.length = if f.triple then 2 else 0 := by
      rw [ht, List.length_replicate, Fence.width]; split <;> rfl
    simp only [step_start, stepCode, Quote.ofChar?_char, opened, hrep, hlen]
  rw [Fence.chars_eq_cons]
  exact .cons hstep (passes_owed tail)

/-- The first span of a script, and the scan after it. -/
theorem passes_span {s : Span} (h : s.Fits rest.head?) (hs : ∀ f b, s ≠ .literal f b false) :
    marks .start o (s.text ++ rest) =
        stamp s.isCode o s.text ++ marks .start (o + Text.byteSize s.text) rest ∧
      (endState .start o (s.text ++ rest)).finish =
        (endState .start (o + Text.byteSize s.text) rest).finish := by
  cases s with
  | code c =>
    obtain ⟨hq, hc⟩ := h
    have hstep : State.start.step o c rest = (.start, true) := by
      simp only [step_start, stepCode, hq, if_neg hc]; rfl
    have hp := Passes.single hstep
    exact ⟨hp.marks, hp.finish⟩
  | comment body =>
    obtain ⟨hb, hn⟩ := h
    have hp : Passes .start o ('#' :: body) rest false ⟨.comment, 0⟩ :=
      .cons (by simp [stepCode, Quote.ofChar?]) (passes_comment hb)
    obtain ⟨hm, he⟩ := marks_comment (o := o + Text.byteSize ('#' :: body)) hn
    exact ⟨hp.marks.trans (by rw [hm]; rfl), hp.finish.trans he⟩
  | literal f body closed =>
    cases closed with
    | false => exact absurd rfl (hs f body)
    | true =>
      have htext : (Span.literal f body true).text = f.chars ++ (body ++ f.chars) := by
        simp [Span.text]
      have hp : Passes .start o (f.chars ++ (body ++ f.chars)) rest false .start := by
        refine .trans (passes_opening ?_) (passes_literal (Fence.close?_append h.1 rest))
        simpa using Span.opening_of_fits h
      rw [htext]
      exact ⟨hp.marks, hp.finish⟩

/-- A last span that is a literal without an end. -/
theorem passes_unclosed_span {b : List Char} (h : (Span.literal f b false).Fits none) :
    marks .start o (Span.literal f b false).text = stamp false o (Span.literal f b false).text ∧
      (endState .start o (Span.literal f b false).text).finish =
        .error (.unterminatedLiteral o f) := by
  have htext : (Span.literal f b false).text = f.chars ++ b := by simp [Span.text]
  have hfits : (Span.literal f b false).Fits ([] : List Char).head? := h
  obtain ⟨e, he⟩ : ∃ e, Passes ⟨.literal f o false, 0⟩ (o + Text.byteSize f.chars) b [] false
      ⟨.literal f o e, 0⟩ := passes_unclosed h.1
  have ho : Passes .start o f.chars (b ++ []) false ⟨.literal f o false, 0⟩ :=
    passes_opening (by simpa using Span.opening_of_fits hfits)
  have hp := ho.trans he
  rw [htext]
  exact ⟨by simpa using hp.marks, by simpa [State.finish] using hp.finish⟩

theorem finish_cons {s : Span} (hs : ∀ f b, s ≠ .literal f b false) (ss : List Span) :
    Span.finish o (s :: ss) = Span.finish (o + Text.byteSize s.text) ss := by
  rw [Span.finish]
  exact hs

/-- **The marks of a script are those of its spans.** -/
theorem marks_start (o : Nat) (cs : List Char) :
    marks .start o cs = Span.marks o (Span.ofText cs) ∧
      (endState .start o cs).finish = Span.finish o (Span.ofText cs) := by
  induction cs using Span.text_induction generalizing o with
  | nil => simp [Span.marks, Span.finish]; rfl
  | span s rest hs ih =>
    rw [Span.ofText_append hs]
    by_cases hopen : ∃ f b, s = .literal f b false
    · obtain ⟨f, b, rfl⟩ := hopen
      -- nothing follows a literal that is not closed
      obtain rfl : rest = [] := List.head?_eq_none_iff.1 hs.2
      obtain ⟨hm, he⟩ := passes_unclosed_span (o := o) hs
      simpa [Span.marks, Span.finish] using ⟨hm, he⟩
    · have hclosed : ∀ f b, s ≠ .literal f b false := fun f b h => hopen ⟨f, b, h⟩
      obtain ⟨hm, he⟩ := passes_span (o := o) hs hclosed
      rw [hm, he, (ih _).1, (ih _).2, finish_cons hclosed]
      exact ⟨rfl, rfl⟩

/-- Each mark carries its character and the number of bytes before it. -/
theorem getElem?_marks (s : State) (o : Nat) (cs : List Char) (i : Nat) :
    ((marks s o cs)[i]?).map (fun m => (m.offset, m.char)) =
      (cs[i]?).map fun c => (o + Text.byteSize (cs.take i), c) := by
  induction cs generalizing s o i with
  | nil => simp
  | cons c cs ih =>
    rw [marks_cons]
    cases i with
    | zero => simp
    | succ i => simp [ih, Nat.add_assoc]

theorem le_offset_of_mem {m : Mark} (h : m ∈ marks s o cs) : o ≤ m.offset := by
  induction cs generalizing s o with
  | nil => simp at h
  | cons c cs ih =>
    rw [marks_cons, List.mem_cons] at h
    rcases h with rfl | h
    · exact Nat.le_refl o
    · exact (Nat.le_add_right o _).trans (ih h)

theorem offset_lt_of_mem {m : Mark} (h : m ∈ marks s o cs) :
    m.offset < o + Text.byteSize cs := by
  induction cs generalizing s o with
  | nil => exact absurd h List.not_mem_nil
  | cons c cs ih =>
    rw [marks_cons, List.mem_cons] at h
    rw [Text.byteSize_cons]
    rcases h with rfl | h
    · have hsize := c.utf8Size_pos
      simp only
      omega
    · have hlt := ih h
      omega

/-- Marks stand at ever larger offsets. -/
theorem pairwise_offset (s : State) (o : Nat) (cs : List Char) :
    (marks s o cs).Pairwise fun m m' => m.offset < m'.offset := by
  induction cs generalizing s o with
  | nil => exact .nil
  | cons c cs ih =>
    rw [marks_cons, List.pairwise_cons]
    refine ⟨fun m hm => ?_, ih _ _⟩
    have hle := le_offset_of_mem hm
    have hsize := c.utf8Size_pos
    simp only
    omega

/-- Spans end in a fault exactly when the last of them is a literal that is not closed. -/
theorem finish_eq_error_iff {ss : List Span} (h : Span.Separated ss) {e : ScriptError} :
    Span.finish o ss = .error e ↔ ∃ before f b, ss = before ++ [.literal f b false] ∧
      e = .unterminatedLiteral (o + Text.byteSize (before.flatMap Span.text)) f := by
  induction ss generalizing o with
  | nil => simp [Span.finish]
  | cons s ss ih =>
    by_cases hopen : ∃ f b, s = .literal f b false
    · obtain ⟨f, b, rfl⟩ := hopen
      -- nothing follows a literal that is not closed
      obtain rfl : ss = [] := Span.flatMap_text_eq_nil (List.head?_eq_none_iff.1 h.1.2)
      constructor
      · intro he
        refine ⟨[], f, b, rfl, ?_⟩
        simpa [Span.finish, eq_comm] using he
      · rintro ⟨before, f', b', hss, rfl⟩
        obtain ⟨rfl, hs⟩ : before = [] ∧ Span.literal f b false = .literal f' b' false := by
          simpa [List.singleton_eq_append_iff, eq_comm] using hss
        cases hs
        simp [Span.finish]
    · have hclosed : ∀ f b, s ≠ .literal f b false := fun f b h => hopen ⟨f, b, h⟩
      rw [finish_cons hclosed, ih h.2]
      constructor
      · rintro ⟨before, f, b, rfl, rfl⟩
        exact ⟨s :: before, f, b, rfl, by simp [Nat.add_assoc]⟩
      · rintro ⟨before, f, b, hss, rfl⟩
        cases before with
        | nil => exact absurd (List.cons.inj hss).1 (hclosed f b)
        | cons s' before =>
          obtain ⟨rfl, rfl⟩ := List.cons.inj hss
          exact ⟨before, f, b, rfl, by simp [Nat.add_assoc]⟩

/-- **A scan may stop** unless the last span is a literal that is not closed. -/
theorem finish_start {cs : List Char} {e : ScriptError} :
    (endState .start 0 cs).finish = .error e ↔
      ∃ before f body, Span.ofText cs = before ++ [.literal f body false] ∧
        e = .unterminatedLiteral (Text.byteSize (before.flatMap Span.text)) f := by
  rw [(marks_start 0 cs).2, finish_eq_error_iff (Span.separated_ofText cs)]
  simp only [Nat.zero_add]

/-- **The literal that a scan ends in** is the last span, and begins after all the others. -/
theorem openAt?_endState {cs : List Char} :
    (endState .start 0 cs).openAt? = some o ↔
      ∃ before f body, Span.ofText cs = before ++ [.literal f body false] ∧
        o = Text.byteSize (before.flatMap Span.text) := by
  rw [openAt?_eq_some_iff]
  constructor
  · rintro ⟨f, hfinish⟩
    obtain ⟨before, f', body, hspans, heq⟩ := finish_start.1 hfinish
    obtain ⟨rfl, rfl⟩ := ScriptError.unterminatedLiteral.inj heq
    exact ⟨before, f, body, hspans, rfl⟩
  · rintro ⟨before, f, body, hspans, rfl⟩
    exact ⟨f, finish_start.2 ⟨before, f, body, hspans, rfl⟩⟩

/-- The scan of a script from its first byte on. -/
theorem readingsFrom_zero (script : String) :
    readingsFrom 0 script = readings .start 0 script.toList := by
  unfold readingsFrom
  cases script.toList <;> rfl

/-- **The scan reads a script span by span.** The marks are the characters of the script, each once
and in order, with the bytes before it; a character is inert exactly when it belongs to a comment
or a literal; and the scan may stop unless the last span is a literal that is not closed, whose
fence and offset the fault then names. -/
theorem scan_eq_spans (script : String) :
    (readingsFrom 0 script).map Prod.fst = Span.marks 0 (Span.ofText script.toList) ∧
      (Span.ofText script.toList).flatMap Span.text = script.toList ∧
      (∀ i : Nat, (((readingsFrom 0 script).map Prod.fst)[i]?).map (fun m => (m.offset, m.char)) =
        (script.toList[i]?).map fun c =>
          ((String.ofList (script.toList.take i)).utf8ByteSize, c)) ∧
      ∀ e, (stateAfter .start (readingsFrom 0 script)).finish = .error e ↔
        ∃ before f body, Span.ofText script.toList = before ++ [.literal f body false] ∧
          e = .unterminatedLiteral (String.ofList (before.flatMap Span.text)).utf8ByteSize f := by
  rw [readingsFrom_zero]
  refine ⟨(marks_start 0 script.toList).1, Span.ofText_text _, ?_, fun e => finish_start⟩
  intro i
  have := getElem?_marks .start 0 script.toList i
  simp only [Nat.zero_add] at this
  exact this

end Scan

end Braceline
