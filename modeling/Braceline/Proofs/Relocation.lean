import Braceline.Proofs.Rescan
import Braceline.Proofs.SameSkeleton
import Braceline.Proofs.Step

/-!
# Offsets are passed on

The pass decides nothing by an offset. It keeps the offsets of the blocks it opens, and it puts one
into a fault. So marks at other offsets make the same lines, or the same fault at the offset that
its mark has come to have.

* `step_relocated`: what a segment makes.
* `read_relocated`, `reads_relocated`: one step of the pass, and a run.
* `concludes_relocated`: what a script comes to.
-/

namespace Braceline

/-- The fault at another offset. -/
def ScriptError.relocated (f : Nat → Nat) (e : ScriptError) : ScriptError := e.moved (f e.offset)

/-- The stop at another offset, if it has one. -/
def Stop.relocated (f : Nat → Nat) : Stop → Stop
  | openBrace o => openBrace (f o)
  | closeBrace o => closeBrace (f o)
  | stop => stop

/-- The open blocks with their braces at other offsets. -/
def Nesting.relocated (f : Nat → Nat) (n : Nesting) : Nesting :=
  ⟨n.blocks.map fun b => { b with openedAt := f b.openedAt }⟩

def Expansion.relocated (f : Nat → Nat) (x : Expansion) : Expansion :=
  { x with nesting := x.nesting.relocated f }

def Pass.relocated (f : Nat → Nat) (p : Pass) : Pass := ⟨p.expansion.relocated f, p.draft⟩

/-- What a step has made, relocated by `g`, or its fault. -/
def relocatedResult {α : Type} (f : Nat → Nat) (g : α → α) :
    Except ScriptError α → Except ScriptError α
  | .ok a => .ok (g a)
  | .error e => .error (e.relocated f)

/-- **What a script comes to** from here on: the pass over its marks, and then, unless that makes a
fault, the end of the scan and the end of the blocks. -/
def Pass.concludes (p : Pass) (ms : List Mark) (finish : Except ScriptError Unit)
    (structural : Bool) : Except ScriptError Program :=
  (p.reads ms).bind fun q => finish.bind fun _ => q.expansion.nesting.finish.bind fun _ =>
    .ok ⟨q.ended.lines.reverse, structural⟩

variable {f : Nat → Nat} {p q : Pass} {ms : List Mark} {α β : Type}

/-! ### Faults -/

/-- A fault where it is found already. -/
theorem ScriptError.moved_offset (e : ScriptError) : e.moved e.offset = e := by cases e <;> rfl

theorem ScriptError.relocated_relocated (f g : Nat → Nat) (e : ScriptError) :
    (e.relocated f).relocated g = e.relocated fun o => g (f o) := by cases e <;> rfl

theorem relocatedResult_relocatedResult {α : Type} (f g : Nat → Nat) (r : Except ScriptError α) :
    relocatedResult g id (relocatedResult f id r) = relocatedResult (fun o => g (f o)) id r := by
  cases r with
  | ok a => rfl
  | error e => exact congrArg Except.error (e.relocated_relocated f g)

/-- A result is relocated in two steps. -/
theorem relocatedResult_bind {h : α → α} {h' : β → β} {r : Except ScriptError α}
    {k k' : α → Except ScriptError β} (hk : ∀ a, k' (h a) = relocatedResult f h' (k a)) :
    (relocatedResult f h r).bind k' = relocatedResult f h' (r.bind k) := by
  cases r with
  | error e => rfl
  | ok a => exact hk a

theorem map_relocated_relocated (f g : Nat → Nat) (ms : List Mark) :
    (ms.map (Mark.relocated f)).map (Mark.relocated g) =
      ms.map (Mark.relocated fun o => g (f o)) := by
  rw [List.map_map]
  rfl

theorem any_isStructural_relocated (f : Nat → Nat) (ms : List Mark) :
    (ms.map (Mark.relocated f)).any Mark.isStructural = ms.any Mark.isStructural := by
  rw [List.any_map]
  rfl

/-- An open literal is the fault at the offset that it is said to begin at. -/
theorem Scan.finish_relocated (f : Nat → Nat) (s : State) :
    (s.relocated f).finish = relocatedResult f id s.finish := by
  obtain ⟨r, owed⟩ := s
  cases r <;> rfl

/-- A scan that began further on has the fault of an open literal further on. -/
theorem Scan.finish_moved_eq (k : Nat) (s : State) :
    (s.moved k).finish = relocatedResult (fun o => o + k) id s.finish :=
  finish_relocated (· + k) s

/-! ### Nestings -/

namespace Nesting

@[simp]
theorem level_relocated (f : Nat → Nat) (n : Nesting) : (n.relocated f).level = n.level := by
  obtain ⟨bs⟩ := n
  cases bs <;> rfl

theorem deepen_relocated (f : Nat → Nat) (n : Nesting) (step o : Nat) :
    (n.relocated f).deepen step (f o) = relocatedResult f (relocated f) (n.deepen step o) := by
  rw [deepen, deepen, level_relocated]
  split <;> rfl

theorem pop_relocated (f : Nat → Nat) (n : Nesting) (o : Nat) :
    (n.relocated f).pop (f o) = relocatedResult f (relocated f) (n.pop o) := by
  obtain ⟨bs⟩ := n
  cases bs <;> rfl

theorem finish_relocated (f : Nat → Nat) (n : Nesting) :
    (n.relocated f).finish = relocatedResult f id n.finish := by
  rw [finish, finish, relocated, List.getLast?_map]
  cases n.blocks.getLast? <;> rfl

end Nesting

/-! ### Segments -/

namespace Expansion

theorem emit_relocated (f : Nat → Nat) (x : Expansion) (text : List Char) :
    (x.relocated f).emit text = (x.emit text).relocated f := by
  have hlevel : (x.relocated f).nesting.level = x.nesting.level := Nesting.level_relocated f _
  rw [emit_eq, emit_eq, hlevel]
  rfl

theorem push_relocated (f : Nat → Nat) (x : Expansion) (l : Line) :
    (x.relocated f).push l = (x.push l).relocated f := rfl

theorem enter_relocated (f : Nat → Nat) (x : Expansion) (step o : Nat) :
    (x.relocated f).enter step (f o) = relocatedResult f (relocated f) (x.enter step o) := by
  have hdeepen : (x.relocated f).nesting.deepen step (f o) =
      relocatedResult f (Nesting.relocated f) (x.nesting.deepen step o) :=
    Nesting.deepen_relocated f _ step o
  rw [enter, enter, hdeepen]
  cases x.nesting.deepen step o <;> rfl

theorem leave_relocated (f : Nat → Nat) (x : Expansion) (o : Nat) :
    (x.relocated f).leave (f o) = relocatedResult f (relocated f) (x.leave o) := by
  have hpop : (x.relocated f).nesting.pop (f o) =
      relocatedResult f (Nesting.relocated f) (x.nesting.pop o) := Nesting.pop_relocated f _ o
  rw [leave, leave, hpop]
  cases x.nesting.pop o <;> rfl

theorem enterEachLine_relocated (f : Nat → Nat) (x : Expansion) (before : List Char) (o : Nat) :
    (x.relocated f).enterEachLine before (f o) =
      relocatedResult f (relocated f) (x.enterEachLine before o) := by
  have hlevel : ((x.emit before).relocated f).nesting.level = (x.emit before).nesting.level :=
    Nesting.level_relocated f _
  have hlooped : (x.relocated f).looped = x.looped := rfl
  rw [enterEachLine, enterEachLine, hlooped, emit_relocated]
  split
  · rfl
  · simp only [hlevel, push_relocated]
    exact enter_relocated f { (x.emit before).push (.eachLine (x.emit before).nesting.level) with
      looped := true } Line.eachLineDepth o

theorem enterBlock_relocated (f : Nat → Nat) (x : Expansion) (text : List Char) (o : Nat) :
    (x.relocated f).enterBlock text (f o) =
      relocatedResult f (relocated f) (x.enterBlock text o) := by
  have hlevel : (x.relocated f).nesting.level = x.nesting.level := Nesting.level_relocated f _
  rw [enterBlock, enterBlock]
  split
  · rfl
  · rw [hlevel, push_relocated]
    exact enter_relocated f _ 1 o

/-- **What a segment makes** does not depend on where it stops. -/
theorem step_relocated (f : Nat → Nat) (x : Expansion) (d : Segment.Draft) (stop : Stop) :
    (x.relocated f).step (d.close (stop.relocated f)) =
      relocatedResult f (relocated f) (x.step (d.close stop)) := by
  cases stop with
  | openBrace o =>
    simp only [step, Stop.relocated, Segment.Draft.close]
    split
    · exact enterEachLine_relocated f x _ o
    · exact enterBlock_relocated f x _ o
  | closeBrace o =>
    simp only [step, Stop.relocated, Segment.Draft.close]
    rw [emit_relocated]
    exact leave_relocated f _ o
  | semicolon | lineBreak | endOfScript => exact congrArg Except.ok (emit_relocated f x _)

end Expansion

/-! ### The pass -/

/-- A mark does the same to a draft wherever it stands. -/
theorem Segment.Draft.read_relocated (f : Nat → Nat) (d : Segment.Draft) (m : Mark) :
    d.read (m.relocated f) = (d.read m).map id (Stop.relocated f) := by
  obtain ⟨o, c, live⟩ := m
  simp only [read, Mark.relocated]
  cases live with
  | false => rfl
  | true =>
    simp only [if_true, readLive]
    -- each test of the character is the same on both sides
    repeat' split
    all_goals rfl

namespace Pass

/-- **One step of the pass** over a mark that stands elsewhere. -/
theorem read_relocated (f : Nat → Nat) (p : Pass) (m : Mark) :
    (p.relocated f).read (m.relocated f) = relocatedResult f (relocated f) (p.read m) := by
  have hdraft : (p.relocated f).draft = p.draft := rfl
  rw [read, read, hdraft, Segment.Draft.read_relocated]
  cases p.draft.read m with
  | inl d => rfl
  | inr stop =>
    simp only [Sum.map_inr]
    have hstep : (p.relocated f).expansion.step (p.draft.close (stop.relocated f)) =
        relocatedResult f (Expansion.relocated f) (p.expansion.step (p.draft.close stop)) :=
      Expansion.step_relocated f _ _ _
    rw [hstep]
    cases p.expansion.step (p.draft.close stop) <;> rfl

/-- **A run of the pass** over marks that stand elsewhere. -/
theorem reads_relocated (f : Nat → Nat) (p : Pass) (ms : List Mark) :
    (p.relocated f).reads (ms.map (Mark.relocated f)) =
      relocatedResult f (relocated f) (p.reads ms) := by
  induction ms generalizing p with
  | nil => rfl
  | cons m ms ih =>
    rw [List.map_cons, reads_cons, reads_cons, read_relocated]
    exact relocatedResult_bind ih

theorem lines_ended_relocated (f : Nat → Nat) (p : Pass) :
    (p.relocated f).ended.lines = p.ended.lines := by
  have hended : (p.relocated f).ended = p.ended.relocated f := Expansion.emit_relocated f _ _
  rw [hended]
  rfl

/-- **What a script comes to** from here on, if the pass over other marks leaves the same blocks
and lines, or the same fault, elsewhere. -/
theorem concludes_of_reads {p' : Pass} {ns : List Mark}
    (h : p'.reads ns = relocatedResult f (relocated f) (p.reads ms))
    (finish : Except ScriptError Unit) (b : Bool) :
    p'.concludes ns (relocatedResult f id finish) b =
      relocatedResult f id (p.concludes ms finish b) := by
  rw [concludes, concludes, h]
  refine relocatedResult_bind fun q => relocatedResult_bind fun _ => ?_
  have hnesting : (q.relocated f).expansion.nesting.finish =
      relocatedResult f id q.expansion.nesting.finish := Nesting.finish_relocated f _
  rw [hnesting, lines_ended_relocated]
  exact relocatedResult_bind fun _ => rfl

theorem concludes_relocated (f : Nat → Nat) (p : Pass) (ms : List Mark)
    (finish : Except ScriptError Unit) (b : Bool) :
    (p.relocated f).concludes (ms.map (Mark.relocated f)) (relocatedResult f id finish) b =
      relocatedResult f id (p.concludes ms finish b) :=
  concludes_of_reads (reads_relocated f p ms) finish b

theorem concludes_append_ok (h : p.reads ms = .ok q) (ns : List Mark)
    (finish : Except ScriptError Unit) (b : Bool) :
    p.concludes (ms ++ ns) finish b = q.concludes ns finish b := by
  rw [concludes, concludes, reads_append_ok h]

theorem concludes_append_error {e : ScriptError} (h : p.reads ms = .error e) (ns : List Mark)
    (finish : Except ScriptError Unit) (b : Bool) :
    p.concludes (ms ++ ns) finish b = .error e := by
  rw [concludes, reads_append, h]
  rfl

end Pass

/-- **A script expands to what it comes to** from its start. -/
theorem expandChars_eq_concludes (cs : List Char) :
    expandChars cs = Pass.start.concludes (Scan.marks .start 0 cs)
      (Scan.endState .start 0 cs).finish ((Scan.marks .start 0 cs).any Mark.isStructural) :=
  expandChars_eq cs

end Braceline
