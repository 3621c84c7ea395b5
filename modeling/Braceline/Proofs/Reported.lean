import Braceline.Run

/-!
# What comes of an invocation

An invocation ends in one report, whatever the sink and the host do. A script with a fault is
reported and nothing else is done. A listing that is shown goes to the sink up to where the sink
refuses, and does not depend on what would run it. A listing that is run starts one command, which
is given the loader that carries that listing, and nothing is written.

* `writes_writeAll`: what is taken of bytes, by induction along the offers.
* `delivered_dump`: a listing and its last line break.
* `delivered_sink`: a sink of limited room takes as many bytes as there is room for.
* `run_reports`: all that can come of an invocation.
-/

namespace Braceline

namespace Writer

/-- The bytes that are taken of offers, made in order after others. -/
def acceptedFrom (k : Writer) (before : List Bytes) : List Bytes → Bytes
  | [] => []
  | b :: bs =>
    (match k.answer before b with
      | .ok n => b.take n
      | .error _ => []) ++ k.acceptedFrom (before ++ [b]) bs

/-- The bytes that are taken of offers, made in order. -/
def accepted (k : Writer) (offers : List Bytes) : Bytes := k.acceptedFrom [] offers

/-- Is nothing taken of the bytes, for this reason? -/
def Refuses (k : Writer) (before : List Bytes) (bytes : Bytes) (reason : String) : Prop :=
  k.answer before bytes = .error reason ∨ k.answer before bytes = .ok 0 ∧ reason = noProgress

end Writer

/-- What bytes that are offered after others come to. What is taken of the offers counts as taken.
That is all of the bytes, or nothing is taken of the next ones. -/
def Writer.Writes (k : Writer) (before : List Bytes) (bytes : Bytes) (w : Writing) : Prop :=
  ∃ offers, w.taken = k.acceptedFrom before offers ∧
    (w.fault = none ∧ w.taken = bytes ∧ w.offers = before ++ offers ∨
      ∃ reason next, w.fault = some reason ∧ next ≠ [] ∧ w.taken ++ next <+: bytes ∧
        k.Refuses (before ++ offers) next reason)

/-- **The sink has been given the bytes.** What it has taken is written. That is all of them, or it
has refused the next ones. -/
def Delivered (k : Writer) (bytes : Bytes) (r : Report) : Prop :=
  ∃ offers, r.written.data.toList = k.accepted offers ∧
    (r.result = .ok .dumped ∧ r.written.data.toList = bytes ∨
      ∃ reason next, r.result = .error (.output reason) ∧ next ≠ [] ∧
        r.written.data.toList ++ next <+: bytes ∧ k.Refuses offers next reason)

/-- **The command was started** and nothing else, and this is what has come of it. -/
def Executed (h : Host) (c : Command) (r : Report) : Prop :=
  r.command = some c ∧
    (∀ e, h.start c = .error e → r.ending = none ∧ r.result = .error (.notStarted c.program e)) ∧
    ∀ ending, h.start c = .ok ending → r.ending = some ending ∧
      r.result = match ending.status with
        | .exited 0 => .ok .ran
        | .exited code => .error (.failed code)
        | .killed _ => .error (.failed 1)

variable {k : Writer} {inv : Invocation} {s : Settings} {h : Host} {l : Listing}
  {before offers : List Bytes} {bytes : Bytes} {room : Nat} {refusal : String}

/-! ### What a sink takes -/

namespace Writer

theorem acceptedFrom_append (k : Writer) (before offers more : List Bytes) :
    k.acceptedFrom before (offers ++ more) =
      k.acceptedFrom before offers ++ k.acceptedFrom (before ++ offers) more := by
  induction offers generalizing before with
  | nil => simp [acceptedFrom]
  | cons b offers ih => simp [acceptedFrom, ih]

/-- **Bytes that are offered until they are taken.** -/
theorem writes_writeAll (k : Writer) (before : List Bytes) (bytes : Bytes) :
    k.Writes before bytes (k.writeAll before bytes) := by
  fun_induction writeAll k before bytes with
  | case1 before => exact ⟨[], rfl, .inl ⟨rfl, rfl, (List.append_nil before).symm⟩⟩
  | case2 before bytes hne reason hanswer =>
    refine ⟨[], rfl, .inr ⟨reason, bytes, rfl, hne, List.prefix_rfl, .inl ?_⟩⟩
    rw [List.append_nil, hanswer]
  | case3 before bytes hne hanswer =>
    refine ⟨[], rfl, .inr ⟨noProgress, bytes, rfl, hne, List.prefix_rfl, .inr ⟨?_, rfl⟩⟩⟩
    rw [List.append_nil, hanswer]
  | case4 before bytes hne n hanswer w ih =>
    -- the first offer, and the rest of the bytes
    obtain ⟨offers, htaken, hend⟩ := ih
    have hsplit : bytes.take (n + 1) ++ bytes.drop (n + 1) = bytes := List.take_append_drop _ _
    have happend : before ++ bytes :: offers = before ++ [bytes] ++ offers := by simp
    refine ⟨bytes :: offers, ?_, ?_⟩
    · rw [acceptedFrom, hanswer, ← htaken]
    · rw [happend]
      rcases hend with ⟨hfault, hall, hoffers⟩ | ⟨reason, next, hfault, hnext, hle, hrefuses⟩
      · exact .inl ⟨hfault, by rw [hall, hsplit], hoffers⟩
      · refine .inr ⟨reason, next, hfault, hnext, ?_, hrefuses⟩
        have hle := (List.prefix_append_right_inj (bytes.take (n + 1))).2 hle
        rwa [← List.append_assoc, hsplit] at hle

/-- Bytes that are offered after all the others were taken. -/
theorem Writes.append {w w' : Writing} {more : Bytes} (hw : k.Writes before bytes w)
    (hfault : w.fault = none) (hw' : k.Writes w.offers more w') :
    k.Writes before (bytes ++ more) { w' with taken := w.taken ++ w'.taken } := by
  obtain ⟨offers, htaken, ⟨-, hall, hoffers⟩ | ⟨reason, next, hsome, -⟩⟩ := hw
  · -- all of `bytes` was taken, so `more` is what is offered next
    obtain ⟨offers', htaken', hend⟩ := hw'
    rw [hoffers, List.append_assoc] at hend
    rw [hoffers] at htaken'
    refine ⟨offers ++ offers', by rw [acceptedFrom_append, htaken, htaken'], ?_⟩
    rcases hend with ⟨hfault', hall', hoffers'⟩ | ⟨reason, next, hfault', hnext, hle, hrefuses⟩
    · exact .inl ⟨hfault', by rw [hall, hall'], hoffers'⟩
    · refine .inr ⟨reason, next, hfault', hnext, ?_, hrefuses⟩
      rw [List.append_assoc, hall]
      exact (List.prefix_append_right_inj bytes).2 hle
  · rw [hfault] at hsome
    cases hsome

/-- Bytes that would be offered after some were refused. -/
theorem Writes.of_fault {w : Writing} {reason : String} (hw : k.Writes before bytes w)
    (hfault : w.fault = some reason) (more : Bytes) : k.Writes before (bytes ++ more) w := by
  obtain ⟨offers, htaken, ⟨hnone, -⟩ | ⟨reason', next, hsome, hnext, hle, hrefuses⟩⟩ := hw
  · rw [hfault] at hnone
    cases hnone
  · exact ⟨offers, htaken, .inr ⟨reason', next, hsome, hnext,
      hle.trans (List.prefix_append _ _), hrefuses⟩⟩

theorem bytesOf_append (a b : String) : bytesOf (a ++ b) = bytesOf a ++ bytesOf b := by
  simp [bytesOf, String.toUTF8]

/-- **A text and a line break.** -/
theorem writes_writeLine (k : Writer) (text : String) :
    k.Writes [] (bytesOf (text ++ "\n")) (k.writeLine text) := by
  have hfirst := k.writes_writeAll [] (bytesOf text)
  have hsecond := k.writes_writeAll (k.writeAll [] (bytesOf text)).offers (bytesOf "\n")
  rw [bytesOf_append, writeLine]
  cases hfault : (k.writeAll [] (bytesOf text)).fault with
  | none => exact hfirst.append hfault hsecond
  | some reason => exact hfirst.of_fault hfault _

end Writer

/-- **A listing and its last line break** are given to the sink. -/
theorem delivered_dump (l : Listing) (k : Writer) :
    Delivered k (bytesOf (l.text ++ "\n")) (Invocation.dump l k) := by
  obtain ⟨offers, htaken, hend⟩ := k.writes_writeLine l.text
  refine ⟨offers, htaken, ?_⟩
  rcases hend with ⟨hfault, hall, -⟩ | ⟨reason, next, hfault, hnext, hle, hrefuses⟩
  · refine .inl ⟨?_, hall⟩
    simp only [Invocation.dump, hfault]
  · refine .inr ⟨reason, next, ?_, hnext, hle, hrefuses⟩
    simp only [Invocation.dump, hfault]

/-! ### A sink of limited room -/

namespace Sink

theorem used_concat (room : Nat) (before : List Bytes) (b : Bytes) :
    used room (before ++ [b]) = min room (used room before + b.length) := by
  rw [used, List.foldl_append]
  rfl

theorem used_le (room : Nat) (offers : List Bytes) : used room offers ≤ room := by
  rcases List.eq_nil_or_concat offers with rfl | ⟨before, b, rfl⟩
  · exact Nat.zero_le _
  · rw [List.concat_eq_append, used_concat]
    exact Nat.min_le_left _ _

/-- What is taken of offers is what they use up. -/
theorem length_acceptedFrom (room : Nat) (refusal : String) (before offers : List Bytes) :
    ((writer ⟨some room, refusal⟩).acceptedFrom before offers).length + used room before =
      used room (before ++ offers) := by
  induction offers generalizing before with
  | nil => rw [Writer.acceptedFrom, List.length_nil, Nat.zero_add, List.append_nil]
  | cons b offers ih =>
    have hrest := ih (before ++ [b])
    have hle := used_le room before
    rw [used_concat, List.append_assoc, List.singleton_append] at hrest
    rw [Writer.acceptedFrom, List.length_append]
    by_cases hroom : used room before < room
    · simp only [writer, if_pos hroom, List.length_take]
      simp only [writer] at hrest
      omega
    · simp only [writer, if_neg hroom, List.length_nil]
      simp only [writer] at hrest
      omega

/-- Bytes are refused if there is no more room. -/
theorem room_le_used (hne : bytes ≠ []) {reason : String}
    (h : (writer ⟨some room, refusal⟩).Refuses offers bytes reason) :
    room ≤ used room offers ∧ reason = refusal := by
  have hlength : 0 < bytes.length := List.length_pos_iff.2 hne
  by_cases hroom : used room offers < room
  · rcases h with h | ⟨h, -⟩
    · simp only [writer, if_pos hroom] at h
      cases h
    · simp only [writer, if_pos hroom, Except.ok.injEq] at h
      omega
  · rcases h with h | ⟨h, -⟩
    · simp only [writer, if_neg hroom, Except.error.injEq] at h
      exact ⟨Nat.le_of_not_lt hroom, h.symm⟩
    · simp only [writer, if_neg hroom] at h
      cases h

end Sink

/-- **A sink of limited room** takes as many bytes as there is room for. -/
theorem delivered_sink {r : Report} (h : Delivered (Sink.writer ⟨some room, refusal⟩) bytes r) :
    r.written.data.toList = bytes.take room ∧
      r.result = if bytes.length ≤ room then .ok .dumped else .error (.output refusal) := by
  obtain ⟨offers, htaken, hend⟩ := h
  have hlength := Sink.length_acceptedFrom room refusal [] offers
  have hle := Sink.used_le room offers
  rw [← Writer.accepted, ← htaken, List.nil_append] at hlength
  have hzero : Sink.used room [] = 0 := rfl
  rcases hend with ⟨hresult, hall⟩ | ⟨reason, next, hresult, hnext, ⟨rest, hbytes⟩, hrefuses⟩
  · rw [hall] at hlength ⊢
    have hfits : bytes.length ≤ room := by omega
    rw [if_pos hfits, List.take_of_length_le hfits]
    exact ⟨rfl, hresult⟩
  · -- what was refused begins where the room ends
    obtain ⟨hroom, rfl⟩ := Sink.room_le_used hnext hrefuses
    have hfull : r.written.data.toList.length = room := by omega
    have hmore : 0 < next.length := List.length_pos_iff.2 hnext
    have hover : ¬ bytes.length ≤ room := by
      rw [← hbytes, List.length_append, List.length_append]
      omega
    rw [if_neg hover, ← hbytes, List.append_assoc, ← hfull, List.take_left]
    exact ⟨rfl, hresult⟩

/-! ### What comes of an invocation -/

namespace Invocation

/-- The loader of a listing, if there is a delimiter to split at. -/
theorem loaderFor_eq (hd : inv.delimiter.or s.delimiter ≠ some "") :
    inv.loaderFor s l = .ok (Loader.text ⟨l, inv.script, inv.delimiter.or s.delimiter⟩) := by
  have hcheck : Settings.checkDelimiter (inv.effectiveDelimiter s) = .ok () := by
    unfold Settings.checkDelimiter
    split
    · next heq => exact absurd heq hd
    · rfl
  rw [loaderFor, hcheck]
  rfl

theorem loaderFor_empty (hd : inv.delimiter.or s.delimiter = some "") :
    inv.loaderFor s l = .error .emptyDelimiter := by
  rw [loaderFor, effectiveDelimiter, hd]
  rfl

/-- The command that runs a listing, if there is a word in the command line. -/
theorem commandFor_eq (hd : inv.delimiter.or s.delimiter ≠ some "") {w : String}
    {ws : List String} (hw : Words.split? s.interpreter = some (w :: ws)) :
    inv.commandFor s l = .ok ⟨w, ws ++ "-c" ::
      Loader.text ⟨l, inv.script, inv.delimiter.or s.delimiter⟩ :: inv.args⟩ := by
  rw [commandFor, loaderFor_eq hd, Settings.interpreterWords, hw]
  rfl

theorem commandFor_no_words (hd : inv.delimiter.or s.delimiter ≠ some "")
    (hw : (Words.split? s.interpreter).getD [] = []) :
    inv.commandFor s l = .error (.interpreter s.interpreter) := by
  have hwords : s.interpreterWords = .error (.interpreter s.interpreter) := by
    rw [Settings.interpreterWords]
    cases hsplit : Words.split? s.interpreter with
    | none => rfl
    | some ws =>
      rw [hsplit] at hw
      obtain rfl : ws = [] := hw
      rfl
  rw [commandFor, loaderFor_eq hd, hwords]
  rfl

/-- **A command that is started** is reported with what has come of it. -/
theorem executed_execute (c : Command) (h : Host) : Executed h c (execute c h) := by
  unfold execute
  refine ⟨?_, fun e he => ?_, fun ending hending => ?_⟩
  · split <;> rfl
  · rw [he]
    exact ⟨rfl, rfl⟩
  · rw [hending]
    refine ⟨rfl, ?_⟩
    cases hstatus : ending.status with
    | killed signal => simp [hstatus, Status.code]
    | exited code => cases code <;> simp [hstatus, Status.code]

theorem run_of_fault {e : ScriptError} (hg : inv.generate s = .error e) :
    inv.run s h k = .failure (.script e) := by
  rw [run, hg]

theorem run_of_debug (hg : inv.generate s = .ok l) (hd : inv.debug = true) :
    inv.run s h k = dump l k := by
  rw [run, hg]
  exact if_pos hd

theorem run_of_not_debug (hg : inv.generate s = .ok l) (hd : inv.debug = false) :
    inv.run s h k = match inv.commandFor s l with
      | .error f => .failure (.settings (.invalid f))
      | .ok c => execute c h := by
  rw [run, hg]
  exact if_neg (by rw [hd]; exact Bool.noConfusion)

end Invocation

/-- **All that can come of an invocation.** A fault of the script is reported, and nothing is done.
A listing that is shown is given to the sink; nothing is started, and what it would be run with does
not matter. A listing that is run is not written. If there is a delimiter to split at and a command
line with a word in it, one command is started, with the loader of the listing. -/
theorem run_reports (inv : Invocation) (s : Settings) (h : Host) (k : Writer) :
    (∀ e, inv.generate s = .error e →
      inv.run s h k = .failure (.script e) ∧ inv.loader s = .error (.script e)) ∧
    ∀ l, inv.generate s = .ok l →
      (inv.debug = true →
        Delivered k (bytesOf ("\n".intercalate (l.header ++ l.body) ++ "\n")) (inv.run s h k) ∧
        ((inv.run s h k).command = none ∧ (inv.run s h k).ending = none) ∧
        ∀ args delimiter interpreter delimiter' h',
          { inv with args, delimiter }.run { s with interpreter, delimiter := delimiter' } h' k =
            inv.run s h k) ∧
      (inv.debug = false →
        ((inv.run s h k).written = .empty ∧ ∀ k', inv.run s h k' = inv.run s h k) ∧
        (inv.delimiter.or s.delimiter = some "" →
          inv.run s h k = .failure (.settings (.invalid .emptyDelimiter)) ∧
            inv.loader s = .error (.settings (.invalid .emptyDelimiter))) ∧
        (inv.delimiter.or s.delimiter ≠ some "" →
          ((Words.split? s.interpreter).getD [] = [] →
            inv.run s h k = .failure (.settings (.invalid (.interpreter s.interpreter)))) ∧
          ∀ w ws, Words.split? s.interpreter = some (w :: ws) →
            ∃ text, inv.loader s = .ok text ∧
              text = Loader.text ⟨l, inv.script, inv.delimiter.or s.delimiter⟩ ∧
              Executed h ⟨w, ws ++ "-c" :: text :: inv.args⟩ (inv.run s h k))) := by
  refine ⟨fun e he => ⟨Invocation.run_of_fault he, ?_⟩, fun l hl => ⟨fun hd => ⟨?_, ?_, ?_⟩,
    fun hd => ⟨⟨Invocation.written_run_of_not_debug hd, fun k' => ?_⟩, fun hempty => ⟨?_, ?_⟩,
      fun hne => ⟨fun hw => ?_, fun w ws hw => ⟨_, ?_, rfl, ?_⟩⟩⟩⟩⟩
  · rw [Invocation.loader, he]
  · rw [Invocation.run_of_debug hl hd]
    exact delivered_dump l k
  · rw [Invocation.run_of_debug hl hd]
    exact ⟨rfl, rfl⟩
  · -- the listing is made of the script, the imports and the width alone
    intro args delimiter interpreter delimiter' h'
    have hl' : { inv with args, delimiter }.generate
        { s with interpreter, delimiter := delimiter' } = .ok l := hl
    rw [Invocation.run_of_debug hl hd, Invocation.run_of_debug hl' hd]
  · rw [Invocation.run_of_not_debug hl hd, Invocation.run_of_not_debug hl hd]
  · rw [Invocation.run_of_not_debug hl hd, Invocation.commandFor, Invocation.loaderFor_empty hempty]
    rfl
  · simp only [Invocation.loader, hl, Invocation.loaderFor_empty hempty]
  · rw [Invocation.run_of_not_debug hl hd, Invocation.commandFor_no_words hne hw]
  · simp only [Invocation.loader, hl, Invocation.loaderFor_eq hne]
  · rw [Invocation.run_of_not_debug hl hd, Invocation.commandFor_eq hne hw]
    exact Invocation.executed_execute _ h

end Braceline
