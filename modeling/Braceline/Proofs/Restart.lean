import Braceline.Proofs.Relocation

/-!
# Starting a scan anew

From one character to the next, a scan takes along its region and the quotes that it is owed, and
nothing else. Where it stands as it starts, what is left of it is the scan of what is left of the
script: the scan that is begun there makes the same readings, and the scan of the rest alone makes
them as many bytes further to the front.

* `readings_drop`: what is left of a scan is a scan from the state that it has come to.
* `seek_inside`: an offset inside a character stands for the end of that character.
* `scan_restarts`: all of it, for scripts.
-/

namespace Braceline

namespace Scan

/-- **What comes of a scan** from byte `target` on: its readings, and whether it may stop after
them. -/
def scanFrom (target : Nat) (script : String) : List (Mark × State) × Except ScriptError Unit :=
  (readingsFrom target script, (stateAfter .start (readingsFrom target script)).finish)

variable {s : State} {o target : Nat} {c : Char} {cs ds : List Char}

/-! ### What is left of a scan -/

/-- **What is left of a scan** once a text has been read is a scan from where it stands then. That
may depend on the text after it. -/
theorem readings_drop (s : State) (o : Nat) (cs ds : List Char) :
    (readings s o (cs ++ ds)).drop cs.length =
      readings (stateAfter s ((readings s o (cs ++ ds)).take cs.length)) (o + Text.byteSize cs)
        ds := by
  induction cs generalizing s o with
  | nil => rfl
  | cons c cs ih =>
    rw [List.cons_append, readings_cons, List.length_cons, List.drop_succ_cons,
      List.take_succ_cons, stateAfter_cons, ih, Text.byteSize_cons, Nat.add_assoc]

/-- The two parts of a scan make up the whole. -/
theorem stateAfter_drop (s : State) (rs : List (Mark × State)) (n : Nat) :
    stateAfter (stateAfter s (rs.take n)) (rs.drop n) = stateAfter s rs := by
  rw [← stateAfter_append, List.take_append_drop]

/-! ### Where a scan begins -/

theorem seek_of_le (h : target ≤ o) (cs : List Char) : seek o target cs = (o, cs) := by
  cases cs with
  | nil => rfl
  | cons c cs => rw [seek, if_neg (by omega)]

/-- **An offset inside a character**, or at its end, stands for its end. -/
theorem seek_inside (hlt : o + Text.byteSize cs < target)
    (hle : target ≤ o + Text.byteSize cs + c.utf8Size) (ds : List Char) :
    seek o target (cs ++ c :: ds) = (o + Text.byteSize cs + c.utf8Size, ds) := by
  induction cs generalizing o with
  | nil =>
    rw [Text.byteSize_nil, Nat.add_zero] at hlt hle ⊢
    rw [List.nil_append, seek, if_pos hlt]
    exact seek_of_le hle ds
  | cons a cs ih =>
    rw [Text.byteSize_cons, ← Nat.add_assoc] at hlt hle ⊢
    rw [List.cons_append, seek, if_pos (by omega)]
    exact ih hlt hle

/-- At the end of a text begins what follows it. -/
theorem seek_append (cs ds : List Char) :
    seek 0 (Text.byteSize cs) (cs ++ ds) = (Text.byteSize cs, ds) := by
  rcases List.eq_nil_or_concat cs with rfl | ⟨cs, c, rfl⟩
  · exact seek_of_le (Nat.le_refl 0) ds
  · have hsize : Text.byteSize (cs.concat c) = 0 + Text.byteSize cs + c.utf8Size := by
      rw [List.concat_eq_append, Text.byteSize_append, Text.byteSize_cons, Text.byteSize_nil]
      omega
    have hpos := c.utf8Size_pos
    rw [hsize, List.concat_eq_append, List.append_assoc, List.singleton_append]
    exact seek_inside (by omega) (Nat.le_refl _) ds

/-- The scan from the end of a text on. -/
theorem readingsFrom_append (a b : String) :
    readingsFrom a.utf8ByteSize (a ++ b) = readings .start a.utf8ByteSize b.toList := by
  rw [readingsFrom, String.toList_append, ← Text.byteSize_toList, seek_append]

/-! ### A scan anew -/

/-- **The scan of a text alone** makes the readings that it makes after another text, nearer to the
front. -/
theorem scanFrom_append (a b : String) :
    scanFrom a.utf8ByteSize (a ++ b) =
      ((scanFrom 0 b).1.map (movedReading a.utf8ByteSize),
        relocatedResult (fun o => o + a.utf8ByteSize) id (scanFrom 0 b).2) := by
  have hmoved : readings .start a.utf8ByteSize b.toList =
      (readingsFrom 0 b).map (movedReading a.utf8ByteSize) := by
    have h := readings_moved a.utf8ByteSize .start 0 b.toList
    rw [Nat.zero_add] at h
    rw [readingsFrom_zero]
    exact h
  have hstate := stateAfter_moved a.utf8ByteSize .start (readingsFrom 0 b)
  rw [scanFrom, scanFrom, readingsFrom_append, hmoved, ← finish_moved_eq, ← hstate]
  rfl

/-- **A scan may be begun anew wherever it stands in code** with no quote owed. What is left of it
there is the scan that begins at this offset, and the scan of what is left of the script, with all
offsets counted from there, that of an open literal included. A scan that is to begin inside a
character begins at its end. -/
theorem scan_restarts :
    (∀ a b : String,
      (stateAfter .start ((readingsFrom 0 (a ++ b)).take a.length)).mode = .code →
      (stateAfter .start ((readingsFrom 0 (a ++ b)).take a.length)).owed = 0 →
      ((readingsFrom 0 (a ++ b)).drop a.length,
          (stateAfter .start (readingsFrom 0 (a ++ b))).finish) =
        scanFrom a.utf8ByteSize (a ++ b) ∧
      scanFrom a.utf8ByteSize (a ++ b) =
        ((scanFrom 0 b).1.map (movedReading a.utf8ByteSize),
          relocatedResult (fun o => o + a.utf8ByteSize) id (scanFrom 0 b).2)) ∧
    ∀ (a b : String) (c : Char) (target : Nat), a.utf8ByteSize < target →
      target < a.utf8ByteSize + c.utf8Size →
      scanFrom target (a ++ String.singleton c ++ b) =
        scanFrom (a.utf8ByteSize + c.utf8Size) (a ++ String.singleton c ++ b) := by
  refine ⟨fun a b hmode howed => ⟨?_, scanFrom_append a b⟩, fun a b c target hlt hle => ?_⟩
  · have hstart : stateAfter .start ((readingsFrom 0 (a ++ b)).take a.length) = .start :=
      eq_start_of_code hmode howed
    have hdrop :
        (readingsFrom 0 (a ++ b)).drop a.length = readingsFrom a.utf8ByteSize (a ++ b) := by
      have h := readings_drop .start 0 a.toList b.toList
      rw [← String.toList_append, ← readingsFrom_zero, String.length_toList, hstart, Nat.zero_add,
        Text.byteSize_toList] at h
      rw [h, readingsFrom_append]
    -- the end of the whole scan is that of its second part
    have hend := stateAfter_drop .start (readingsFrom 0 (a ++ b)) a.length
    rw [hstart, hdrop] at hend
    rw [scanFrom, hdrop, hend]
  · have hchars : (a ++ String.singleton c ++ b).toList = a.toList ++ c :: b.toList := by simp
    have hsize := Text.byteSize_toList a
    have hreadings : readingsFrom target (a ++ String.singleton c ++ b) =
        readingsFrom (a.utf8ByteSize + c.utf8Size) (a ++ String.singleton c ++ b) := by
      rw [readingsFrom, readingsFrom, hchars, seek_inside (by omega) (by omega),
        seek_inside (by omega) (by omega)]
    rw [scanFrom, scanFrom, hreadings]

/-- After a letter of two bytes and a closed triple fence, what is left of the scan is that of its
second text alone, nine bytes on; and a scan that is to begin inside the letter begins after it. -/
theorem scan_restarts_after_fence :
    ((readingsFrom 0 ("é'''''';" ++ "#'\n'z")).drop 8,
        (stateAfter .start (readingsFrom 0 ("é'''''';" ++ "#'\n'z"))).finish) =
      ((scanFrom 0 "#'\n'z").1.map (movedReading 9),
        .error (.unterminatedLiteral 12 ⟨.single, false⟩)) ∧
    (scanFrom 1 ("" ++ String.singleton 'é' ++ "'z")).2 =
      .error (.unterminatedLiteral 2 ⟨.single, false⟩) := by
  obtain ⟨hanew, hinside⟩ := scan_restarts
  obtain ⟨hleft, halone⟩ := hanew "é'''''';" "#'\n'z" (by decide) (by decide)
  have hletter := hinside "" "'z" 'é' 1 (by decide) (by decide)
  refine ⟨hleft.trans (halone.trans (by decide)), ?_⟩
  exact (congrArg Prod.snd hletter).trans (by decide)

end Scan

end Braceline
