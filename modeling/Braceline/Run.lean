import Braceline.Invocation
import Braceline.Sink

/-!
# Running an invocation

A listing is either written to a sink or handed to the interpreter, never both. Nothing is started
and nothing is written for a script that has a fault.

* `written_run_of_not_debug`: a listing that is run is not written.
-/

namespace Braceline

/-- What was done with a listing. -/
inductive Outcome where
  | dumped
  | ran
  deriving DecidableEq, Repr

/-- What comes of an invocation. -/
structure Report where
  result : Except RunError Outcome
  /-- What the sink has taken. -/
  written : ByteArray
  /-- The command that was started or refused to start. -/
  command : Option Command
  /-- How the command ended, if it started. -/
  ending : Option Ending

namespace Report

/-- The report of an invocation that does nothing but fail. -/
def failure (e : RunError) : Report := ⟨.error e, .empty, none, none⟩

end Report

namespace Invocation

/-- Writes a listing to the sink. -/
def dump (l : Listing) (k : Writer) : Report :=
  let w := k.writeLine l.text
  { result := match w.fault with
      | none => .ok .dumped
      | some reason => .error (.output reason)
    written := ⟨w.taken.toArray⟩
    command := none
    ending := none }

/-- Starts a command and reports how it ended. -/
def execute (c : Command) (h : Host) : Report :=
  match h.start c with
  | .error e => ⟨.error (.notStarted c.program e), .empty, some c, none⟩
  | .ok ending =>
    let result :=
      if ending.status = .exited 0 then .ok .ran else .error (.failed ending.status.code)
    ⟨result, .empty, some c, some ending⟩

/-- **Runs an invocation.** -/
def run (inv : Invocation) (s : Settings) (h : Host) (k : Writer) : Report :=
  match inv.generate s with
  | .error e => .failure (.script e)
  | .ok l =>
    if inv.debug then dump l k
    else
      match inv.commandFor s l with
      | .error f => .failure (.settings (.invalid f))
      | .ok c => execute c h

variable {inv : Invocation} {s : Settings} {h : Host} {k : Writer}

/-- A listing that is run is not written. -/
theorem written_run_of_not_debug (hd : inv.debug = false) :
    (inv.run s h k).written = .empty := by
  unfold run
  split
  · rfl
  · rw [if_neg (by simp [hd])]
    split
    · rfl
    · unfold execute
      split <;> rfl

end Invocation

end Braceline
