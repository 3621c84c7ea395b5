/-!
# Signals

The signals that can be sent to a process, by name and by number.
-/

namespace Braceline.Toolbox.Shell.Signal

/-- The names of signals, from the number one on. -/
def names : List String :=
  ["HUP", "INT", "QUIT", "ILL", "TRAP", "ABRT", "BUS", "FPE", "KILL", "USR1", "SEGV", "USR2",
    "PIPE", "ALRM", "TERM", "STKFLT", "CHLD", "CONT", "STOP", "TSTP", "TTIN", "TTOU", "URG",
    "XCPU", "XFSZ", "VTALRM", "PROF", "WINCH", "POLL", "PWR", "SYS"]

/-- How many signals there are, with those that have no name. -/
def count : Nat := 65

/-- The signal that ends a process unless another one is named. -/
def usual : Nat := 15

/-- What a shell calls the signals, and the end, which has the number zero. -/
def shellNames : List String :=
  let early := names.map fun n => if n = "STKFLT" then "16" else if n = "POLL" then "IO" else n
  let above := (List.range 15).map fun i => s!"RTMIN+{i + 1}"
  let below := (List.range 14).map fun i => s!"RTMAX-{14 - i}"
  "EXIT" :: early ++ ["32", "33", "RTMIN"] ++ above ++ below ++ ["RTMAX"]

/-- The number of a signal that a shell is given by name or by number. -/
def inShell? (word : String) : Option Nat :=
  if !word.isEmpty && word.toList.all Char.isDigit then word.toNat?.filter (· < count)
  else shellNames.findIdx? (· == word.toUpper)

/-- Does a signal leave a process alone that has made no plans for it? -/
def isHarmless (n : Nat) : Bool := [0, 17, 18, 23, 28].contains n

/-- What a shell says of a command that a signal has ended, if it says anything. -/
def describe? (n : Nat) : Option String :=
  [(1, "Hangup"), (3, "Quit"), (4, "Illegal instruction"), (5, "Trace/breakpoint trap"),
    (6, "Aborted"), (7, "Bus error"), (8, "Floating point exception"), (9, "Killed"),
    (10, "User defined signal 1"), (11, "Segmentation fault"), (12, "User defined signal 2"),
    (14, "Alarm clock"), (15, "Terminated"), (16, "Stack fault"),
    (24, "CPU time limit exceeded"), (25, "File size limit exceeded"),
    (26, "Virtual timer expired"), (27, "Profiling timer expired"), (29, "I/O possible"),
    (30, "Power failure"), (31, "Bad system call")].lookup n

end Braceline.Toolbox.Shell.Signal
