/-!
# Refusals of the operating system

The few refusals that reading a file or starting a program can meet.
-/

namespace Braceline

/-- Why the operating system refuses. -/
inductive SystemError where
  | notFound
  | denied
  | notDirectory
  | isDirectory
  | nameTooLong
  deriving DecidableEq, Repr

namespace SystemError

/-- The number that the system has for it. -/
def number : SystemError → Nat
  | notFound => 2
  | denied => 13
  | notDirectory => 20
  | isDirectory => 21
  | nameTooLong => 36

/-- The system's words for it. -/
def reason : SystemError → String
  | notFound => "No such file or directory"
  | denied => "Permission denied"
  | notDirectory => "Not a directory"
  | isDirectory => "Is a directory"
  | nameTooLong => "File name too long"

/-- The refusal as a message reports it. -/
def message (e : SystemError) : String := s!"{e.reason} (os error {e.number})"

end SystemError

end Braceline
