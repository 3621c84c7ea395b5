import Braceline.SystemError

/-!
# Commands

A program with its arguments, what comes of starting it, and the host that starts it.
-/

namespace Braceline

/-- A program to start, with its arguments. -/
structure Command where
  program : String
  args : List String
  deriving DecidableEq, Repr

namespace Command

/-- The program that stands in for an interpreter without words. -/
def defaultProgram : String := "python3"

/-- The command that has an interpreter, given by its words, run a program text with arguments. -/
def interpret (words : List String) (text : String) (args : List String) : Command :=
  ⟨words.head?.getD defaultProgram, words.drop 1 ++ "-c" :: text :: args⟩

/-- Does a word hold the character that ends a word for the system? -/
def holdsNul (word : String) : Bool := word.toList.contains '\x00'

/-- Can the system not be given the command? -/
def hasNul (c : Command) : Bool := holdsNul c.program || c.args.any holdsNul

/-- A word as it would be handed to the system. -/
def handed (word : String) : String := if holdsNul word then "<string-with-nul>" else word

end Command

/-- Why a program does not start. -/
inductive StartError where
  | refused (refusal : SystemError)
  /-- A word of the command holds a character that ends it. -/
  | nulByte
  deriving DecidableEq, Repr

namespace StartError

/-- The reason in words. -/
def message : StartError → String
  | refused e => e.message
  | nulByte => "nul byte found in provided data"

end StartError

/-- How a program ends. -/
inductive Status where
  | exited (code : Nat)
  | killed (signal : Nat)
  deriving DecidableEq, Repr

namespace Status

/-- The exit status that counts. A program that is killed has none of its own. -/
def code : Status → Nat
  | exited n => n
  | killed _ => 1

end Status

/-- What comes of a program that ran: how it ended and what it wrote. -/
structure Ending where
  status : Status
  stdout : String
  stderr : String
  deriving DecidableEq, Repr

/-- What starts programs. -/
structure Host where
  start : Command → Except StartError Ending

end Braceline
