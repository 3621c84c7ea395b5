import Braceline.Toolbox.Basic

/-!
# Open streams

What the streams of a shell lead to. A channel keeps its place between one reading or writing and
the next, for all streams that lead to it.
-/

namespace Braceline.Toolbox.Shell

/-- What a stream leads to. -/
inductive Channel where
  /-- The shell's own output or error stream. -/
  | out (stream : Nat)
  /-- A text that is read. -/
  | text (rest : List Char)
  /-- A place where all that is written is kept; for another command if `limited`. -/
  | kept (text : String) (limited : Bool)
  /-- A file, from some byte on. -/
  | file (place : List String) (offset : Nat) (reads writes appends : Bool)
  | nowhere
  /-- A place without space. -/
  | full

namespace Channel

/-- How much a command may write that nobody may be reading. -/
def pipeSize : Nat := 0x40000

/-- Can a channel be written to? -/
def sink : Channel → Sink
  | .text _ => .closed
  | .file _ _ _ writes _ => if writes then .ready else .closed
  | .full => .full
  | _ => .ready

/-- Can a channel be read from? -/
def isReadable : Channel → Bool
  | .text _ | .nowhere | .full => true
  | .file _ _ reads _ _ => reads
  | _ => false

/-- The file that a channel is, and the byte that is read or written next. -/
def file? : Channel → Option (List String × Nat)
  | .file place offset _ _ _ => some (place, offset)
  | _ => none

/-- Has more been written than anyone is waiting for? -/
def isFlooded : Channel → Bool
  | .kept t true => pipeSize < t.utf8ByteSize
  | _ => false

/-- The content of the file in a place. -/
def content (tree : FileTree) (place : List String) : ByteArray :=
  match tree.at? place with
  | some (.file content) | some (.device content) => content
  | some (.program _) => FileTree.programContent
  | _ => .empty

/-- A content with bytes written over it from some place on. -/
def overwrite (old new : ByteArray) (offset : Nat) : ByteArray :=
  let gap : ByteArray := ⟨Array.replicate (offset - old.size) 0⟩
  old.extract 0 offset ++ gap ++ new ++ old.extract (offset + new.size) old.size

/-- A line of a text, without the line feed at its end, whether it had one, and what is left. -/
def line : List Char → List Char × Bool × List Char
  | [] => ([], false, [])
  | c :: cs =>
    if c = '\n' then ([], true, cs)
    else
      let (l, whole, rest) := line cs
      (c :: l, whole, rest)

/-- The place of the next line feed in bytes, or their end. The first argument bounds the number of
steps. -/
def lineEnd (b : ByteArray) : Nat → Nat → Nat
  | 0, i => i
  | n + 1, i => if i < b.size ∧ b.get! i ≠ 10 then lineEnd b n (i + 1) else i

/-- Reads a line: the line without the line feed at its end, whether it had one, and the channel. -/
def readLine (tree : FileTree) : Channel → List Char × Bool × Channel
  | .text cs =>
    let (l, whole, rest) := line cs
    (l, whole, .text rest)
  | .file place offset true writes appends =>
    let b := content tree place
    let stop := lineEnd b b.size offset
    let whole := decide (stop < b.size)
    let l := (Bytes.ofByteArray (b.extract offset stop)).toList
    (l, whole, .file place (if whole then stop + 1 else stop) true writes appends)
  | c => ([], false, c)

/-- All that is left to read. -/
def rest (tree : FileTree) : Channel → String
  | .text cs => String.ofList cs
  | .file place offset true _ _ =>
    let b := content tree place
    Bytes.ofByteArray (b.extract offset b.size)
  | _ => ""

/-- The channel when something is left of what was left to read. -/
def leave (tree : FileTree) (left : String) : Channel → Channel
  | .text _ => .text left.toList
  | .file place offset true writes appends =>
    let size := (content tree place).size
    .file place (max offset (size - left.length)) true writes appends
  | c => c

end Channel

end Braceline.Toolbox.Shell
