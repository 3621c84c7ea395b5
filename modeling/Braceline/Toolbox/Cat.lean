import Braceline.Toolbox.Basic

/-!
# The command `cat`

Writes files, or its input, one after the other.
-/

namespace Braceline.Toolbox.Cat

/-- The end of a command that is misused. -/
def misused (name text : String) : Saying :=
  complained 1 s!"{name}: {text}\nTry '{name} --help' for more information.\n"

/-- Sorts out the operands, or complains about an option. There is only one, which changes
nothing. -/
def operands (name : String) : List String → Except Saying (List String)
  | [] => .ok []
  | w :: ws =>
    match w.toList with
    | ['-', '-'] => .ok ws
    | '-' :: '-' :: _ => .error (misused name s!"unrecognized option '{w}'")
    | '-' :: c :: cs =>
      match (c :: cs).find? (· != 'u') with
      | some c => .error (misused name s!"invalid option -- '{c}'")
      | none => operands name ws
    | _ => (operands name ws).map (w :: ·)

/-- A file's name as a complaint shows it. -/
def shown (file : String) : String :=
  if file.toList.contains ':' then asQuotedWord file else asWord file

/-- Would a file be copied to itself, from some byte on? There is more in it than its content if
something has been `written` to it. -/
def isOwnOutput (around : Surroundings) (written : Bool) (place : List String) (offset : Nat) :
    Bool :=
  around.target == some place &&
    match around.tree.at? place with
    | some (.file content) => written || offset < content.size
    | _ => false

/-- What `cat` writes and complains about files, in order, and what it leaves of the input. A
hyphen stands for the input. -/
def contents (around : Surroundings) (name : String) : Bool → String → List String →
    List (Nat × String) × String
  | _, input, [] => ([], input)
  | written, input, f :: fs =>
    let own := (2, s!"{name}: {shown f}: input file is output file\n")
    let (first, input) : (Nat × String) × String :=
      if f = "-" then
        if !around.reads then ((2, s!"{name}: -: Bad file descriptor\n"), input)
        else if around.source.any fun x => isOwnOutput around written x.1 x.2 then (own, input)
        else ((1, input), "")
      else
        match contentAt around.tree f with
        | .ok content =>
          if (placeAt around.tree f).toOption.any fun p => isOwnOutput around written p 0 then
            (own, input)
          else ((1, content), input)
        | .error e => ((2, s!"{name}: {shown f}: {e.reason}\n"), input)
    let written := written || first.1 == 1 && !first.2.isEmpty
    let (others, input) := contents around name written input fs
    (first :: others, input)

/-- The command, under the name that it was started by. -/
def run (around : Surroundings) (name : String) (words : List String) : Outcome :=
  match operands name words with
  | .error s => s.outcome around name 1
  | .ok files =>
    let files := if files.isEmpty then ["-"] else files
    let (written, input) := contents around name false around.input files
    let written := if !around.reads && files.contains "-" then
        written ++ [(2, s!"{name}: closing standard input: Bad file descriptor\n")]
      else written
    let isHalted := around.out = .closed
    let written := if isHalted then
        [(2, s!"{name}: standard output: Bad file descriptor\n")]
      else if around.out = .full ∧ written.any (fun w => w.1 = 1 ∧ !w.2.isEmpty) then
        [(2, s!"{name}: write error: No space left on device\n")]
      else written
    let code := if written.any (·.1 == 2) then 1 else 0
    ⟨.exited code, written, around.tree, if isHalted then around.input else input⟩

end Braceline.Toolbox.Cat
