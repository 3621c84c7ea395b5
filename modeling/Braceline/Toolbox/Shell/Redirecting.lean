import Braceline.Toolbox.Shell.Expansion

/-!
# Redirections

Making the streams of a command lead elsewhere, one redirection after the other. Where one cannot be
made the command is not run, and the streams are as they were left.
-/

namespace Braceline.Toolbox.Shell

/-- Why a file cannot be written to. -/
def notCreated : SystemError → String
  | .notFound | .notDirectory => "Directory nonexistent"
  | e => e.reason

/-- Why a file cannot be read. -/
def notOpened : SystemError → String
  | .notFound | .notDirectory => "No such file"
  | e => e.reason

namespace Redirecting

/-- The stream that a file stands for. -/
def streamOf? (place : List String) : Option Nat :=
  [(["dev", "stdin"], 0), (["dev", "stdout"], 1), (["dev", "stderr"], 2)].lookup place

/-- The channel to what stands in a place, for reading or writing. -/
def openPlace (s : State) (place : List String) (reads writes appends : Bool) : State × Channel :=
  match s.tree.at? place with
  | some (.device _) => (s, if place = ["dev", "full"] then .full else .nowhere)
  | some .directory => (s, .nowhere)
  | some _ => (s, .file place 0 reads writes appends)
  | none =>
    ({ s with tree := s.tree.put place (.file .empty) }, .file place 0 reads writes appends)

/-- Makes a stream lead to the file at a path. -/
def openFile (s : State) (stream : Nat) (kind : Redirection) (path : String) :
    Except String State := do
  let writes := kind != .read
  let wrap := fun (e : SystemError) =>
    if writes then s!"cannot create {path}: {notCreated e}"
    else s!"cannot open {path}: {notOpened e}"
  let found := if writes then s.files.placeFor (Bytes.toText path) else placeAt s.files path
  let place ← found.mapError wrap
  let entry := s.tree.at? place
  match entry, (streamOf? place).bind fun n => s.streams.lookup n with
  | some .directory, _ => if writes then throw (wrap .isDirectory)
  | some (.program _), _ => if writes then throw (wrap .denied)
  | some (.file _), _ =>
    if kind = .write ∧ s.options.contains 'C' then throw s!"cannot create {path}: File exists"
  | some (.device _), some channel =>
    match s.channels[channel]? with
    | some (.file place _ _ _ appends) =>
      return s.lead stream (.file place 0 (!writes) writes appends)
    | _ => return s.point stream channel
  | _, _ => pure ()
  let s := match entry, kind with
    | some (.file _), .write | some (.file _), .clobber =>
      { s with tree := s.tree.put place (.file .empty) }
    | _, _ => s
  let (s, c) := openPlace s place (kind = .read ∨ kind = .readWrite) writes (kind = .append)
  return s.lead stream c

/-- Makes a stream the same as another one, or closes it. -/
def copy (s : State) (stream : Nat) (from? : Option Nat) : Except String State :=
  match from? with
  | none => .ok (s.close stream)
  | some n =>
    if n = stream then .ok s
    else
      match s.streams.lookup n with
      | some channel => .ok (s.point stream channel)
      | none => .error s!"{n}: Bad file descriptor"

/-- The stream that a text names, if it is not a hyphen. -/
def streamNamed (text : String) : Act (Option Nat) := do
  match text.toList with
  | ['-'] => return none
  | [d] => if d.isDigit then return some (d.toNat - 48) else throw "Syntax error: Bad fd number"
  | _ => throw "Syntax error: Bad fd number"

/-- What a redirection leads to, once its word has been expanded. -/
inductive Aim where
  | file (kind : Redirection) (path : String)
  | copy (source : Option Nat)
  | document (id : Nat)

/-- Expands the words of redirections. -/
def aims (capture : Capture) : List Redirect → Act (List (Nat × Aim))
  | [] => return []
  | .mk stream kind target :: rs => do
    let aim ← match kind with
      | .document id => pure (Aim.document id)
      | .copy => Aim.copy <$> (streamNamed (← Expansion.text capture .text target))
      | kind => Aim.file kind <$> Expansion.text capture .text target
    return (stream, aim) :: (← aims capture rs)

/-- Makes a redirection. A stream that is `kept` aside to be given back later is closed before it
becomes another one, so that nothing can be told through it if that fails. -/
def make (capture : Capture) (kept : Bool) (stream : Nat) (aim : Aim) : Act Unit := do
  match aim with
  | .file kind path => set (← openFile (← get) stream kind path)
  | .copy source =>
    let s ← get
    match copy s stream source with
    | .ok s => set s
    | .error e =>
      if kept then set (s.close stream)
      throw e
  | .document id =>
    let body := ((← get).documents.lookup id).getD []
    let text ← Expansion.document capture body
    set ((← get).lead stream (.text text))

/-- Makes redirections one after the other. -/
def makeAll (capture : Capture) (kept : Bool) : List (Nat × Aim) → Act Unit
  | [] => return ()
  | (stream, aim) :: rest => do
    make capture kept stream aim
    makeAll capture kept rest

end Redirecting

end Braceline.Toolbox.Shell
