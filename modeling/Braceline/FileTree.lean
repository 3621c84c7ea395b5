import Braceline.SystemError
import Braceline.Text.Pieces

/-!
# File trees

Files under their paths, seen from a working directory. A path is walked name by name: every name
but the last must be a directory, `.` stays where it is, and `..` goes up. A path that is too long
as a whole is not walked at all.
-/

namespace Braceline

/-- What stands under a path. -/
inductive Entry where
  | file (content : ByteArray)
  /-- A file that is not an ordinary one, though it can be read. -/
  | device (content : ByteArray)
  /-- An ordinary file that can be started, and the command that it holds. -/
  | program (command : String)
  | directory

/-- Entries under their paths from the root, names that stand for other places, and a working
directory. The directories on the way to an entry need not be listed. -/
structure FileTree where
  entries : List (List String × Entry)
  links : List (List String × List String)
  working : List String

/-- What a program may ask about files. -/
structure Files where
  /-- The content of the file at a path. -/
  read : String → Except SystemError ByteArray
  /-- Is there an ordinary file at a path? -/
  isFile : String → Bool

namespace FileTree

/-- What stands at a place of the tree. -/
def at? (t : FileTree) (place : List String) : Option Entry :=
  match t.entries.lookup place with
  | some e => some e
  | none =>
    if place.isEmpty ∨ t.entries.any (fun e => place.isPrefixOf e.1) ∨ place.isPrefixOf t.working
    then some .directory
    else none

/-- The longest name that a directory can hold, in bytes. -/
def maxNameSize : Nat := 255

/-- The longest path that the system takes, in bytes. -/
def maxPathSize : Nat := 4095

/-- The place itself, or the one that it stands for. -/
def follow (t : FileTree) (place : List String) : List String :=
  (t.links.lookup place).getD place

/-- One name further. -/
def stepTo (t : FileTree) (place : List String) (name : String) :
    Except SystemError (List String) :=
  match t.at? place with
  | none => .error .notFound
  | some .directory =>
    if name == "" || name == "." then .ok place
    else if name == ".." then .ok place.dropLast
    else if maxNameSize < name.utf8ByteSize then .error .nameTooLong
    else
      let next := t.follow (place ++ [name])
      if (t.at? next).isSome then .ok next else .error .notFound
  | some _ => .error .notDirectory

/-- The place that names lead to. -/
def walk (t : FileTree) (place : List String) (names : List String) :
    Except SystemError (List String) :=
  names.foldlM t.stepTo place

/-- The place that a path leads to. -/
def resolve (t : FileTree) (path : String) : Except SystemError (List String) :=
  if path.isEmpty then .error .notFound
  else if maxPathSize < path.utf8ByteSize then .error .nameTooLong
  else
    let names := (Text.pieces '/' path.toList).map String.ofList
    t.walk (if path.front == '/' then [] else t.working) names

/-- What stands under a path. -/
def find (t : FileTree) (path : String) : Except SystemError Entry := do
  match t.at? (← t.resolve path) with
  | some e => .ok e
  | none => .error .notFound

/-- What a program is to those who read it: no text. -/
def programContent : ByteArray := ⟨#[0x7F, 0x45, 0x4C, 0x46, 0xFF]⟩

/-- The content of the file at a path. -/
def read (t : FileTree) (path : String) : Except SystemError ByteArray := do
  match ← t.find path with
  | .file content | .device content => .ok content
  | .program _ => .ok programContent
  | .directory => .error .isDirectory

/-- The command that the file at a path holds. Nothing but a program can be started. -/
def commandAt (t : FileTree) (path : String) : Except SystemError String := do
  match ← t.find path with
  | .program command => .ok command
  | _ => .error .denied

/-- Is there an ordinary file at a path? -/
def isFile (t : FileTree) (path : String) : Bool :=
  match t.find path with
  | .ok (.file _) | .ok (.program _) => true
  | _ => false

/-- The tree, as a program asks about it. -/
def files (t : FileTree) : Files := ⟨t.read, t.isFile⟩

/-- The names in a directory. -/
def namesIn (t : FileTree) (place : List String) : List String :=
  let below := fun (path : List String) =>
    if place.isPrefixOf path then path[place.length]? else none
  ((t.entries.map (·.1) ++ t.links.map (·.1)).filterMap below).eraseDups

/-- A bare system with the given commands, and an empty working directory. -/
def bare (commands : List String) : FileTree where
  entries :=
    commands.map (fun c => (["usr", "bin", c], .program c)) ++
      ["full", "null", "stderr", "stdin", "stdout"].map (["dev", ·], .device .empty) ++
      [(["etc", "passwd"], .file "root:x:0:0:root:/root:/bin/sh\n".toUTF8)] ++
      [["boot"], ["home"], ["media"], ["mnt"], ["opt"], ["proc"], ["root"], ["run"], ["srv"],
       ["sys"], ["tmp"], ["usr", "lib"], ["usr", "local", "bin"], ["usr", "local", "sbin"],
       ["usr", "sbin"], ["usr", "share"], ["var", "tmp"]].map (·, .directory)
  links :=
    [(["bin"], ["usr", "bin"]), (["sbin"], ["usr", "sbin"]), (["lib"], ["usr", "lib"])]
  working := ["tmp", "work"]

/-- The tree, seen from the directory at a path. -/
def enter (t : FileTree) (path : String) : Except SystemError FileTree := do
  let place ← t.resolve path
  match t.at? place with
  | some .directory => .ok { t with working := place }
  | _ => .error .notDirectory

/-- The place that a path names, where something may be put if nothing stands there. -/
def placeFor (t : FileTree) (path : String) : Except SystemError (List String) :=
  match t.resolve path with
  | .ok place => .ok place
  | .error .notFound => do
    let names := Text.pieces '/' path.toList
    let name := String.ofList (names.getLastD [])
    let directory := "/".intercalate (names.dropLast.map String.ofList)
    if name.isEmpty || name == "." || name == ".." then throw .notFound
    else if names.length = 1 then return t.working ++ [name]
    else
      let place ← t.resolve (directory ++ "/")
      return place ++ [name]
  | .error e => .error e

/-- Puts an entry in a place, instead of what stands there. -/
def put (t : FileTree) (place : List String) (e : Entry) : FileTree :=
  { t with entries := (place, e) :: t.entries.filter (·.1 != place) }

/-- Adds an entry under a path in the working directory. -/
def add (t : FileTree) (path : String) (e : Entry) : FileTree :=
  let names := ((Text.pieces '/' path.toList).map String.ofList).filter
    fun n => n != "" && n != "."
  t.put (t.working ++ names) e

end FileTree

end Braceline
