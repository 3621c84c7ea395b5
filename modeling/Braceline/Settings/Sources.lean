import Braceline.FileTree
import Braceline.Settings.Reader

/-!
# Where settings come from

Settings are read from one file and then overridden by the environment. The file is the one that
the environment names, which must be there, or the one in the home directory, if it is there.

* `load_of_ofFile_error`: a file that cannot be used is the fault, whatever the environment says.
-/

namespace Braceline

/-- Why settings cannot be had. -/
inductive SettingsError where
  /-- The file at `path` cannot be read. -/
  | unreadable (path : String) (refusal : SystemError)
  /-- No file can have the name `path`, which holds the character that ends a name. -/
  | unnameable (path : String)
  /-- The file at `path` is no text. -/
  | notText (path : String)
  /-- The file at `path` does not hold settings. -/
  | unusable (path : String) (fault : Settings.ReadFault)
  | invalid (fault : SettingsFault)

namespace SettingsError

/-- The error in words. -/
def message : SettingsError → String
  | unreadable path refusal => s!"cannot read config {path}: {refusal.message}"
  | unnameable path =>
    s!"cannot read config {path}: file name contained an unexpected NUL byte"
  | notText path => s!"cannot read config {path}: stream did not contain valid UTF-8"
  | unusable path fault => s!"invalid config {path}: {fault.message}"
  | invalid fault => fault.message

end SettingsError

namespace Settings

/-- The settings, if they are of use. -/
def accept (s : Settings) : Except SettingsError Settings :=
  match s.validate with
  | .ok () => .ok s
  | .error f => .error (.invalid f)

/-- The settings that a file holds. -/
def fromPath (files : Files) (path : String) : Except SettingsError Settings :=
  if path.toList.contains '\x00' then .error (.unnameable path)
  else
    match files.read path with
    | .error refusal => .error (.unreadable path refusal)
    | .ok content =>
      match String.fromUTF8? content with
      | none => .error (.notText path)
      | some text =>
        match ofText text with
        | .error fault => .error (.unusable path fault)
        | .ok s => s.accept

/-- The variable that names the settings file. -/
def fileVariable : String := "PYONE_CONFIG"

/-- The variable that names the home directory. -/
def homeVariable : String := "HOME"

/-- The settings file in a home directory. -/
def homeFile (home : String) : String :=
  match home.toList.getLast? with
  | none | some '/' => home ++ ".pyone.json"
  | some _ => home ++ "/.pyone.json"

/-- The settings file to use, if there is one. The home directory's counts only if it is an
ordinary file. -/
def file? (files : Files) (env : Env) : Option String :=
  match env.get? fileVariable with
  | some path => some path
  | none => ((env.get? homeVariable).map homeFile).filter files.isFile

/-- The settings of the file to use. -/
def ofFile (files : Files) (env : Env) : Except SettingsError Settings :=
  match file? files env with
  | some path => fromPath files path
  | none => .ok default

/-- **The settings for a run.** -/
def load (files : Files) (env : Env) : Except SettingsError Settings :=
  match ofFile files env with
  | .error e => .error e
  | .ok s => (s.override env).accept

/-- A file that cannot be used is the fault, whatever the environment says. -/
theorem load_of_ofFile_error {files : Files} {env : Env} {e : SettingsError}
    (h : ofFile files env = .error e) : load files env = .error e := by
  simp [load, h]

end Settings

end Braceline
