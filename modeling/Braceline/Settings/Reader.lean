import Braceline.Json.Token
import Braceline.Settings.Basic
import Braceline.Text.Shown

/-!
# Reading settings

Settings are written as a JSON object with a member for each that is set, or as an array of the
first few in the order of `Field.all`. The text is read from left to right, and the first thing
that is wrong with it is reported, whether it is no JSON or does not fit.
-/

namespace Braceline.Settings

/-- A setting that a file may hold. -/
inductive Field where
  | interpreter
  | indentWidth
  | delimiter
  | imports
  | wildcards
  deriving DecidableEq, Repr

namespace Field

/-- All of them, in the order in which an array holds their values. -/
def all : List Field := [interpreter, indentWidth, delimiter, imports, wildcards]

/-- The name that an object has for it. -/
def key : Field → String
  | interpreter => "python"
  | indentWidth => "indent_width"
  | delimiter => "delimiter"
  | imports => "imports"
  | wildcards => "from_imports"

/-- The setting with a given name. -/
def ofKey? (key : String) : Option Field := all.find? fun f => f.key == key

theorem ofKey?_key (f : Field) : ofKey? f.key = some f := by cases f <;> rfl

end Field

/-- What a JSON text has in a place. -/
inductive Found where
  | null
  | bool (b : Bool)
  | number (n : Json.Number)
  | string (text : String)
  | sequence
  | map
  deriving Repr

namespace Found

/-- What is found, in words. -/
def describe : Found → String
  | null => "null"
  | bool b => s!"boolean `{b}`"
  | number (.natural n) => s!"integer `{n}`"
  | number (.negative n) => s!"integer `-{n}`"
  | number (.real x) => s!"floating point `{Decimal.text Json.Number.layout x}`"
  | string text => s!"string {Text.shown text}"
  | sequence => "sequence"
  | map => "map"

/-- What a token begins. A token that begins nothing is a fault. -/
def ofToken : Json.Token → Except Json.Fault Found
  | .null => .ok null
  | .bool b => .ok (bool b)
  | .number n => .ok (number n)
  | .string text => .ok (string text)
  | .beginArray => .ok sequence
  | .beginObject => .ok map
  | .broken _ f => .error f
  | .endObject | .endArray | .colon | .comma => .error .malformed

end Found

/-- What settings need in a place. -/
inductive Wanted where
  | string
  | width
  | sequence
  | settings
  deriving DecidableEq, Repr

namespace Wanted

/-- What is needed, in words. -/
def describe : Wanted → String
  | string => "a string"
  | width => "usize"
  | sequence => "a sequence"
  | settings => "struct Config"

end Wanted

/-- Why a JSON text does not hold settings. -/
inductive Misfit where
  | unknownField (key : String)
  | duplicateField (field : Field)
  | wrongType (found : Found) (wanted : Wanted)
  /-- A width below zero by `n`. -/
  | negativeWidth (n : Nat)
  deriving Repr

namespace Misfit

/-- The names of the settings, as a message lists them. -/
def keyList : String := ", ".intercalate (Field.all.map fun f => s!"`{f.key}`")

/-- The misfit in words. -/
def message : Misfit → String
  | unknownField key => s!"unknown field `{key}`, expected one of {keyList}"
  | duplicateField f => s!"duplicate field `{f.key}`"
  | wrongType found wanted => s!"invalid type: {found.describe}, expected {wanted.describe}"
  | negativeWidth n => s!"invalid value: integer `-{n}`, expected {Wanted.width.describe}"

end Misfit

/-- Why a text cannot be read as settings. -/
inductive ReadFault where
  | notJson (fault : Json.Fault)
  | misfit (misfit : Misfit)
  deriving Repr

namespace ReadFault

/-- The text ends too early. -/
def cutShort : ReadFault := notJson .cutShort

/-- Something stands where it cannot. -/
def malformed : ReadFault := notJson .malformed

/-- The fault of a token that stands where something else is wanted. -/
def unwanted (t : Json.Token) (wanted : Wanted) : ReadFault :=
  match Found.ofToken t with
  | .ok found => misfit (.wrongType found wanted)
  | .error f => notJson f

/-- The fault of a token that stands where a name is wanted. -/
def notKey : Json.Token → ReadFault
  | .broken '"' f => notJson f
  | _ => malformed

/-- The fault in words. -/
def message : ReadFault → String
  | notJson .malformed => "the text is not JSON"
  | notJson .cutShort => "the text ends too early"
  | misfit m => m.message

end ReadFault

open Json (Token)

/-- Reads a string. -/
def readText : List Token → Except ReadFault (String × List Token)
  | .string text :: ts => .ok (text, ts)
  | t :: _ => .error (.unwanted t .string)
  | [] => .error .cutShort

/-- Reads a width. -/
def readWidth : List Token → Except ReadFault (Nat × List Token)
  | .number (.natural n) :: ts => .ok (n, ts)
  | .number (.negative n) :: _ => .error (.misfit (.negativeWidth n))
  | t :: _ => .error (.unwanted t .width)
  | [] => .error .cutShort

/-- Reads a string, or a null for none. -/
def readOptional : List Token → Except ReadFault (Option String × List Token)
  | .null :: ts => .ok (none, ts)
  | ts => (readText ts).map fun r => (some r.1, r.2)

/-- Reads the strings of a list, after the first. -/
def readMore : List Token → Except ReadFault (List String × List Token)
  | .endArray :: ts => .ok ([], ts)
  | .comma :: .string text :: ts => (readMore ts).map fun r => (text :: r.1, r.2)
  | .comma :: .endArray :: _ => .error .malformed
  | .comma :: t :: _ => .error (.unwanted t .string)
  | [.comma] | [] => .error .cutShort
  | _ => .error .malformed

/-- Reads a list of strings. -/
def readList : List Token → Except ReadFault (List String × List Token)
  | .beginArray :: .endArray :: ts => .ok ([], ts)
  | .beginArray :: .string text :: ts => (readMore ts).map fun r => (text :: r.1, r.2)
  | .beginArray :: t :: _ => .error (.unwanted t .string)
  | [.beginArray] | [] => .error .cutShort
  | t :: _ => .error (.unwanted t .sequence)

/-- Reads the value of a setting. -/
def readValue (s : Settings) (f : Field) (ts : List Token) :
    Except ReadFault (Settings × List Token) :=
  match f with
  | .interpreter => (readText ts).map fun r => ({ s with interpreter := r.1 }, r.2)
  | .indentWidth => (readWidth ts).map fun r => ({ s with indentWidth := r.1 }, r.2)
  | .delimiter => (readOptional ts).map fun r => ({ s with delimiter := r.1 }, r.2)
  | .imports => (readList ts).map fun r => ({ s with imports := r.1 }, r.2)
  | .wildcards => (readList ts).map fun r => ({ s with wildcards := r.1 }, r.2)

/-- Reads the sign after a member and the name of the next one, if there is a next one. -/
def readNextKey : List Token → Except ReadFault (Option String × List Token)
  | .endObject :: ts => .ok (none, ts)
  | .comma :: .string key :: ts => .ok (some key, ts)
  | .comma :: t :: _ => .error (.notKey t)
  | [.comma] | [] => .error .cutShort
  | _ => .error .malformed

/-- Reads the first name of an object, if it has one. -/
def readFirstKey : List Token → Except ReadFault (Option String × List Token)
  | .endObject :: ts => .ok (none, ts)
  | .string key :: ts => .ok (some key, ts)
  | t :: _ => .error (.notKey t)
  | [] => .error .cutShort

/-- Reads the members of an object from a name on. Each setting may be named once, and `missing`
are those that have not been named. -/
def readMembers (missing : List Field) (s : Settings) (key : String) (ts : List Token) :
    Except ReadFault (Settings × List Token) :=
  match Field.ofKey? key with
  | none => .error (.misfit (.unknownField key))
  | some f =>
    if h : f ∈ missing then
      match ts with
      | .colon :: ts =>
        match readValue s f ts with
        | .error e => .error e
        | .ok (s, ts) =>
          match readNextKey ts with
          | .error e => .error e
          | .ok (none, ts) => .ok (s, ts)
          | .ok (some key, ts) =>
            have : 0 < missing.length := List.length_pos_of_mem h
            readMembers (missing.erase f) s key ts
      | [] => .error .cutShort
      | _ => .error .malformed
    else .error (.misfit (.duplicateField f))
termination_by missing.length
decreasing_by
  rw [List.length_erase_of_mem h]
  omega

/-- Reads an object, after its brace. -/
def readObject (ts : List Token) : Except ReadFault (Settings × List Token) :=
  match readFirstKey ts with
  | .error e => .error e
  | .ok (none, ts) => .ok (default, ts)
  | .ok (some key, ts) => readMembers Field.all default key ts

/-- Reads the values of an array for the given settings, after the first. -/
def readValues (s : Settings) :
    List Field → List Token → Except ReadFault (Settings × List Token)
  | [], .endArray :: ts => .ok (s, ts)
  | [], [] => .error .cutShort
  | [], _ => .error .malformed
  | _ :: _, .endArray :: ts => .ok (s, ts)
  | _ :: _, [] | _ :: _, [.comma] => .error .cutShort
  | _ :: _, .comma :: .endArray :: _ => .error .malformed
  | f :: fs, .comma :: ts =>
    match readValue s f ts with
    | .error e => .error e
    | .ok (s, ts) => readValues s fs ts
  | _ :: _, _ => .error .malformed

/-- Reads an array, after its bracket. -/
def readArray : List Token → Except ReadFault (Settings × List Token)
  | .endArray :: ts => .ok (default, ts)
  | [] => .error .cutShort
  -- the first value is read as if a comma stood before it
  | ts => readValues default Field.all (.comma :: ts)

/-- Reads settings, and what follows them. -/
def readSettings : List Token → Except ReadFault (Settings × List Token)
  | [] => .error .cutShort
  | .beginObject :: ts => readObject ts
  | .beginArray :: ts => readArray ts
  | t :: _ => .error (.unwanted t .settings)

/-- **Settings from a text.** What is not set is as in `default`. -/
def ofText (text : String) : Except ReadFault Settings :=
  match readSettings (Json.tokens text.toList) with
  | .error e => .error e
  | .ok (s, []) => .ok s
  | .ok (_, _ :: _) => .error .malformed

end Braceline.Settings
