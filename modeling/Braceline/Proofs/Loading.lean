import Braceline.Proofs.Reported

/-!
# Where the settings for a run come from

Settings are read from one file at most. If the file is of no use, that is the fault, whatever the
environment overrides. Else the environment has the last word, and what it leaves is held against
the three checks once more. So settings that are loaded are of use to every invocation: what one of
them can still spoil is the delimiter that it brings itself.

* `validate_eq_error_iff`: the checks report the first thing that is wrong.
* `inHome_homeFile`: where the file in the home directory is.
* `fromPath_eq_iff`, `ofFile_eq_iff`: what a file comes to, and which file it is.
* `override_eq_iff`: what the environment overrides.
* `load_eq_iff`: all of it, and what is left to go wrong with settings that are loaded.
-/

namespace Braceline

namespace Settings

/-- **Settings that are of use.** -/
structure Usable (s : Settings) : Prop where
  width : 1 ≤ s.indentWidth ∧ s.indentWidth ≤ 8
  delimiter : s.delimiter ≠ some ""
  words : ∃ w ws, Words.split? s.interpreter = some (w :: ws)

/-- **What is wrong with settings:** the first of width, delimiter and interpreter that is of no
use. -/
inductive Wrong (s : Settings) : SettingsFault → Prop where
  | indentWidth (hw : ¬ (1 ≤ s.indentWidth ∧ s.indentWidth ≤ 8)) :
    Wrong s (.indentWidth s.indentWidth)
  | emptyDelimiter (hw : 1 ≤ s.indentWidth ∧ s.indentWidth ≤ 8) (hd : s.delimiter = some "") :
    Wrong s .emptyDelimiter
  | interpreter (hw : 1 ≤ s.indentWidth ∧ s.indentWidth ≤ 8) (hd : s.delimiter ≠ some "")
    (hi : ∀ w ws, Words.split? s.interpreter ≠ some (w :: ws)) :
    Wrong s (.interpreter s.interpreter)

/-- The text that a settings file holds, or why there is none. -/
inductive Reads (files : Files) (path : String) : Except SettingsError String → Prop where
  | unnameable (hp : '\x00' ∈ path.toList) : Reads files path (.error (.unnameable path))
  | unreadable (hp : '\x00' ∉ path.toList) {refusal : SystemError}
    (hr : files.read path = .error refusal) : Reads files path (.error (.unreadable path refusal))
  | notText (hp : '\x00' ∉ path.toList) {content : ByteArray} (hr : files.read path = .ok content)
    (ht : String.fromUTF8? content = none) : Reads files path (.error (.notText path))
  | text (hp : '\x00' ∉ path.toList) {content : ByteArray} (hr : files.read path = .ok content)
    {text : String} (ht : String.fromUTF8? content = some text) : Reads files path (.ok text)

/-- **What a settings file comes to:** settings of use, or the file's own fault. -/
inductive Holds (files : Files) (path : String) : Except SettingsError Settings → Prop where
  | unread {e : SettingsError} (h : Reads files path (.error e)) : Holds files path (.error e)
  | unusable {text : String} {fault : ReadFault} (h : Reads files path (.ok text))
    (hs : ofText text = .error fault) : Holds files path (.error (.unusable path fault))
  | wrong {text : String} {s : Settings} {f : SettingsFault} (h : Reads files path (.ok text))
    (hs : ofText text = .ok s) (hf : s.Wrong f) : Holds files path (.error (.invalid f))
  | settings {text : String} {s : Settings} (h : Reads files path (.ok text))
    (hs : ofText text = .ok s) (hu : s.Usable) : Holds files path (.ok s)

/-- **The file `.pyone.json` of a home directory.** A slash stands between the two, unless the
directory's name ends in one or is empty. -/
inductive InHome : String → String → Prop where
  | unnamed : InHome "" ".pyone.json"
  | slash (dir : String) : InHome (dir ++ "/") (dir ++ "/.pyone.json")
  | other {home : String} (hne : home ≠ "") (hs : ∀ dir, home ≠ dir ++ "/") :
    InHome home (home ++ "/.pyone.json")

/-- **The file that settings are read from**, if there is one. -/
inductive Source (files : Files) (env : Env) : Option String → Prop where
  /-- The file that the environment names, be it there or not. -/
  | named {path : String} (h : env.get? "PYONE_CONFIG" = some path) : Source files env (some path)
  /-- The file in the home directory, if it is an ordinary one. -/
  | home {home path : String} (hn : env.get? "PYONE_CONFIG" = none)
    (hh : env.get? "HOME" = some home) (hp : InHome home path) (hf : files.isFile path = true) :
    Source files env (some path)
  | none (hn : env.get? "PYONE_CONFIG" = none)
    (hh : ∀ home path, env.get? "HOME" = some home → InHome home path →
      files.isFile path = false) : Source files env .none

/-- What there is before the environment overrides it. -/
inductive Given (files : Files) (env : Env) : Except SettingsError Settings → Prop where
  | file {path : String} {r : Except SettingsError Settings} (hs : Source files env (some path))
    (h : Holds files path r) : Given files env r
  | default (hs : Source files env none) : Given files env (.ok ⟨"python3", 4, none, [], []⟩)

/-- **What the environment makes of settings.** A blank interpreter counts as none, and an empty
delimiter counts. -/
structure Overridden (env : Env) (s t : Settings) : Prop where
  interpreter_set : ∀ v, env.get? "PYONE_PYTHON" = some v →
    v.toList.all Text.isBlank = false → t.interpreter = v
  interpreter_kept : (∀ v, env.get? "PYONE_PYTHON" = some v →
    v.toList.all Text.isBlank = true) → t.interpreter = s.interpreter
  delimiter_set : ∀ v, env.get? "PYONE_DELIM" = some v → t.delimiter = some v
  delimiter_kept : env.get? "PYONE_DELIM" = none → t.delimiter = s.delimiter
  indentWidth : t.indentWidth = s.indentWidth
  imports : t.imports = s.imports
  wildcards : t.wildcards = s.wildcards

/-- **What loading settings comes to.** -/
inductive Loads (files : Files) (env : Env) : Except SettingsError Settings → Prop where
  /-- The fault is the file's own. -/
  | fault {e : SettingsError} (h : Given files env (.error e)) : Loads files env (.error e)
  | wrong {s t : Settings} {f : SettingsFault} (h : Given files env (.ok s))
    (ho : Overridden env s t) (hf : t.Wrong f) : Loads files env (.error (.invalid f))
  | settings {s t : Settings} (h : Given files env (.ok s)) (ho : Overridden env s t)
    (hu : t.Usable) : Loads files env (.ok t)

variable {files : Files} {env : Env} {path : String} {s t : Settings} {f : SettingsFault}
  {r : Except SettingsError Settings} {inv : Invocation} {host : Host} {k : Writer}

/-! ### The three checks -/

theorem checkDelimiter_eq_ok {d : Option String} (h : d ≠ some "") : checkDelimiter d = .ok () := by
  unfold checkDelimiter
  split
  · next hd => exact absurd rfl h
  · rfl

theorem interpreterWords_eq_ok {w : String} {ws : List String}
    (h : Words.split? s.interpreter = some (w :: ws)) : s.interpreterWords = .ok (w :: ws) := by
  rw [interpreterWords, h]

theorem interpreterWords_eq_error (h : ∀ w ws, Words.split? s.interpreter ≠ some (w :: ws)) :
    s.interpreterWords = .error (.interpreter s.interpreter) := by
  rw [interpreterWords]
  cases hw : Words.split? s.interpreter with
  | none => rfl
  | some words =>
    cases words with
    | nil => rfl
    | cons w ws => exact absurd hw (h w ws)

theorem checkIndentWidth_eq_ok (h : 1 ≤ s.indentWidth ∧ s.indentWidth ≤ 8) :
    s.checkIndentWidth = .ok () := if_pos h

/-- The checks accept settings of use. -/
theorem Usable.validate_eq (h : s.Usable) : s.validate = .ok () := by
  obtain ⟨w, ws, hwords⟩ := h.words
  rw [validate, checkIndentWidth_eq_ok h.width, checkDelimiter_eq_ok h.delimiter,
    interpreterWords_eq_ok hwords]
  rfl

/-- They report what is wrong. -/
theorem Wrong.validate_eq (h : s.Wrong f) : s.validate = .error f := by
  cases h with
  | indentWidth hw =>
    have hcheck : s.checkIndentWidth = .error (.indentWidth s.indentWidth) := if_neg hw
    rw [validate, hcheck]
    rfl
  | emptyDelimiter hw hd =>
    rw [validate, checkIndentWidth_eq_ok hw, hd]
    rfl
  | interpreter hw hd hi =>
    rw [validate, checkIndentWidth_eq_ok hw, checkDelimiter_eq_ok hd, interpreterWords_eq_error hi]
    rfl

/-- Settings are of use, or something is wrong with them. -/
theorem usable_or_wrong (s : Settings) : s.Usable ∨ ∃ f, s.Wrong f := by
  by_cases hw : 1 ≤ s.indentWidth ∧ s.indentWidth ≤ 8
  · by_cases hd : s.delimiter = some ""
    · exact .inr ⟨_, .emptyDelimiter hw hd⟩
    · by_cases hi : ∃ w ws, Words.split? s.interpreter = some (w :: ws)
      · exact .inl ⟨hw, hd, hi⟩
      · exact .inr ⟨_, .interpreter hw hd fun w ws h => hi ⟨w, ws, h⟩⟩
  · exact .inr ⟨_, .indentWidth hw⟩

/-- **The checks report the first thing that is wrong.** -/
theorem validate_eq_error_iff : s.validate = .error f ↔ s.Wrong f := by
  refine ⟨fun h => ?_, Wrong.validate_eq⟩
  rcases usable_or_wrong s with hu | ⟨f', hf'⟩
  · rw [hu.validate_eq] at h
    cases h
  · rw [hf'.validate_eq] at h
    obtain rfl := Except.error.inj h
    exact hf'

theorem Usable.accept_eq (h : s.Usable) : s.accept = .ok s := by rw [accept, h.validate_eq]

theorem Wrong.accept_eq (h : s.Wrong f) : s.accept = .error (.invalid f) := by
  rw [accept, h.validate_eq]

/-! ### The file -/

/-- A file is read, or there is a reason why it is not. -/
theorem exists_reads (files : Files) (path : String) : ∃ r, Reads files path r := by
  by_cases hp : '\x00' ∈ path.toList
  · exact ⟨_, .unnameable hp⟩
  · cases hr : files.read path with
    | error refusal => exact ⟨_, .unreadable hp hr⟩
    | ok content =>
      cases ht : String.fromUTF8? content with
      | none => exact ⟨_, .notText hp hr ht⟩
      | some text => exact ⟨_, .text hp hr ht⟩

/-- The settings of a text that was read, or the reason why none was. -/
theorem Reads.fromPath_eq {r : Except SettingsError String} (h : Reads files path r) :
    fromPath files path = r.bind fun text =>
      match ofText text with
      | .error fault => .error (.unusable path fault)
      | .ok s => s.accept := by
  cases h with
  | unnameable hp => exact if_pos (by simpa using hp)
  | unreadable hp hr =>
    rw [fromPath, if_neg (by simpa using hp), hr]
    rfl
  | notText hp hr ht =>
    rw [fromPath, if_neg (by simpa using hp), hr]
    simp only [ht]
    rfl
  | text hp hr ht =>
    rw [fromPath, if_neg (by simpa using hp), hr]
    simp only [ht]
    rfl

theorem Holds.fromPath_eq (h : Holds files path r) : fromPath files path = r := by
  cases h with
  | unread h => exact h.fromPath_eq
  | unusable h hs =>
    rw [h.fromPath_eq, Except.bind, hs]
  | wrong h hs hf =>
    rw [h.fromPath_eq, Except.bind, hs]
    exact hf.accept_eq
  | settings h hs hu =>
    rw [h.fromPath_eq, Except.bind, hs]
    exact hu.accept_eq

theorem exists_holds (files : Files) (path : String) : ∃ r, Holds files path r := by
  obtain ⟨r, hr⟩ := exists_reads files path
  cases r with
  | error e => exact ⟨_, .unread hr⟩
  | ok text =>
    cases hs : ofText text with
    | error fault => exact ⟨_, .unusable hr hs⟩
    | ok s =>
      rcases usable_or_wrong s with hu | ⟨f, hf⟩
      · exact ⟨_, .settings hr hs hu⟩
      · exact ⟨_, .wrong hr hs hf⟩

/-- **What a settings file comes to.** -/
theorem fromPath_eq_iff : fromPath files path = r ↔ Holds files path r := by
  refine ⟨?_, Holds.fromPath_eq⟩
  rintro rfl
  obtain ⟨r, hr⟩ := exists_holds files path
  rw [hr.fromPath_eq]
  exact hr

/-- A name that ends in a slash is a name with a slash after it. -/
theorem exists_eq_append_slash {home : String} (h : home.toList.getLast? = some '/') :
    ∃ dir, home = dir ++ "/" := by
  obtain ⟨cs, hcs⟩ := List.getLast?_eq_some_iff.1 h
  refine ⟨String.ofList cs, ?_⟩
  rw [← String.toList_inj, hcs, String.toList_append, String.toList_ofList]
  rfl

theorem inHome_homeFile (home : String) : InHome home (homeFile home) := by
  rw [homeFile]
  split
  · next h =>
    obtain rfl := String.toList_eq_nil_iff.1 (List.getLast?_eq_none_iff.1 h)
    exact .unnamed
  · next h =>
    obtain ⟨dir, rfl⟩ := exists_eq_append_slash h
    rw [String.append_assoc]
    exact .slash dir
  · next c hc h =>
    refine .other ?_ ?_
    · rintro rfl
      cases h
    · rintro dir rfl
      rw [String.toList_append, List.getLast?_append] at h
      exact hc (Option.some.inj h).symm

/-- **The settings file in a home directory** is the only one that there may be. -/
theorem InHome.eq_homeFile {home : String} (h : InHome home path) : path = homeFile home := by
  cases h with
  | unnamed => rfl
  | slash dir =>
    have hlast : (dir ++ "/").toList.getLast? = some '/' := by
      rw [String.toList_append, List.getLast?_append]
      rfl
    have hfile : homeFile (dir ++ "/") = dir ++ "/" ++ ".pyone.json" := by
      simp only [homeFile, hlast]
    rw [hfile, String.append_assoc]
    rfl
  | other hne hs =>
    rw [homeFile]
    split
    · next h => exact absurd (String.toList_eq_nil_iff.1 (List.getLast?_eq_none_iff.1 h)) hne
    · next h =>
      obtain ⟨dir, hdir⟩ := exists_eq_append_slash h
      exact absurd hdir (hs dir)
    · rfl

theorem Source.file?_eq {path? : Option String} (h : Source files env path?) :
    file? files env = path? := by
  cases h with
  | named h => rw [file?, fileVariable, h]
  | home hn hh hp hf =>
    obtain rfl := hp.eq_homeFile
    rw [file?, fileVariable, hn, homeVariable, hh, Option.map_some, Option.filter_some, if_pos hf]
  | none hn hh =>
    rw [file?, fileVariable, hn, homeVariable]
    cases hhome : env.get? "HOME" with
    | none => rfl
    | some home =>
      have hf := hh home _ hhome (inHome_homeFile home)
      rw [Option.map_some, Option.filter_some, if_neg (by rw [hf]; exact Bool.noConfusion)]

theorem exists_source (files : Files) (env : Env) : ∃ path?, Source files env path? := by
  cases hn : env.get? "PYONE_CONFIG" with
  | some path => exact ⟨_, .named hn⟩
  | none =>
    cases hh : env.get? "HOME" with
    | none => exact ⟨_, .none hn fun home _ h => by rw [hh] at h; cases h⟩
    | some home =>
      cases hf : files.isFile (homeFile home) with
      | true => exact ⟨_, .home hn hh (inHome_homeFile home) hf⟩
      | false =>
        refine ⟨_, .none hn fun home' path h hp => ?_⟩
        obtain rfl := Option.some.inj (hh.symm.trans h)
        rwa [hp.eq_homeFile]

theorem Given.ofFile_eq (h : Given files env r) : ofFile files env = r := by
  cases h with
  | file hs h =>
    rw [ofFile, hs.file?_eq]
    exact h.fromPath_eq
  | default hs =>
    rw [ofFile, hs.file?_eq]
    rfl

/-- **What there is before the environment overrides it.** -/
theorem ofFile_eq_iff : ofFile files env = r ↔ Given files env r := by
  refine ⟨?_, Given.ofFile_eq⟩
  rintro rfl
  obtain ⟨path?, hs⟩ := exists_source files env
  have hfile := hs.file?_eq
  cases path? with
  | none =>
    rw [ofFile, hfile]
    exact .default hs
  | some path =>
    rw [ofFile, hfile]
    exact .file hs (fromPath_eq_iff.1 rfl)

/-! ### The environment -/

theorem overridden_override (env : Env) (s : Settings) : Overridden env s (s.override env) where
  interpreter_set v hv hb := by
    rw [override, interpreterVariable, hv, Option.filter_some, if_pos (by rw [hb]; rfl),
      Option.getD_some]
  interpreter_kept h := by
    rw [override, interpreterVariable]
    cases hv : env.get? "PYONE_PYTHON" with
    | none => rfl
    | some v =>
      rw [Option.filter_some, if_neg (by rw [h v hv]; exact Bool.false_ne_true), Option.getD_none]
  delimiter_set v hv := by simp [override, delimiterVariable, hv]
  delimiter_kept hn := by simp [override, delimiterVariable, hn]
  indentWidth := rfl
  imports := rfl
  wildcards := rfl

/-- **What the environment overrides**, and nothing else. -/
theorem override_eq_iff : s.override env = t ↔ Overridden env s t := by
  constructor
  · rintro rfl
    exact overridden_override env s
  · intro h
    have ho := overridden_override env s
    -- both are made of the same five parts
    have hinterpreter : (s.override env).interpreter = t.interpreter := by
      by_cases hset : ∃ v, env.get? "PYONE_PYTHON" = some v ∧ v.toList.all Text.isBlank = false
      · obtain ⟨v, hv, hb⟩ := hset
        rw [ho.interpreter_set v hv hb, h.interpreter_set v hv hb]
      · have hblank (v : String) (hv : env.get? "PYONE_PYTHON" = some v) :
            v.toList.all Text.isBlank = true :=
          Bool.of_not_eq_false fun hb => hset ⟨v, hv, hb⟩
        rw [ho.interpreter_kept hblank, h.interpreter_kept hblank]
    have hdelimiter : (s.override env).delimiter = t.delimiter := by
      cases hv : env.get? "PYONE_DELIM" with
      | none => rw [ho.delimiter_kept hv, h.delimiter_kept hv]
      | some v => rw [ho.delimiter_set v hv, h.delimiter_set v hv]
    have hwidth := ho.indentWidth.trans h.indentWidth.symm
    have himports := ho.imports.trans h.imports.symm
    have hwildcards := ho.wildcards.trans h.wildcards.symm
    obtain ⟨_, _, _, _, _⟩ := t
    simp only at hinterpreter hdelimiter hwidth himports hwildcards
    rw [← hinterpreter, ← hdelimiter, ← hwidth, ← himports, ← hwildcards]

/-! ### Loading -/

theorem Loads.load_eq (h : Loads files env r) : load files env = r := by
  cases h with
  | fault h => exact load_of_ofFile_error h.ofFile_eq
  | @wrong s _ _ h ho hf =>
    have hload : load files env = (s.override env).accept := by rw [load, h.ofFile_eq]
    rw [hload, override_eq_iff.2 ho, hf.accept_eq]
  | @settings s _ h ho hu =>
    have hload : load files env = (s.override env).accept := by rw [load, h.ofFile_eq]
    rw [hload, override_eq_iff.2 ho, hu.accept_eq]

theorem exists_loads (files : Files) (env : Env) : ∃ r, Loads files env r := by
  have hgiven : Given files env (ofFile files env) := ofFile_eq_iff.1 rfl
  cases hfile : ofFile files env with
  | error e =>
    rw [hfile] at hgiven
    exact ⟨_, .fault hgiven⟩
  | ok s =>
    rw [hfile] at hgiven
    have ho := overridden_override env s
    rcases usable_or_wrong (s.override env) with hu | ⟨f, hf⟩
    · exact ⟨_, .settings hgiven ho hu⟩
    · exact ⟨_, .wrong hgiven ho hf⟩

theorem loads_of_load_eq (h : load files env = r) : Loads files env r := by
  obtain ⟨r', hr'⟩ := exists_loads files env
  obtain rfl : r' = r := hr'.load_eq.symm.trans h
  exact hr'

/-- Settings that are loaded are of use. -/
theorem usable_of_load (h : load files env = .ok s) : s.Usable := by
  cases loads_of_load_eq h with
  | settings _ _ hu => exact hu

/-- The file does not depend on what the environment overrides. -/
theorem Given.congr {env' : Env} (h : Given files env r)
    (hn : env'.get? "PYONE_CONFIG" = env.get? "PYONE_CONFIG")
    (hh : env'.get? "HOME" = env.get? "HOME") : Given files env' r := by
  have hfile : file? files env' = file? files env := by
    rw [file?, file?, fileVariable, homeVariable, hn, hh]
  rw [← ofFile_eq_iff, ofFile, hfile, ← ofFile]
  exact h.ofFile_eq

/-! ### What is left to go wrong -/

/-- **With settings of use**, an invocation has no fault of settings but its own empty delimiter. -/
theorem run_eq_settings_iff (hu : s.Usable) {e : SettingsError} :
    (inv.run s host k).result = .error (.settings e) ↔
      e = .invalid .emptyDelimiter ∧ inv.delimiter = some "" ∧ inv.debug = false ∧
        ∃ p, expand inv.script = .ok p := by
  cases hp : expand inv.script with
  | error fault =>
    have hg : inv.generate s = .error fault := by rw [Invocation.generate, hp]; rfl
    rw [Invocation.run_of_fault hg]
    simp [Report.failure]
  | ok p =>
    obtain ⟨l, hg⟩ : ∃ l, inv.generate s = .ok l := by
      rw [Invocation.generate, hp]
      exact ⟨_, rfl⟩
    cases hd : inv.debug with
    | true =>
      rw [Invocation.run_of_debug hg hd, Invocation.dump]
      split <;> simp
    | false =>
      have hrun := Invocation.run_of_not_debug (h := host) (k := k) hg hd
      by_cases hempty : inv.delimiter = some ""
      · have hor : inv.delimiter.or s.delimiter = some "" := by rw [hempty]; rfl
        rw [hrun, Invocation.commandFor, Invocation.loaderFor_empty hor]
        simp [Report.failure, bind, Except.bind, hempty, eq_comm]
      · -- the command is there, and what comes of it is no fault of settings
        have hor : inv.delimiter.or s.delimiter ≠ some "" := by
          cases hdelimiter : inv.delimiter with
          | none => exact hu.delimiter
          | some d => rwa [hdelimiter] at hempty
        obtain ⟨w, ws, hwords⟩ := hu.words
        rw [hrun, Invocation.commandFor_eq hor hwords]
        simp only [hempty, false_and, and_false, iff_false, Invocation.execute]
        split
        · simp
        · simp only
          split <;> simp

/-- **Settings are what their sources say.** Loading comes to what `Loads` says of it, and nothing
else. A file that is of no use is the fault, whatever the environment overrides. With settings that
are loaded, no invocation has a fault of settings but the empty delimiter that it brings itself, and
that one only if its script expands and is run. -/
theorem load_eq_iff (files : Files) (env : Env) :
    (∀ r, load files env = r ↔ Loads files env r) ∧
    (∀ e env', Given files env (.error e) → env'.get? "PYONE_CONFIG" = env.get? "PYONE_CONFIG" →
      env'.get? "HOME" = env.get? "HOME" → load files env' = .error e) ∧
    ∀ s, load files env = .ok s → ∀ (inv : Invocation) (host : Host) (k : Writer) e,
      (inv.run s host k).result = .error (.settings e) ↔
        e = .invalid .emptyDelimiter ∧ inv.delimiter = some "" ∧ inv.debug = false ∧
          ∃ p, expand inv.script = .ok p := by
  refine ⟨fun r => ⟨loads_of_load_eq, Loads.load_eq⟩, fun e env' h hn hh => ?_,
    fun s h inv host k e => run_eq_settings_iff (usable_of_load h)⟩
  exact load_of_ofFile_error (h.congr hn hh).ofFile_eq

end Settings

end Braceline
