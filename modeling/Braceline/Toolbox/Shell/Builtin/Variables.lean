import Braceline.Toolbox.Shell.Builtin.Basic

/-!
# Commands on variables, arguments and options

The commands of a shell that give variables values and marks or list them, that change the arguments
and the options of the shell, and that read variables from the input or from arguments.
-/

namespace Braceline.Toolbox.Shell.Builtin

/-! ### Marks and values -/

/-- Variables in the order of their names, one a line, behind a word. -/
def listing (front : String) (vs : List (String × Variable)) : String :=
  let sorted := vs.mergeSort fun a b => a.1 ≤ b.1
  String.join (sorted.map fun (name, v) =>
    match v.value with
    | some value => s!"{front}{name}={inQuotes value}\n"
    | none => s!"{front}{name}\n")

/-- Gives variables values and a mark. -/
def declare (mark : Variable → Variable) (s : State) : List String → Deed
  | [] => .done (s.ended 0)
  | w :: ws =>
    let (name, value) := named w
    match value, s.bindings.lookup name with
    | none, some v => declare mark (s.put name (mark v)) ws
    | none, none =>
      if isName name.toList then declare mark (s.put name (mark s.fresh)) ws
      else .failed s s!"{name}: bad variable name" 2
    | some value, _ =>
      orFailed s (assign s name value) fun s =>
        let v := (s.bindings.lookup name).getD s.fresh
        declare mark (s.put name (mark v)) ws

/-- The commands that mark variables, or list those that are marked. -/
def marking (name : String) (has : Variable → Bool) (mark : Variable → Variable) (s : State)
    (args : List String) : Deed :=
  withOptions s "p" "" args fun os ws =>
    if os.isEmpty && !ws.isEmpty then declare mark s ws
    else say s name (listing (name ++ " ") (s.bindings.filter (has ·.2)))

/-- Makes a variable belong to a function. -/
def shadowOne (s : State) (name : String) : State :=
  match s.shadows with
  | [] => s
  | inner :: others =>
    let old := s.bindings.lookup name
    let v := old.getD s.fresh
    let s := { s with shadows := (.variable name old :: inner) :: others }
    s.put name { v with lasting := true }

/-- Makes variables belong to a function. -/
def shadow (s : State) : List String → Deed
  | [] => .done (s.ended 0)
  | w :: ws =>
    let (name, value) := named w
    match s.shadows with
    | [] => .failed s "not in a function" 2
    | inner :: others =>
      if w = "-" then shadow { s with shadows := (.options s.options :: inner) :: others } ws
      else if !isName name.toList then .failed s s!"{name}: bad variable name" 2
      else
        match value with
        | none => shadow (shadowOne s name) ws
        | some v => orFailed s (assign (shadowOne s name) name v) fun s => shadow s ws

/-- Gives the variables of a function back. -/
def unshadow (s : State) : List Shadow → State
  | [] => s
  | .options on :: rest => unshadow { s with options := on } rest
  | .variable name (some v) :: rest => unshadow ((s.put name v).noted name) rest
  | .variable name none :: rest =>
    unshadow { s with bindings := s.bindings.filter (·.1 != name) } rest

/-- Takes variables or functions away. -/
def remove (s : State) (ofFunctions : Bool) : List String → Deed
  | [] => .done (s.ended 0)
  | w :: ws =>
    if ofFunctions then
      remove { s with functions := s.functions.filter (·.1 != w) } true ws
    else if !isName w.toList then .failed s s!"{(named w).1}: bad variable name" 2
    else if s.isFixed w then .failed s s!"{w}: is read only" 2
    else remove (s.withdraw w) false ws

/-- The command `unset`. -/
def unset (s : State) (args : List String) : Deed :=
  withOptions s "vf" "" args fun os ws => remove s ((os.getLast?.map (·.1)) == some 'f') ws

/-! ### Options and arguments -/

/-- The options of a shell, with their names. Those that have no letter are known by a digit. -/
def shellOptions : List (Char × String) :=
  [('e', "errexit"), ('f', "noglob"), ('I', "ignoreeof"), ('i', "interactive"), ('m', "monitor"),
    ('n', "noexec"), ('s', "stdin"), ('x', "xtrace"), ('v', "verbose"), ('V', "vi"),
    ('E', "emacs"), ('C', "noclobber"), ('a', "allexport"), ('b', "notify"), ('u', "nounset"),
    ('p', "privileged"), ('1', "nolog"), ('2', "debug")]

/-- What options have been read: those that are on, whether a script is among the words, what is to
be written, and the words that follow. -/
structure Choices where
  on : List Char
  script : Bool
  out : String
  words : List String

namespace Choices

/-- Switches an option on or off. Of the two editors only one is on. -/
def switch (x : Choices) (sign : Bool) (c : Char) : Choices :=
  let others := x.on.filter fun d =>
    d != c && !(sign && ((c == 'V' && d == 'E') || (c == 'E' && d == 'V')))
  { x with on := if sign then c :: others else others }

/-- The options and whether they are on, in words or as commands. -/
def listing (x : Choices) (inWords : Bool) : String :=
  let line := fun (o : Char × String) =>
    let isOn := x.on.contains o.1
    if inWords then
      let gap := String.ofList (List.replicate (16 - o.2.length) ' ')
      o.2 ++ gap ++ (if isOn then "on\n" else "off\n")
    else (if isOn then "set -o " else "set +o ") ++ o.2 ++ "\n"
  (if inWords then "Current option settings\n" else "") ++ String.join (shellOptions.map line)

/-- Reads an option letter. The first argument tells whether the shell is being started. -/
def letter (start sign : Bool) (x : Choices) (c : Char) : Except String Choices :=
  if start && c == 'c' then .ok { x with script := true }
  else if start && c == 'l' then .ok x
  else if c = 'o' then
    match x.words with
    | [] => .ok { x with out := x.out ++ x.listing sign }
    | name :: ws =>
      match shellOptions.find? (·.2 == name) with
      | some (c, _) => .ok ({ x with words := ws }.switch sign c)
      | none => .error s!"Illegal option -o {name}"
  else if c.isAlpha && (shellOptions.lookup c).isSome then .ok (x.switch sign c)
  else .error s!"Illegal option -{c}"

/-- Reads words of options up to the first other word, and tells whether the words after them are
all that counts. The second argument bounds the number of words. -/
def read (start : Bool) : Nat → Choices → Except String (Choices × Bool)
  | 0, x => .ok (x, false)
  | n + 1, x =>
    match x.words with
    | [] => .ok (x, false)
    | w :: ws =>
      let x' := { x with words := ws }
      match w.toList with
      | ['-'] =>
        if start then .ok (x', true) else .ok ((x'.switch false 'x').switch false 'v', false)
      | ['-', '-'] => .ok (x', true)
      | '-' :: cs => cs.foldlM (letter start true) x' >>= read start n
      | '+' :: cs => cs.foldlM (letter start false) x' >>= read start n
      | _ => .ok (x, false)

end Choices

/-- Gives the shell other arguments. -/
def withArgs (s : State) (args : List String) : State :=
  { s with args := args, optionPlace := .first }

/-- The command `set`. -/
def setUp (s : State) (args : List String) : Deed :=
  if args.isEmpty then
    say s "set" (listing "" (s.bindings.filter fun v => v.2.value.isSome))
  else
    match Choices.read false args.length ⟨s.options, false, "", args⟩ with
    | .error e => .failed s e 2
    | .ok (x, whole) =>
      let s := { s with options := x.on }
      say (if whole || !x.words.isEmpty then withArgs s x.words else s) "set" x.out

/-- The command `shift`. -/
def shift (s : State) (args : List String) : Deed :=
  withNumber s 1 args fun n =>
    if s.args.length < n then .failed s "can't shift that many" 2
    else .done ((withArgs s (s.args.drop n)).ended 0)

/-! ### Options from arguments -/

/-- What comes of looking for an option in arguments. -/
structure Found where
  letter : Char
  /-- The value of `OPTARG`, if it has one. -/
  value : Option String
  complaint : String
  place : OptionPlace
  done : Bool

/-- Looks up a letter among those that a command knows: whether it is one, and takes a word. -/
def wanted (c : Char) : List Char → Option Bool
  | [] => none
  | [x] => if x = c then some false else none
  | x :: ':' :: rest => if x = c then some true else wanted c rest
  | x :: y :: rest => if x = c then some false else wanted c (y :: rest)

/-- Looks for the next option in arguments. -/
def findOption (known : String) (args : List String) (at_ : OptionPlace) : Found :=
  let inWord : Option (List Char) :=
    match at_.offset with
    | some k =>
      if at_.word ≤ 1 then none
      else
        let w := ((args[at_.word - 2]?).getD "").toList
        if w.length < k then none else some (w.drop k)
    | none => none
  let here : Option (List Char × Nat) :=
    match inWord with
    | some (c :: cs) => some (c :: cs, at_.word)
    | _ =>
      match (args[at_.word - 1]?).map String.toList with
      | some ('-' :: c :: cs) => some (c :: cs, at_.word + 1)
      | _ => none
  match here with
  | none => ⟨'?', none, "", ⟨at_.word, none⟩, true⟩
  | some (['-'], word) =>
    if inWord.any (!·.isEmpty) then letterAt '-' [] word else ⟨'?', none, "", ⟨word, none⟩, true⟩
  | some ([], word) => ⟨'?', none, "", ⟨word, none⟩, true⟩
  | some (c :: rest, word) => letterAt c rest word
where
  /-- The option of a letter, given what follows it in its word, and the next word. -/
  letterAt (c : Char) (rest : List Char) (word : Nat) : Found :=
    let silent := known.startsWith ":"
    let offset := fun (rest : List Char) =>
      some (((args[word - 2]?).getD "").length - rest.length)
    let letter := String.singleton c
    match wanted c known.toList with
    | none =>
      if silent then ⟨'?', some letter, "", ⟨word, offset rest⟩, false⟩
      else ⟨'?', none, s!"Illegal option -{letter}\n", ⟨word, offset rest⟩, false⟩
    | some false => ⟨c, some "", "", ⟨word, offset rest⟩, false⟩
    | some true =>
      if !rest.isEmpty then ⟨c, some (String.ofList rest), "", ⟨word, none⟩, false⟩
      else
        match args[word - 1]? with
        | some v => ⟨c, some v, "", ⟨word + 1, none⟩, false⟩
        | none =>
          if silent then ⟨':', some letter, "", ⟨word, none⟩, false⟩
          else ⟨'?', none, s!"No arg for -{letter} option\n", ⟨word, none⟩, false⟩

/-- The command `getopts`. -/
def getopts (s : State) (args : List String) : Deed :=
  withOptions s "" "" args fun _ args =>
    match args with
    | known :: name :: own =>
      let args := if own.isEmpty then s.args else own
      let p := if args.length + 1 < s.optionPlace.word then .first else s.optionPlace
      let x := findOption known args p
      let s := s.write 2 x.complaint
      let s := if x.done then s
        else
          match x.value with
          | some v => s.assign "OPTARG" v
          | none => s.withdraw "OPTARG"
      let s := s.assign "OPTIND" (toString x.place.word)
      orFailed s (assign s name (String.singleton x.letter)) fun s =>
        .done ({ s with optionPlace := x.place }.ended (if x.done then 1 else 0))
    | _ => .failed s "Usage: getopts optstring var [arg...]" 2

/-! ### Reading -/

/-- The spans of a line that is read, in which a backslash quotes a character unless the line is
`raw`, and whether a backslash stands at its end. Zero bytes do not count. -/
def spansOf (raw : Bool) (chunk : List Item) : List Char → List Span × Bool
  | [] => ([.split false chunk.reverse], false)
  | ['\\'] => if raw then ([.split false (.char '\\' false :: chunk).reverse], false)
    else ([.split false chunk.reverse], true)
  | c :: d :: cs =>
    if c = '\x00' then spansOf raw chunk (d :: cs)
    else if c = '\\' ∧ !raw then
      let (ss, open_) := spansOf raw [] cs
      (.split false chunk.reverse :: .kept [.char d true] :: ss, open_)
    else spansOf raw (.char c false :: chunk) (d :: cs)
  | [c] => ([.split false (if c = '\x00' then chunk else .char c false :: chunk).reverse], false)

/-- Reads lines as long as they end with a backslash: their spans, and whether the last one had a
line feed at its end. The first argument bounds their number. -/
def readSpans (raw : Bool) : Nat → State → List Span × Bool × State
  | 0, s => ([], false, s)
  | n + 1, s =>
    let (line, whole, s) := s.readLine
    let (ss, continues) := spansOf raw [] line
    if continues && whole then
      let (more, whole, s) := readSpans raw n s
      (ss ++ more, whole, s)
    else (ss, whole, s)

/-- How many lines may be read as one. -/
def maxLines : Nat := 0x100000

/-- Gives variables the values of fields, or no text where there are fewer. -/
def fill (s : State) : List String → List String → Except String State
  | [], _ => .ok s
  | n :: ns, fields => do fill (← assign s n (fields.headD "")) ns fields.tail

/-- The command `read`. -/
def read (s : State) (args : List String) : Deed :=
  withOptions s "r" "p" args fun os names =>
    if names.isEmpty then .failed s "arg count" 2
    else
      let (ss, whole, s) := readSpans (os.any (·.1 == 'r')) maxLines s
      let found := (fields s.separators (some names.length) ss).map fun is =>
        String.ofList (Item.text is)
      orFailed s (fill s names found) fun s => .done (s.ended (if whole then 0 else 1))

end Braceline.Toolbox.Shell.Builtin
