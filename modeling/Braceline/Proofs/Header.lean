import Braceline.Proofs.Blanks
import Braceline.Run

/-!
# What a header imports

A header has the plain imports first, each as it is given, and then one line for each module of the
wildcard lists. A list is cut at its commas; a piece is blank, and then it says nothing, or it is a
name with blanks around it. So how the modules are spread over lists, and the lists over settings
and invocation, does not show in the listing.

* `Piece.filterMap_eq`, `Lists.wildcards_eq`: what a list asks for, by induction on its pieces.
* `exists_lists`: every text is a list of modules, by induction on its length.
* `wildcards_intercalate`: lists joined by commas are one list.
* `Sequence.flatMap_wildcards_eq`: lists one after the other, by induction on them.
* `header_of_modules`: the header, and what it does not depend on.
-/

namespace Braceline

namespace Import

/-- **What stands between two commas:** blanks, or a name with blanks around it. -/
inductive Piece : List Char → List String → Prop where
  | blank {cs : List Char} (h : cs.all Text.isBlank = true) : Piece cs []
  | name {before name after : List Char} (hbefore : before.all Text.isBlank = true)
    (hafter : after.all Text.isBlank = true) (hne : name ≠ [])
    (hfirst : ∀ c ∈ name.head?, Text.isBlank c = false)
    (hlast : ∀ c ∈ name.getLast?, Text.isBlank c = false) :
    Piece (before ++ name ++ after) [String.ofList name]

/-- **A list of modules**, and the names in it. -/
inductive Lists : List Char → List String → Prop where
  | last {cs : List Char} {names : List String} (hc : ',' ∉ cs) (hp : Piece cs names) :
    Lists cs names
  | more {cs rest : List Char} {names others : List String} (hc : ',' ∉ cs) (hp : Piece cs names)
    (hr : Lists rest others) : Lists (cs ++ ',' :: rest) (names ++ others)

/-- **The modules of several lists**, one list after the other. -/
inductive Sequence : List String → List String → Prop where
  | nil : Sequence [] []
  | cons {list : String} {lists names others : List String} (h : Lists list.toList names)
    (hs : Sequence lists others) : Sequence (list :: lists) (names ++ others)

/-- What a piece of a list asks for. -/
def ofPiece? (p : List Char) : Option Import :=
  match Text.trim p with
  | [] => none
  | cs => some (.wildcard (String.ofList cs))

theorem wildcards_eq (list : String) :
    wildcards list = (Text.pieces ',' list.toList).filterMap ofPiece? := rfl

variable {cs : List Char} {list : String} {lists names names' : List String}

/-! ### One list -/

/-- What a piece says. -/
theorem Piece.filterMap_eq (h : Piece cs names) :
    [cs].filterMap ofPiece? = names.map Import.wildcard := by
  cases h with
  | blank h => simp [ofPiece?, (Text.trim_eq_nil_iff cs).2 h]
  | @name _ name _ hbefore hafter hne hfirst hlast =>
    obtain ⟨c, rest, hname⟩ := List.exists_cons_of_ne_nil hne
    have htrim := Text.trim_padded hbefore hafter hfirst hlast
    rw [List.filterMap_cons, List.filterMap_nil, ofPiece?, htrim, hname]
    rfl

theorem exists_piece (cs : List Char) : ∃ names, Piece cs names := by
  by_cases hblank : cs.all Text.isBlank = true
  · exact ⟨[], .blank hblank⟩
  · obtain ⟨before, after, hbefore, hafter, hcs⟩ := Text.exists_padded cs
    have hne : Text.trim cs ≠ [] := fun h => hblank ((Text.trim_eq_nil_iff cs).1 h)
    have hpiece := Piece.name hbefore hafter hne (Text.head?_trim_not_blank cs)
      (Text.getLast?_trim_not_blank cs)
    rw [hcs] at hpiece
    exact ⟨_, hpiece⟩

/-- **A list asks for the modules in it.** -/
theorem Lists.wildcards_eq (h : Lists list.toList names) :
    wildcards list = names.map Import.wildcard := by
  rw [Import.wildcards_eq]
  generalize list.toList = cs at h
  induction h with
  | last hc hp => rw [Text.pieces_of_not_mem hc, hp.filterMap_eq]
  | more hc hp _ ih =>
    rw [Text.pieces_append_cons, Text.pieces_of_not_mem hc, List.filterMap_append, hp.filterMap_eq,
      ih, List.map_append]

/-- Every text is a list of modules, by induction on its length. -/
theorem exists_lists (cs : List Char) : ∃ names, Lists cs names := by
  by_cases hc : ',' ∈ cs
  · obtain ⟨piece, rest, hpiece, hcut⟩ := List.eq_append_cons_of_mem hc
    obtain ⟨names, hp⟩ := exists_piece piece
    have : rest.length < cs.length := by
      rw [hpiece, List.length_append, List.length_cons]
      omega
    obtain ⟨others, hr⟩ := exists_lists rest
    exact ⟨names ++ others, hpiece ▸ .more hcut hp hr⟩
  · obtain ⟨names, hp⟩ := exists_piece cs
    exact ⟨names, .last hc hp⟩
termination_by cs.length

/-! ### Several lists -/

/-- **Lists joined by commas are one list.** -/
theorem wildcards_intercalate (lists : List String) :
    wildcards (",".intercalate lists) = lists.flatMap wildcards := by
  induction lists with
  | nil => rfl
  | cons list lists ih =>
    by_cases hlists : lists = []
    · rw [hlists, String.intercalate_singleton, List.flatMap_singleton]
    · have hjoined : (",".intercalate (list :: lists)).toList =
          list.toList ++ ',' :: (",".intercalate lists).toList := by
        rw [String.intercalate_cons_of_ne_nil hlists, String.toList_append, String.toList_append,
          List.append_assoc]
        rfl
      rw [wildcards_eq, hjoined, Text.pieces_append_cons, List.filterMap_append, ← wildcards_eq,
        ← wildcards_eq, ih, List.flatMap_cons]

/-- Lists ask for the modules in them, one list after the other. -/
theorem Sequence.flatMap_wildcards_eq (h : Sequence lists names) :
    lists.flatMap wildcards = names.map Import.wildcard := by
  induction h with
  | nil => rfl
  | cons h _ ih => rw [List.flatMap_cons, h.wildcards_eq, ih, List.map_append]

theorem exists_sequence (lists : List String) : ∃ names, Sequence lists names := by
  induction lists with
  | nil => exact ⟨[], .nil⟩
  | cons list lists ih =>
    obtain ⟨names, h⟩ := exists_lists list.toList
    obtain ⟨others, hs⟩ := ih
    exact ⟨names ++ others, .cons h hs⟩

/-- The modules in lists are those that the lists ask for, and no others. -/
theorem Sequence.unique (h : Sequence lists names) (h' : Sequence lists names') :
    names = names' := by
  have hmap := h.flatMap_wildcards_eq.symm.trans h'.flatMap_wildcards_eq
  exact (List.map_inj_right fun _ _ => Import.wildcard.inj).1 hmap

end Import

/-! ### The listing -/

/-- **Two invocations of the same program**, each with its settings: one script at one width, and
the same modules in the same order, however they are spread. -/
structure SameProgram (inv : Invocation) (s : Settings) (inv' : Invocation) (s' : Settings) :
    Prop where
  script : inv.script = inv'.script
  indentWidth : s.indentWidth = s'.indentWidth
  imports : s.imports ++ inv.imports = s'.imports ++ inv'.imports
  wildcards : ∃ names, Import.Sequence (s.wildcards ++ inv.wildcards) names ∧
    Import.Sequence (s'.wildcards ++ inv'.wildcards) names

variable {names : List String} {inv inv' : Invocation} {s s' : Settings}

/-- The listing, line by line. -/
theorem generate_eq (h : Import.Sequence (s.wildcards ++ inv.wildcards) names) :
    inv.generate s = (expand inv.script).map fun p =>
      ⟨(s.imports ++ inv.imports).map (fun m => "import " ++ m) ++
        names.map (fun m => "from " ++ m ++ " import *"),
        p.renderLines s.indentWidth, .ofProgram p⟩ := by
  have hplain : Import.line ∘ Import.plain = fun m => "import " ++ m := by
    funext m
    simp [Import.line, toString]
  have hwildcard : Import.line ∘ Import.wildcard = fun m => "from " ++ m ++ " import *" := by
    funext m
    simp [Import.line, toString]
  unfold Invocation.generate Listing.assemble Invocation.headerImports
  simp only [h.flatMap_wildcards_eq, List.map_append, List.map_map, hplain, hwildcard]

theorem SameProgram.generate_eq (h : SameProgram inv s inv' s') :
    inv.generate s = inv'.generate s' := by
  obtain ⟨names, hnames, hnames'⟩ := h.wildcards
  rw [Braceline.generate_eq hnames, Braceline.generate_eq hnames', h.script, h.indentWidth,
    h.imports]

/-- A listing that is only shown is all that its invocation comes to. -/
theorem SameProgram.run_eq (h : SameProgram inv s inv' s') (host host' : Host) (k : Writer) :
    { inv with debug := true }.run s host k = { inv' with debug := true }.run s' host' k := by
  have hgenerate : { inv with debug := true }.generate s =
      { inv' with debug := true }.generate s' := h.generate_eq
  unfold Invocation.run
  rw [hgenerate]
  rfl

/-- Modules at the end of the settings may as well stand at the front of the invocation. -/
theorem sameProgram_moved (inv : Invocation) (s : Settings) (moved : List String) :
    SameProgram inv { s with wildcards := s.wildcards ++ moved }
      { inv with wildcards := moved ++ inv.wildcards } s where
  script := rfl
  indentWidth := rfl
  imports := rfl
  wildcards := by
    obtain ⟨names, h⟩ := Import.exists_sequence (s.wildcards ++ moved ++ inv.wildcards)
    exact ⟨names, h, by rwa [← List.append_assoc]⟩

/-- **A header imports the modules that are asked for, in order.** There is a line for each plain
import, unchanged, those of the settings first, and after them a line for each module of the
wildcard lists. Lists that are joined by commas ask for what they ask for one by one. So invocations
that ask for the same modules come to the same listing, and show the same, however the modules are
spread over lists, over settings and invocation, and with whatever blanks and empty pieces. -/
theorem header_of_modules :
    (∀ (inv : Invocation) (s : Settings), ∃ names : List String,
      (∀ names', Import.Sequence (s.wildcards ++ inv.wildcards) names' ↔ names' = names) ∧
      inv.generate s = (expand inv.script).map fun p =>
        ⟨(s.imports ++ inv.imports).map (fun m => "import " ++ m) ++
          names.map (fun m => "from " ++ m ++ " import *"),
          p.renderLines s.indentWidth, .ofProgram p⟩) ∧
    (∀ lists : List String,
      Import.wildcards (",".intercalate lists) = lists.flatMap Import.wildcards) ∧
    (∀ inv s inv' s', SameProgram inv s inv' s' →
      inv.generate s = inv'.generate s' ∧
      ∀ (host host' : Host) (k : Writer),
        { inv with debug := true }.run s host k = { inv' with debug := true }.run s' host' k) ∧
    ∀ (inv : Invocation) (s : Settings) (moved : List String),
      SameProgram inv { s with wildcards := s.wildcards ++ moved }
        { inv with wildcards := moved ++ inv.wildcards } s := by
  refine ⟨fun inv s => ?_, Import.wildcards_intercalate,
    fun inv s inv' s' h => ⟨h.generate_eq, h.run_eq⟩, sameProgram_moved⟩
  obtain ⟨names, h⟩ := Import.exists_sequence (s.wildcards ++ inv.wildcards)
  refine ⟨names, fun names' => ⟨fun h' => h'.unique h, ?_⟩, generate_eq h⟩
  rintro rfl
  exact h

end Braceline
