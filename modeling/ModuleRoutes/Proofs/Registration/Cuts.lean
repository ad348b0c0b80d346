import ModuleRoutes.Proofs.Registration.Blocks

/-!
# Sources as blocks of lines

The lines of a source are cut in one way into blocks that a registration opens each, behind lines
that are in no block. One pass over the lines of a source, in which the route of a registration
waits for a label, gives what the blocks give one after the other
(`ModuleRoutes.Registration.extract_blockwise`): a block gives at most one route, on the path and
with the method of its registration, and what a block gives does not hang on the other blocks.
-/

namespace ModuleRoutes

namespace Registration

/-- Consecutive lines of a source of which the first registers a route, and no other does. -/
structure SourceBlock where
  opening : List Char
  method : Method
  path : List Char
  rest : List (List Char)
  registers : registered? opening = some (method, path)
  silent : ∀ line ∈ rest, registered? line = none

namespace SourceBlock

def lines (part : SourceBlock) : List (List Char) := part.opening :: part.rest

/-- What is pending at the end of the lines: the registration with their first label. -/
def block (part : SourceBlock) : Pending :=
  ⟨part.method, part.path, part.lines.findSome? stubLabel?⟩

/-- The route on the path of a block with a key. -/
def routeOf (part : SourceBlock) (key : HandlerKey) : Route :=
  ⟨cleanPath part.path, part.method, key, none⟩

/-- What a block gives: a route on its path with the key that its first label names, or with the
key that its path suggests when none of its lines has a label. Where there is no such key, there is
no route. -/
inductive Gives (words : Vocabulary) (part : SourceBlock) : Option Route → Prop
  | byLabel {before after : List (List Char)} {line : List Char} {label : StubLabel}
      (split : part.lines = before ++ line :: after)
      (first : ∀ earlier ∈ before, stubLabel? earlier = none)
      (named : stubLabel? line = some label) :
      Gives words part ((words.keyOfLabel? part.method label).map part.routeOf)
  | byPath (unlabelled : ∀ line ∈ part.lines, stubLabel? line = none) :
      Gives words part ((words.keyOfPath? part.method (cleanPath part.path)).map part.routeOf)

theorem gives_route? (words : Vocabulary) (part : SourceBlock) :
    part.Gives words (part.block.route? words) := by
  unfold block Pending.route?
  cases found : part.lines.findSome? stubLabel? with
  | none => exact .byPath (List.findSome?_eq_none_iff.mp found)
  | some label =>
      obtain ⟨before, line, after, split, named, first⟩ := List.findSome?_eq_some_iff.mp found
      exact .byLabel split first named

end SourceBlock

/-- A list of lines cut at its registrations: each opens a block, and the lines before the first one
are in no block. -/
structure CutIntoBlocks (lines preface : List (List Char)) (parts : List SourceBlock) : Prop where
  whole : lines = preface ++ parts.flatMap SourceBlock.lines
  unregistered : ∀ line ∈ preface, registered? line = none

variable {lines preface otherPreface : List (List Char)} {parts otherParts : List SourceBlock}
  {line : List Char} {method : Method} {path : List Char}

theorem CutIntoBlocks.nil : CutIntoBlocks [] [] [] := ⟨rfl, nofun⟩

theorem CutIntoBlocks.cons_silent (cut : CutIntoBlocks lines preface parts)
    (plain : registered? line = none) :
    CutIntoBlocks (line :: lines) (line :: preface) parts :=
  ⟨congrArg (line :: ·) cut.whole, List.forall_mem_cons.mpr ⟨plain, cut.unregistered⟩⟩

theorem CutIntoBlocks.cons_registered (cut : CutIntoBlocks lines preface parts)
    (registers : registered? line = some (method, path)) :
    CutIntoBlocks (line :: lines) []
      (⟨line, method, path, preface, registers, cut.unregistered⟩ :: parts) :=
  ⟨congrArg (line :: ·) cut.whole, nofun⟩

/-- Every list of lines has a cut, and its blocks are those of the cut. -/
theorem exists_cutIntoBlocks (lines : List (List Char)) :
    ∃ preface parts, CutIntoBlocks lines preface parts ∧
      blocks lines = parts.map SourceBlock.block ∧
      labelBeforeNext? lines = preface.findSome? stubLabel? := by
  induction lines with
  | nil => exact ⟨[], [], .nil, rfl, rfl⟩
  | cons line lines ih =>
      obtain ⟨preface, parts, cut, sameBlocks, label⟩ := ih
      cases opened : registered? line with
      | none =>
          refine ⟨line :: preface, parts, cut.cons_silent opened, ?_, ?_⟩
          · rw [blocks_cons_of_not_registered opened, sameBlocks]
          · rw [labelBeforeNext?, opened, List.findSome?_cons, ← label]
            cases stubLabel? line <;> rfl
      | some call =>
          obtain ⟨method, path⟩ := call
          refine ⟨[], _, cut.cons_registered opened, ?_, ?_⟩
          · rw [blocks, opened, List.map_cons, sameBlocks, label]
            simp only [SourceBlock.block, SourceBlock.lines, List.findSome?_cons]
            cases stubLabel? line <;> rfl
          · rw [labelBeforeNext?, opened]
            rfl

theorem CutIntoBlocks.eq_nil (cut : CutIntoBlocks [] preface parts) :
    preface = [] ∧ parts = [] := by
  obtain ⟨noPreface, noLines⟩ := List.append_eq_nil_iff.mp cut.whole.symm
  refine ⟨noPreface, ?_⟩
  cases parts with
  | nil => rfl
  | cons part parts => cases noLines

/-- A cut of lines of which the first registers nothing has this line before its blocks. -/
theorem CutIntoBlocks.of_cons_silent (cut : CutIntoBlocks (line :: lines) preface parts)
    (plain : registered? line = none) :
    ∃ rest, preface = line :: rest ∧ CutIntoBlocks lines rest parts := by
  cases preface with
  | cons first rest =>
      obtain ⟨rfl, whole⟩ := List.cons.inj cut.whole
      exact ⟨rest, rfl, whole,
        fun next member => cut.unregistered next (List.mem_cons_of_mem _ member)⟩
  | nil =>
      cases parts with
      | nil => cases cut.whole
      | cons part parts =>
          obtain ⟨rfl, -⟩ := List.cons.inj cut.whole
          rw [part.registers] at plain
          cases plain

/-- A cut of lines of which the first registers a route has a block that this line opens. -/
theorem CutIntoBlocks.of_cons_registered (cut : CutIntoBlocks (line :: lines) preface parts)
    (registers : registered? line = some (method, path)) :
    ∃ rest silent others, preface = [] ∧
      parts = ⟨line, method, path, rest, registers, silent⟩ :: others ∧
      CutIntoBlocks lines rest others := by
  cases preface with
  | cons first rest =>
      obtain ⟨rfl, -⟩ := List.cons.inj cut.whole
      rw [cut.unregistered _ List.mem_cons_self] at registers
      cases registers
  | nil =>
      cases parts with
      | nil => cases cut.whole
      | cons part parts =>
          obtain ⟨opening, otherMethod, otherPath, rest, opens, silent⟩ := part
          obtain ⟨rfl, whole⟩ := List.cons.inj cut.whole
          obtain ⟨rfl, rfl⟩ := Prod.mk.inj (Option.some.inj (opens.symm.trans registers))
          exact ⟨rest, silent, parts, rfl, rfl, whole, silent⟩

/-- There is one way to cut a list of lines. -/
theorem CutIntoBlocks.unique (cut : CutIntoBlocks lines preface parts)
    (other : CutIntoBlocks lines otherPreface otherParts) :
    otherPreface = preface ∧ otherParts = parts := by
  induction lines generalizing preface parts otherPreface otherParts with
  | nil =>
      obtain ⟨rfl, rfl⟩ := cut.eq_nil
      exact other.eq_nil
  | cons line lines ih =>
      cases opened : registered? line with
      | none =>
          obtain ⟨rest, rfl, cutRest⟩ := cut.of_cons_silent opened
          obtain ⟨otherRest, rfl, otherCut⟩ := other.of_cons_silent opened
          obtain ⟨rfl, rfl⟩ := ih cutRest otherCut
          exact ⟨rfl, rfl⟩
      | some call =>
          obtain ⟨rest, silent, later, rfl, rfl, cutRest⟩ := cut.of_cons_registered opened
          obtain ⟨otherRest, otherSilent, otherLater, rfl, rfl, otherCut⟩ :=
            other.of_cons_registered opened
          obtain ⟨rfl, rfl⟩ := ih cutRest otherCut
          exact ⟨rfl, rfl⟩

/-! ## Reading block by block -/

variable {definition : Definition}

/-- The routes of a source are those that the blocks of its cut give, in order. -/
theorem exists_results (definition : Definition) (lines : List (List Char)) :
    ∃ preface parts results, CutIntoBlocks lines preface parts ∧
      List.Forall₂ (SourceBlock.Gives (Vocabulary.ofDefinition definition)) parts results ∧
      routesOf definition lines = results.flatMap Option.toList := by
  obtain ⟨preface, parts, cut, sameBlocks, -⟩ := exists_cutIntoBlocks lines
  refine ⟨preface, parts,
    parts.map fun part => part.block.route? (Vocabulary.ofDefinition definition), cut, ?_, ?_⟩
  · rw [List.forall₂_map_right_iff]
    exact List.forall₂_same.mpr fun part _ => part.gives_route? _
  · rw [routesOf_eq_blocks, sameBlocks, List.filterMap_map, List.flatMap_map,
      List.filterMap_eq_flatMap_toList]
    rfl

/-- A source behind a newline and a source whose first line registers a route are read apart. -/
theorem extract_append {first second : String} {rest : List (List Char)}
    (begins : Text.lines second = line :: rest)
    (registers : registered? line = some (method, path)) :
    extract (first ++ "\n" ++ second) definition =
      extract first definition ++ extract second definition := by
  obtain ⟨piece, others, pieces, ending⟩ := Text.exists_of_endedLines begins
  have opens : registered? piece = some (method, path) := by
    rcases ending with rfl | rfl
    · exact registers
    · rwa [registered?_dropReturn] at registers
  have joined : (first ++ "\n" ++ second).toList = first.toList ++ '\n' :: second.toList := by
    simp
  rw [extract_eq, extract_eq, extract_eq, joined, Text.splitOn_append_cons, pieces,
    routesOf_append definition opens]

/-- **Block by block.** The lines of every source have one cut at the registrations among them, and
the routes of the source are what the blocks of this cut give, in order and at most one route each.
So a source behind a newline and one that begins with a registration give the routes of the first
and then those of the second. -/
theorem extract_blockwise (definition : Definition) :
    (∀ source, ∃ preface parts results,
      (∀ otherPreface otherParts, CutIntoBlocks (Text.lines source) otherPreface otherParts ↔
        otherPreface = preface ∧ otherParts = parts) ∧
      List.Forall₂ (SourceBlock.Gives (Vocabulary.ofDefinition definition)) parts results ∧
      extract source definition = results.flatMap Option.toList) ∧
    ∀ first second line rest method path, Text.lines second = line :: rest →
      registered? line = some (method, path) →
      extract (first ++ "\n" ++ second) definition =
        extract first definition ++ extract second definition := by
  constructor
  · intro source
    obtain ⟨preface, parts, results, cut, gives, routes⟩ :=
      exists_results definition (Text.lines source)
    refine ⟨preface, parts, results, fun otherPreface otherParts => ⟨cut.unique, ?_⟩, gives, ?_⟩
    · rintro ⟨rfl, rfl⟩
      exact cut
    · exact routes
  · intro first second line rest method path begins registers
    exact extract_append begins registers

/-- A stub whose lines end with carriage returns, the last one without a newline. -/
def overviewStub : String :=
  "router.get('/dashboard', (req, res) => \x7b\r\n" ++
    "  res.json(\x7b section: 'dashboard', action: 'overview' \x7d);\r\n\x7d);\r"

/-- A stub that names its section and its action in the line of its registration. -/
def settingsStub : String :=
  "router.put('/settings', (req, res) => res.json(\x7b section: 'settings', action: 'put' \x7d));"

theorem extract_blockwise_stubs :
    Text.lines settingsStub = [settingsStub.toList] ∧
      registered? settingsStub.toList = some (.put, "/settings".toList) ∧
      extract (overviewStub ++ "\n" ++ settingsStub)
          (Definition.template "seo-optimizer" "listings" "keywords" "audits") =
        extract overviewStub (Definition.template "seo-optimizer" "listings" "keywords" "audits") ++
          extract settingsStub
            (Definition.template "seo-optimizer" "listings" "keywords" "audits") := by
  have begins : Text.lines settingsStub = [settingsStub.toList] := by decide +kernel
  have registers : registered? settingsStub.toList = some (.put, "/settings".toList) := by
    decide +kernel
  exact ⟨begins, registers, (extract_blockwise _).2 _ _ _ _ _ _ begins registers⟩

end Registration

end ModuleRoutes
