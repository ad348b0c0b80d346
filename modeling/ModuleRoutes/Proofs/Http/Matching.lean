import ModuleRoutes.Proofs.Http.Pattern
import ModuleRoutes.Proofs.Text.Search

/-!
# Matching paths segment by segment

A path matches the pattern of a module's path when its segments fill those of the module's path: an
item is filled by any segment, and any other segment by itself
(`ModuleRoutes.Http.bind?_segmentsPattern_iff`). Where the segments without an item and segments
with one are filled by the same path, the pattern of the former is preferred
(`ModuleRoutes.Http.preferred_of_fills`), and so a router selects it, wherever it stands among its
endpoints (`ModuleRoutes.Http.Router.foldl_preferredOf`).
-/

namespace ModuleRoutes

namespace Http

/-- The path with some segments. -/
def pathOf (segments : List (List Char)) : List Char :=
  segments.flatMap fun segment => '/' :: segment

/-- Segments that fill the segments of a module's path, with the values that they give its items. -/
inductive Fills : List String → List (List Char) → List (List Char × List Char) → Prop
  | nil : Fills [] [] []
  | item {parts : List String} {segment : List Char} {segments : List (List Char)}
      {values : List (List Char × List Char)} (rest : Fills parts segments values) :
      Fills (":id" :: parts) (segment :: segments) ((['i', 'd'], segment) :: values)
  | literal {part : String} {parts : List String} {segments : List (List Char)}
      {values : List (List Char × List Char)} (plain : part ≠ ":id")
      (rest : Fills parts segments values) :
      Fills (part :: parts) (part.toList :: segments) values

variable {part : String} {parts others : List String} {segment rest : List Char}
  {segments : List (List Char)} {values : List (List Char × List Char)}

/-! ## Filling -/

theorem fills_item_iff :
    Fills (":id" :: parts) (segment :: segments) values ↔
      ∃ later, Fills parts segments later ∧ (['i', 'd'], segment) :: later = values := by
  constructor
  · intro fills
    cases fills with
    | item rest => exact ⟨_, rest, rfl⟩
    | literal plain => exact absurd rfl plain
  · rintro ⟨_, rest, rfl⟩
    exact .item rest

theorem fills_literal_iff (plain : part ≠ ":id") :
    Fills (part :: parts) (segment :: segments) values ↔
      part.toList = segment ∧ Fills parts segments values := by
  constructor
  · intro fills
    cases fills with
    | item => exact absurd rfl plain
    | literal _ rest => exact ⟨rfl, rest⟩
  · rintro ⟨rfl, rest⟩
    exact .literal plain rest

theorem Fills.length_eq (fills : Fills parts segments values) : parts.length = segments.length := by
  induction fills with
  | nil => rfl
  | item _ ih => exact congrArg Nat.succ ih
  | literal _ _ ih => exact congrArg Nat.succ ih

/-- Segments in front that are no items are filled by themselves. -/
theorem fills_append_iff {front : List String} (plain : ∀ part ∈ front, part ≠ ":id") :
    Fills (front ++ parts) (front.map String.toList ++ segments) values ↔
      Fills parts segments values := by
  induction front with
  | nil => exact Iff.rfl
  | cons part front ih =>
    obtain ⟨first, later⟩ := List.forall_mem_cons.mp plain
    rw [List.cons_append, List.map_cons, List.cons_append, fills_literal_iff first, ih later]
    exact and_iff_right rfl

/-- Segments without an item are filled by nothing but themselves. -/
theorem eq_of_fills (plain : ":id" ∉ parts)
    (fills : Fills parts (others.map String.toList) values) : parts = others := by
  induction parts generalizing others values with
  | nil =>
    cases others with
    | nil => rfl
    | cons other others => cases fills
  | cons part parts ih =>
    rw [List.mem_cons, not_or] at plain
    cases others with
    | nil => cases fills
    | cons other others =>
      obtain ⟨same, rest⟩ := (fills_literal_iff (Ne.symm plain.1)).mp fills
      rw [String.toList_injective same, ih plain.2 rest]

/-- The item of a path with a value in its place. -/
def filledSegment (value part : String) : String := if part = ":id" then value else part

/-- The segments of a path with a value in the places of its items. -/
def filledSegments (value : String) (parts : List String) : List String :=
  parts.map (filledSegment value)

theorem filledSegments_eq_self (value : String) (plain : ":id" ∉ parts) :
    filledSegments value parts = parts := by
  refine (List.map_congr_left fun part member => ?_).trans (List.map_id parts)
  exact if_neg fun item : part = ":id" => plain (item ▸ member)

/-- A path is filled by a value in the places of its items. -/
theorem fills_filledSegments (value : String) (parts : List String) :
    Fills parts ((filledSegments value parts).map String.toList)
      (List.replicate (parts.count ":id") (['i', 'd'], value.toList)) := by
  induction parts with
  | nil => exact .nil
  | cons part parts ih =>
    rw [filledSegments, List.map_cons, List.map_cons, List.count_cons, filledSegment]
    by_cases item : part = ":id"
    · rw [if_pos item, item, beq_self_eq_true, if_pos rfl, List.replicate_succ]
      exact .item ih
    · rw [if_neg item, if_neg (by simpa using item), Nat.add_zero]
      exact .literal item ih

/-- Segments of which only the second one can be an item, and is, are one segment, the item and the
rest. -/
theorem exists_cons_item_cons (second : ∀ index, parts[index]? = some ":id" → index = 1)
    (item : ":id" ∈ parts) :
    ∃ first rest, parts = first :: ":id" :: rest ∧ first ≠ ":id" ∧ ":id" ∉ rest := by
  obtain ⟨index, found⟩ := List.mem_iff_getElem?.mp item
  obtain rfl := second index found
  match parts, found with
  | first :: _ :: rest, found =>
    cases found
    refine ⟨first, rest, rfl, fun same => ?_, fun later => ?_⟩
    · exact absurd (second 0 (congrArg some same)) (by decide)
    · obtain ⟨index, found⟩ := List.mem_iff_getElem?.mp later
      exact absurd (second (index + 2) found) (by omega)

/-- Where the item can only stand second, segments with a value for the item fill other segments
only if these are the same, have the value there after the same first segment, or have an item and
the former have none. -/
theorem eq_or_plain_of_fills {value : String}
    (second : ∀ index, parts[index]? = some ":id" → index = 1)
    (otherSecond : ∀ index, others[index]? = some ":id" → index = 1)
    (fresh : others[0]? = parts[0]? → others[1]? ≠ some value)
    (fills : Fills others ((filledSegments value parts).map String.toList) values) :
    others = parts ∨ (":id" ∉ parts ∧ ":id" ∈ others) := by
  by_cases item : ":id" ∈ parts
  · obtain ⟨first, rest, rfl, noItem, restPlain⟩ := exists_cons_item_cons second item
    have filled : filledSegments value (first :: ":id" :: rest) = first :: value :: rest :=
      congrArg₂ List.cons (if_neg noItem) (congrArg _ (filledSegments_eq_self value restPlain))
    rw [filled] at fills
    by_cases otherItem : ":id" ∈ others
    · obtain ⟨other, otherRest, rfl, otherNoItem, otherPlain⟩ :=
        exists_cons_item_cons otherSecond otherItem
      obtain ⟨same, fills⟩ := (fills_literal_iff otherNoItem).mp fills
      obtain ⟨_, fills, -⟩ := fills_item_iff.mp fills
      rw [String.toList_injective same, eq_of_fills otherPlain fills]
      exact .inl rfl
    · rw [eq_of_fills otherItem fills] at fresh
      exact absurd rfl (fresh rfl)
  · rw [filledSegments_eq_self value item] at fills
    by_cases otherItem : ":id" ∈ others
    · exact .inr ⟨item, otherItem⟩
    · exact .inl (eq_of_fills otherItem fills)

/-! ## Matching -/

theorem pathOf_cons (segment : List Char) (segments : List (List Char)) :
    pathOf (segment :: segments) = '/' :: (segment ++ pathOf segments) := List.flatMap_cons

theorem segmentsPattern_cons (part : String) (parts : List String) :
    segmentsPattern (part :: parts) =
      .literal '/' :: (segmentPieces part ++ segmentsPattern parts) :=
  List.flatMap_cons

theorem pathOf_ended (segments : List (List Char)) :
    pathOf segments = [] ∨ ∃ rest, pathOf segments = '/' :: rest := by
  cases segments with
  | nil => exact .inl rfl
  | cons segment segments => exact .inr ⟨_, pathOf_cons segment segments⟩

/-- A segment ends at the next slash. -/
theorem takeWhile_segment (free : '/' ∉ segment)
    (ended : rest = [] ∨ ∃ after, rest = '/' :: after) :
    (segment ++ rest).takeWhile (· ≠ '/') = segment ∧
      (segment ++ rest).dropWhile (· ≠ '/') = rest := by
  have inside : ∀ c ∈ segment, decide (c ≠ '/') = true :=
    fun c member => decide_eq_true fun slash => free (slash ▸ member)
  rw [List.takeWhile_append_of_pos inside, List.dropWhile_append_of_pos inside]
  rcases ended with rfl | ⟨after, rfl⟩ <;> simp

theorem bind?_literals {pattern : Pattern} (word path : List Char) :
    Pattern.bind? (word.map .literal ++ pattern) path =
      (Text.afterStart? word path).bind pattern.bind? := by
  induction word generalizing path with
  | nil => rfl
  | cons c word ih =>
    cases path with
    | nil => rfl
    | cons d path =>
      rw [List.map_cons, List.cons_append, Pattern.bind?, Text.afterStart?, ih]
      split <;> rfl

/-- What matches the pattern of some segments ends there or goes on with a slash. -/
theorem ended_of_bind? (matched : (segmentsPattern parts).bind? rest = some values) :
    rest = [] ∨ ∃ after, rest = '/' :: after := by
  cases rest with
  | nil => exact .inl rfl
  | cons c rest =>
    cases parts with
    | nil => cases matched
    | cons part parts =>
      rw [segmentsPattern_cons, Pattern.bind?] at matched
      split at matched
      · next slash => exact .inr ⟨rest, by rw [slash]⟩
      · cases matched

/-- A segment that is no item matches itself only. -/
theorem bind?_literals_segment {word : List Char} (wordFree : '/' ∉ word) (free : '/' ∉ segment) :
    Pattern.bind? (word.map .literal ++ segmentsPattern parts) (segment ++ pathOf segments) =
        some values ↔
      word = segment ∧ (segmentsPattern parts).bind? (pathOf segments) = some values := by
  rw [bind?_literals, Option.bind_eq_some_iff]
  constructor
  · rintro ⟨rest, begins, matched⟩
    have shape := Text.afterStart?_eq_some_iff.mp begins
    obtain ⟨taken, dropped⟩ := takeWhile_segment free (pathOf_ended segments)
    obtain ⟨wordTaken, restDropped⟩ := takeWhile_segment wordFree (ended_of_bind? matched)
    rw [shape] at taken dropped
    exact ⟨wordTaken.symm.trans taken, dropped.symm.trans restDropped ▸ matched⟩
  · rintro ⟨rfl, matched⟩
    exact ⟨_, Text.afterStart?_eq_some_iff.mpr rfl, matched⟩

theorem bind?_item (nonempty : segment ≠ []) (free : '/' ∉ segment) :
    Pattern.bind? (.parameter ['i', 'd'] :: segmentsPattern parts) (segment ++ pathOf segments) =
      ((segmentsPattern parts).bind? (pathOf segments)).map ((['i', 'd'], segment) :: ·) := by
  obtain ⟨taken, dropped⟩ := takeWhile_segment free (pathOf_ended segments)
  rw [Pattern.bind?, taken, dropped, if_neg nonempty]

/-- **Matching.** A path matches the pattern of some segments when its segments fill them. -/
theorem bind?_segmentsPattern_iff (plain : ∀ part ∈ parts, part ≠ ":id" → '/' ∉ part.toList)
    (clean : ∀ segment ∈ segments, segment ≠ [] ∧ '/' ∉ segment) :
    (segmentsPattern parts).bind? (pathOf segments) = some values ↔
      Fills parts segments values := by
  induction parts generalizing segments values with
  | nil =>
    cases segments with
    | nil =>
      constructor
      · rintro ⟨⟩
        exact .nil
      · rintro ⟨⟩
        rfl
    | cons segment segments => exact iff_of_false nofun nofun
  | cons part parts ih =>
    cases segments with
    | nil => exact iff_of_false nofun nofun
    | cons segment segments =>
      obtain ⟨first, later⟩ := List.forall_mem_cons.mp plain
      obtain ⟨⟨nonempty, free⟩, cleanLater⟩ := List.forall_mem_cons.mp clean
      rw [segmentsPattern_cons, pathOf_cons, Pattern.bind?, if_pos rfl, segmentPieces]
      by_cases item : part = ":id"
      · rw [if_pos item, List.singleton_append, bind?_item nonempty free, Option.map_eq_some_iff,
          item, fills_item_iff]
        simp only [ih later cleanLater]
      · rw [if_neg item, bind?_literals_segment (first item) free, ih later cleanLater,
          fills_literal_iff item]

/-! ## Preferred patterns -/

theorem preferred_append_literals (word : List Char) (left right : Pattern) :
    Pattern.preferred (word.map .literal ++ left) (word.map .literal ++ right) =
      Pattern.preferred left right := by
  induction word with
  | nil => rfl
  | cons c word ih => exact ih

/-- Of two patterns that one path matches, the one without an item is preferred. -/
theorem preferred_of_fills (plain : ":id" ∉ parts) (filled : ∀ part ∈ parts, part ≠ "")
    (fills : Fills others (parts.map String.toList) values) (item : ":id" ∈ others) :
    (segmentsPattern parts).preferred (segmentsPattern others) = true ∧
      (segmentsPattern others).preferred (segmentsPattern parts) = false := by
  induction parts generalizing others values with
  | nil => cases fills with | nil => cases item
  | cons part parts ih =>
    rw [List.mem_cons, not_or] at plain
    obtain ⟨first, later⟩ := List.forall_mem_cons.mp filled
    have pieces : segmentPieces part = part.toList.map .literal := if_neg (Ne.symm plain.1)
    cases others with
    | nil => cases item
    | cons other others =>
      rw [segmentsPattern_cons, segmentsPattern_cons, pieces, Pattern.preferred, Pattern.preferred]
      by_cases isItem : other = ":id"
      · -- Here the patterns part: one goes on with a letter and the other with the item.
        obtain ⟨c, letters, spelled⟩ := List.exists_cons_of_ne_nil
          fun empty : part.toList = [] => first (String.toList_eq_nil_iff.mp empty)
        rw [segmentPieces, if_pos isItem, spelled]
        exact ⟨rfl, rfl⟩
      · obtain ⟨same, rest⟩ := (fills_literal_iff isItem).mp fills
        have otherPieces : segmentPieces other = part.toList.map .literal := by
          rw [segmentPieces, if_neg isItem, same]
        rw [otherPieces, preferred_append_literals, preferred_append_literals]
        exact ih plain.2 later rest ((List.mem_cons.mp item).resolve_left (Ne.symm isItem))

namespace Router

variable {Chosen : Endpoint → Prop} {best : Option Endpoint} {endpoints : List Endpoint}

/-- Endpoints of which the chosen ones are preferred to all others. -/
def Preferred (Chosen : Endpoint → Prop) (endpoints : List Endpoint) : Prop :=
  ∀ endpoint ∈ endpoints, ∀ other ∈ endpoints, Chosen endpoint → ¬Chosen other →
    endpoint.pattern.preferred other.pattern = true ∧
      other.pattern.preferred endpoint.pattern = false

theorem Preferred.mono {fewer : List Endpoint} (better : Preferred Chosen endpoints)
    (subset : fewer ⊆ endpoints) : Preferred Chosen fewer :=
  fun endpoint member other otherMember =>
    better endpoint (subset member) other (subset otherMember)

/-- One step of a selection keeps one of two endpoints, a chosen one if there is one. -/
theorem exists_preferredOf {endpoint : Endpoint}
    (better : Preferred Chosen (best.toList ++ [endpoint])) :
    ∃ next, preferredOf best endpoint = some next ∧ next ∈ best.toList ++ [endpoint] ∧
      ((∃ candidate ∈ best.toList ++ [endpoint], Chosen candidate) → Chosen next) := by
  cases best with
  | none =>
    refine ⟨endpoint, rfl, List.mem_singleton_self _, ?_⟩
    rintro ⟨candidate, member, chosen⟩
    exact List.mem_singleton.mp member ▸ chosen
  | some other =>
    have otherMember : other ∈ (some other).toList ++ [endpoint] := List.mem_cons_self
    have member : endpoint ∈ (some other).toList ++ [endpoint] :=
      List.mem_cons_of_mem _ (List.mem_singleton_self _)
    rw [preferredOf]
    by_cases preferred : endpoint.pattern.preferred other.pattern = true
    · refine ⟨endpoint, if_pos preferred, member, ?_⟩
      rintro ⟨candidate, inPair, chosen⟩
      by_contra unchosen
      rcases List.mem_cons.mp inPair with rfl | same
      · exact absurd preferred (by simp [(better candidate otherMember endpoint member chosen
          unchosen).2])
      · exact unchosen (List.mem_singleton.mp same ▸ chosen)
    · refine ⟨other, if_neg preferred, otherMember, ?_⟩
      rintro ⟨candidate, inPair, chosen⟩
      by_contra unchosen
      rcases List.mem_cons.mp inPair with rfl | same
      · exact unchosen chosen
      · rw [List.mem_singleton.mp same] at chosen
        exact preferred (better endpoint member other otherMember chosen unchosen).1

/-- A selection ends at a chosen endpoint, if there is one and the chosen ones are preferred. -/
theorem foldl_preferredOf (better : Preferred Chosen (best.toList ++ endpoints))
    (found : ∃ endpoint ∈ best.toList ++ endpoints, Chosen endpoint) :
    ∃ selected, endpoints.foldl preferredOf best = some selected ∧ Chosen selected := by
  induction endpoints generalizing best with
  | nil =>
    obtain ⟨endpoint, member, chosen⟩ := found
    rw [List.append_nil, Option.mem_toList] at member
    exact ⟨endpoint, member, chosen⟩
  | cons endpoint endpoints ih =>
    rw [List.append_cons] at better found
    obtain ⟨next, step, kept, choice⟩ :=
      exists_preferredOf (better.mono (List.subset_append_left _ endpoints))
    have fewer : next :: endpoints ⊆ best.toList ++ [endpoint] ++ endpoints :=
      List.cons_subset.mpr
        ⟨List.mem_append_left _ kept, List.subset_append_right _ endpoints⟩
    rw [List.foldl_cons, step]
    refine ih (better.mono fewer) ?_
    obtain ⟨candidate, member, chosen⟩ := found
    rcases List.mem_append.mp member with before | later
    · exact ⟨next, List.mem_cons_self, choice ⟨candidate, before, chosen⟩⟩
    · exact ⟨candidate, List.mem_cons_of_mem _ later, chosen⟩

end Router

end Http

end ModuleRoutes
