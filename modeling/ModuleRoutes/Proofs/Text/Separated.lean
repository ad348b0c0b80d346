import Mathlib.Data.List.Basic
import ModuleRoutes.Text.Blank
import ModuleRoutes.Text.Segments

/-!
# Cutting and joining

Cutting at a separator and joining with it are core's `List.splitOn` and `List.intercalate`, so that
pieces without the separator are found again in the text that joins them
(`ModuleRoutes.Text.splitOn_joinWith`), and no piece of a text holds the separator.
-/

namespace ModuleRoutes

namespace Text

theorem splitOn_eq (separator : Char) (text : List Char) :
    splitOn separator text = text.splitOn separator := by
  induction text with
  | nil => rfl
  | cons c rest ih =>
      rw [List.splitOn_cons_eq_if_modifyHead, splitOn, ih]
      by_cases same : c = separator
      · simp [same]
      · cases pieces : rest.splitOn separator with
        | nil => exact absurd pieces (List.splitOn_ne_nil _ _)
        | cons piece pieces => simp [same]

theorem joinWith_eq (separator : List Char) (pieces : List (List Char)) :
    joinWith separator pieces = separator.intercalate pieces := by
  induction pieces with
  | nil => rfl
  | cons piece pieces ih =>
      cases pieces with
      | nil => simp [joinWith]
      | cons next pieces =>
          rw [joinWith, ih, List.intercalate_cons_cons, List.append_assoc]

theorem toList_joined (separator : String) (parts : List String) :
    (joined separator parts).toList = joinWith separator.toList (parts.map String.toList) :=
  String.toList_ofList

/-- Pieces without the separator are found again in the text that joins them. -/
theorem splitOn_joinWith {separator : Char} {pieces : List (List Char)}
    (free : ∀ piece ∈ pieces, separator ∉ piece) (nonempty : pieces ≠ []) :
    splitOn separator (joinWith [separator] pieces) = pieces := by
  rw [splitOn_eq, joinWith_eq]
  exact List.splitOn_intercalate separator free nonempty

/-- Joined pieces behind a separator are the pieces, each behind a separator. -/
theorem cons_joinWith_map {α : Type} (separator : Char) (read : α → List Char) {items : List α}
    (nonempty : items ≠ []) :
    separator :: joinWith [separator] (items.map read) =
      items.flatMap fun item => separator :: read item := by
  induction items with
  | nil => exact absurd rfl nonempty
  | cons item items ih =>
      cases items with
      | nil => simp [joinWith]
      | cons next items =>
          rw [List.map_cons, List.map_cons, joinWith, List.append_assoc, List.singleton_append,
            ← List.map_cons, ih (List.cons_ne_nil _ _)]
          rfl

theorem splitOn_append_cons (separator : Char) (before after : List Char) :
    splitOn separator (before ++ separator :: after) =
      splitOn separator before ++ splitOn separator after := by
  simp only [splitOn_eq, List.splitOn_eq_splitOnP]
  exact List.splitOnP_append_cons before after (beq_self_eq_true separator)

theorem splitOn_of_not_mem {separator : Char} {text : List Char} (free : separator ∉ text) :
    splitOn separator text = [text] := by
  have single := splitOn_joinWith (List.forall_mem_singleton.mpr free) (List.cons_ne_nil text [])
  rwa [joinWith] at single

theorem pieces_joined {separator : Char} {parts : List String}
    (free : ∀ part ∈ parts, separator ∉ part.toList) (nonempty : parts ≠ []) :
    pieces separator (joined (String.singleton separator) parts) = parts := by
  have lists : splitOn separator (joinWith [separator] (parts.map String.toList)) =
      parts.map String.toList :=
    splitOn_joinWith (List.forall_mem_map.mpr free) (by simpa using nonempty)
  rw [pieces, joined, String.toList_ofList, String.toList_singleton, lists, List.map_map]
  exact (List.map_congr_left fun part _ => String.ofList_toList).trans (List.map_id parts)

/-- Joining the pieces of a text gives the text back. -/
theorem joined_pieces (separator : Char) (text : String) :
    joined (String.singleton separator) (pieces separator text) = text := by
  apply String.toList_injective
  rw [toList_joined, pieces, List.map_map, String.toList_singleton]
  have lists : (splitOn separator text.toList).map (String.toList ∘ String.ofList) =
      splitOn separator text.toList :=
    (List.map_congr_left fun _ _ => String.toList_ofList).trans (List.map_id _)
  rw [lists, joinWith_splitOn]

/-- A path is its parts, each behind a slash. -/
theorem toList_path {parts : List String} (nonempty : parts ≠ []) :
    ("/" ++ joined "/" parts).toList = parts.flatMap fun part => '/' :: part.toList := by
  rw [String.toList_append, toList_joined]
  exact cons_joinWith_map '/' String.toList nonempty

/-- A path behind another one has the parts of both. -/
theorem path_append {parts later : List String} (nonempty : parts ≠ [])
    (laterNonempty : later ≠ []) :
    "/" ++ joined "/" parts ++ ("/" ++ joined "/" later) = "/" ++ joined "/" (parts ++ later) := by
  apply String.toList_injective
  rw [String.toList_append, toList_path nonempty, toList_path laterNonempty,
    toList_path (List.append_ne_nil_of_left_ne_nil nonempty later), List.flatMap_append]

/-- The parts of a path are its segments. -/
theorem segments_path {parts : List String} (free : ∀ part ∈ parts, '/' ∉ part.toList)
    (filled : ∀ part ∈ parts, part ≠ "") (nonempty : parts ≠ []) :
    segments '/' ("/" ++ joined "/" parts) = parts := by
  have after : pieces '/' ("/" ++ joined "/" parts) = "" :: pieces '/' (joined "/" parts) := by
    simp [pieces, splitOn]
  have inside : pieces '/' (joined "/" parts) = parts := pieces_joined free nonempty
  rw [segments, after, inside, List.filter_cons_of_neg (by simp), List.filter_eq_self]
  intro part member
  simpa using filled part member

theorem not_mem_of_mem_splitOn {separator : Char} {text piece : List Char}
    (member : piece ∈ splitOn separator text) : separator ∉ piece := by
  induction text generalizing piece with
  | nil => simp_all [splitOn]
  | cons c rest ih =>
      unfold splitOn at member
      split at member
      · rcases List.mem_cons.mp member with rfl | later
        · exact List.not_mem_nil
        · exact ih later
      · next different =>
        cases pieces : splitOn separator rest with
        | nil => exact absurd pieces (splitOn_ne_nil _ _)
        | cons first others =>
            rw [pieces] at member ih
            rcases List.mem_cons.mp member with rfl | later
            · have apart := ih List.mem_cons_self
              simp only [List.mem_cons, not_or]
              exact ⟨fun same => different same.symm, apart⟩
            · exact ih (List.mem_cons_of_mem _ later)

theorem mem_of_mem_splitOn {separator : Char} {text piece : List Char}
    (member : piece ∈ splitOn separator text) {c : Char} (inPiece : c ∈ piece) : c ∈ text := by
  have joined : ∀ pieces : List (List Char), piece ∈ pieces → c ∈ joinWith [separator] pieces := by
    intro pieces inPieces
    induction pieces with
    | nil => cases inPieces
    | cons first others ih =>
        cases others with
        | nil => exact List.mem_singleton.mp inPieces ▸ inPiece
        | cons next others =>
            rw [joinWith, List.mem_append, List.mem_append]
            rcases List.mem_cons.mp inPieces with rfl | later
            · exact Or.inl (Or.inl inPiece)
            · exact Or.inr (ih later)
  rw [← joinWith_splitOn separator text]
  exact joined _ member

/-- The characters of joined pieces are those of the pieces and of the separator. -/
theorem mem_joinWith {separator : List Char} {pieces : List (List Char)} {c : Char}
    (member : c ∈ joinWith separator pieces) : c ∈ separator ∨ ∃ piece ∈ pieces, c ∈ piece := by
  induction pieces with
  | nil => cases member
  | cons piece pieces ih =>
      cases pieces with
      | nil => exact Or.inr ⟨piece, List.mem_cons_self, member⟩
      | cons next pieces =>
          rw [joinWith, List.mem_append, List.mem_append] at member
          rcases member with (inPiece | between) | later
          · exact Or.inr ⟨piece, List.mem_cons_self, inPiece⟩
          · exact Or.inl between
          · obtain between | ⟨other, found, inOther⟩ := ih later
            · exact Or.inl between
            · exact Or.inr ⟨other, List.mem_cons_of_mem _ found, inOther⟩

/-- Without the separator, joined pieces are just put together. -/
theorem filter_joinWith {separator : Char} {pieces : List (List Char)}
    (free : ∀ piece ∈ pieces, separator ∉ piece) :
    (joinWith [separator] pieces).filter (· ≠ separator) = pieces.flatten := by
  have kept : ∀ piece ∈ pieces, piece.filter (· ≠ separator) = piece := by
    intro piece member
    refine List.filter_eq_self.mpr fun c inPiece => decide_eq_true ?_
    rintro rfl
    exact free piece member inPiece
  induction pieces with
  | nil => rfl
  | cons piece pieces ih =>
      obtain ⟨first, others⟩ := List.forall_mem_cons.mp kept
      cases pieces with
      | nil => rw [joinWith, first, List.flatten_singleton]
      | cons next pieces =>
          have rest := ih (List.forall_mem_cons.mp free).2 others
          rw [joinWith, List.filter_append, List.filter_append, first, rest,
            List.filter_cons_of_neg (by simp), List.filter_nil, List.append_nil]
          exact List.flatten_cons.symm

/-- Joined pieces end as one of the pieces does. -/
theorem exists_getLast?_joinWith (separator : List Char) {pieces : List (List Char)}
    (nonempty : pieces ≠ []) (filled : ∀ piece ∈ pieces, piece ≠ []) :
    ∃ piece ∈ pieces, (joinWith separator pieces).getLast? = piece.getLast? := by
  induction pieces with
  | nil => exact absurd rfl nonempty
  | cons piece pieces ih =>
      cases pieces with
      | nil => exact ⟨piece, List.mem_cons_self, rfl⟩
      | cons next pieces =>
          obtain ⟨last, member, ends⟩ :=
            ih (List.cons_ne_nil _ _) fun other found => filled other (List.mem_cons_of_mem _ found)
          refine ⟨last, List.mem_cons_of_mem _ member, ?_⟩
          have some := List.getLast?_eq_some_getLast (filled last (List.mem_cons_of_mem _ member))
          rw [joinWith, List.getLast?_append, ends, some, Option.some_or]

/-- A text that ends in no character of a class loses none at its end. -/
theorem dropEndWhile_of_getLast? {p : Char → Bool} {text : List Char}
    (ends : ∀ c, text.getLast? = some c → p c = false) : dropEndWhile p text = text := by
  have kept : text.reverse.dropWhile p = text.reverse := by
    cases reversed : text.reverse with
    | nil => rfl
    | cons c rest =>
        have last : text.getLast? = some c := by
          rw [← List.head?_reverse, reversed, List.head?_cons]
        exact List.dropWhile_cons_of_neg (by simp [ends c last])
  rw [dropEndWhile, kept, List.reverse_reverse]

theorem dropEndWhile_eq_self {p : Char → Bool} {text : List Char} (free : ∀ c ∈ text, p c = false) :
    dropEndWhile p text = text :=
  dropEndWhile_of_getLast? fun c last => free c (List.mem_of_getLast? last)

theorem stripWhile_eq_self {p : Char → Bool} {text : List Char} (free : ∀ c ∈ text, p c = false) :
    stripWhile p text = text := by
  have kept : text.dropWhile p = text := by
    cases text with
    | nil => rfl
    | cons c rest => exact List.dropWhile_cons_of_neg (by simp [free c List.mem_cons_self])
  rw [stripWhile, kept, dropEndWhile_eq_self free]

end Text

end ModuleRoutes
