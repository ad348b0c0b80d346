import Mathlib.Data.List.Infix
import ModuleRoutes.Proofs.Files.Tree

/-!
# Making directories

Directories are made part by part of a path: a part leads to what is there, or a directory is made
where nothing was. So the tree stays sound, no file comes or goes, and the path then leads to a
directory (`ModuleRoutes.Files.Tree.madeAlong_of_foldlM`). A path that never goes up led there
before, or to a place where nothing was.
-/

namespace ModuleRoutes

namespace Files

namespace Tree

variable {tree made other : Tree} {place next current : List String} {part : String}
  {parts : List String} {entry : Entry}

/-! ## Files -/

/-- Two trees with the same files, each with the same content. -/
def SameFiles (tree other : Tree) : Prop :=
  ∀ place content, other.get? place = some (.file content) ↔
    tree.get? place = some (.file content)

theorem SameFiles.refl (tree : Tree) : tree.SameFiles tree := fun _ _ => Iff.rfl

theorem SameFiles.trans {first second third : Tree} (earlier : first.SameFiles second)
    (later : second.SameFiles third) : first.SameFiles third :=
  fun place content => (later place content).trans (earlier place content)

theorem sameFiles_set_directory (below : place ≠ []) (vacant : tree.get? place = none) :
    tree.SameFiles (tree.set place .directory) := by
  intro sought content
  by_cases same : sought = place
  · subst same
    simp [get?_set_self below, vacant]
  · rw [get?_set_of_ne same]

/-! ## Places below others -/

/-- Nothing stands below a place where nothing stands. -/
theorem IsClosed.get?_append_eq_none (closed : tree.IsClosed) (vacant : tree.get? place = none)
    (names : List String) : tree.get? (place ++ names) = none := by
  induction names using List.reverseRecOn with
  | nil => rwa [List.append_nil]
  | append_singleton names name ih =>
      rw [← List.append_assoc]
      cases found : tree.get? (place ++ names ++ [name]) with
      | none => rfl
      | some entry =>
          have above := closed.get?_dropLast found
          rw [List.dropLast_concat, ih] at above
          cases above

/-- A path that never goes up stays below the place where it starts. -/
theorem prefix_of_foldlM_enter (descends : ".." ∉ parts)
    (followed : parts.foldlM tree.enter place = .ok next) : place <+: next := by
  induction parts generalizing place with
  | nil =>
      cases followed
      exact List.prefix_rfl
  | cons part parts ih =>
      rw [List.mem_cons, not_or] at descends
      rw [List.foldlM_cons, Outcome.bind_eq_ok_iff] at followed
      obtain ⟨middle, entered, rest⟩ := followed
      have below := ih descends.2 rest
      obtain ⟨_, ⟨_, rfl⟩ | ⟨up, _⟩ | ⟨_, rfl, _⟩⟩ := enter_eq_ok_iff.mp entered
      · exact below
      · exact absurd up.symm descends.1
      · exact (List.prefix_append place [part]).trans below

/-- A path to a directory goes through directories only. -/
theorem directory_of_foldlM_enter (followed : parts.foldlM tree.enter place = .ok next)
    (here : tree.get? next = some .directory) : tree.get? place = some .directory := by
  cases parts with
  | nil =>
      cases followed
      exact here
  | cons part parts =>
      rw [List.foldlM_cons, Outcome.bind_eq_ok_iff] at followed
      obtain ⟨_, entered, _⟩ := followed
      exact directory_of_enter entered

/-- Empty parts of a path to a directory do not matter. -/
theorem foldlM_enter_of_filter
    (followed : (parts.filter fun part => !part.isEmpty).foldlM tree.enter place = .ok next)
    (here : tree.get? next = some .directory) : parts.foldlM tree.enter place = .ok next := by
  induction parts generalizing place with
  | nil => exact followed
  | cons part parts ih =>
      have start := directory_of_foldlM_enter followed here
      rw [List.foldlM_cons, Outcome.bind_eq_ok_iff]
      by_cases empty : part.isEmpty = true
      · rw [List.filter_cons_of_neg (by simp [empty])] at followed
        have blank : part = "" := by simpa using empty
        exact ⟨place, enter_eq_ok_iff.mpr ⟨start, .inl ⟨.inl blank, rfl⟩⟩, ih followed⟩
      · rw [List.filter_cons_of_pos (by simp [empty]), List.foldlM_cons,
          Outcome.bind_eq_ok_iff] at followed
        obtain ⟨middle, entered, rest⟩ := followed
        exact ⟨middle, entered, ih rest⟩

/-! ## Making directories -/

/-- A step enters what is there, or makes a directory where nothing was. -/
theorem makeStep_cases (present : tree.get? place = some entry)
    (step : makeStep (tree, place) part = .ok (made, next)) :
    made = tree ∧ tree.enter place part = .ok next ∨
      made = tree.set next .directory ∧ next = place ++ [part] ∧
        tree.get? place = some .directory ∧ IsEntryName part ∧ tree.get? next = none := by
  unfold makeStep at step
  cases entered : tree.enter place part with
  | ok target =>
      simp only [entered] at step
      cases step
      exact .inl ⟨rfl, rfl⟩
  | error fault =>
      cases fault with
      | notFound =>
          simp only [entered] at step
          cases step
          obtain ⟨here, isName, absent⟩ := directory_of_enter_notFound present entered
          exact .inr ⟨rfl, rfl, here, isName, absent⟩
      | _ => simp [entered] at step

/-- What making directories along a path gives. -/
structure MadeAlong (tree : Tree) (place parts : List String) (made : Tree)
    (next : List String) : Prop where
  closed : made.IsClosed
  grown : made.Extends tree
  files : tree.SameFiles made
  followed : parts.foldlM made.enter place = .ok next
  descending : ".." ∉ parts →
    parts.foldlM tree.enter place = .ok next ∨ tree.get? next = none

/-- One more part in front of a path, where something is there. -/
theorem MadeAlong.cons_entered {middle : List String}
    (entered : tree.enter place part = .ok middle)
    (along : tree.MadeAlong middle parts made next) :
    tree.MadeAlong place (part :: parts) made next where
  closed := along.closed
  grown := along.grown
  files := along.files
  followed := by
    rw [List.foldlM_cons, Outcome.bind_eq_ok_iff]
    exact ⟨middle, along.grown.enter entered, along.followed⟩
  descending := by
    intro descends
    rw [List.mem_cons, not_or] at descends
    refine (along.descending descends.2).imp_left fun followed => ?_
    rw [List.foldlM_cons, Outcome.bind_eq_ok_iff]
    exact ⟨middle, entered, followed⟩

/-- One more part in front of a path, where a directory is made for it. -/
theorem MadeAlong.cons_made (closed : tree.IsClosed) (here : tree.get? place = some .directory)
    (isName : IsEntryName part) (vacant : tree.get? (place ++ [part]) = none)
    (along : (tree.set (place ++ [part]) .directory).MadeAlong (place ++ [part]) parts made next) :
    tree.MadeAlong place (part :: parts) made next := by
  have below : place ++ [part] ≠ [] := by simp
  have grown : (tree.set (place ++ [part]) .directory).Extends tree := by
    apply extends_set below
    intro old found
    rw [vacant] at found
    cases found
  constructor
  case closed => exact along.closed
  case grown => exact along.grown.trans grown
  case files => exact (sameFiles_set_directory below vacant).trans along.files
  case followed =>
    rw [List.foldlM_cons, Outcome.bind_eq_ok_iff]
    refine ⟨place ++ [part], along.grown.enter (enter_eq_ok_iff.mpr ?_), along.followed⟩
    exact ⟨grown.directory here, .inr (.inr ⟨isName, rfl, _, get?_set_self below⟩)⟩
  case descending =>
    -- Whether it was there or is made, what follows lies below the directory that is new.
    intro descends
    rw [List.mem_cons, not_or] at descends
    obtain ⟨names, rfl⟩ := prefix_of_foldlM_enter descends.2 along.followed
    exact .inr (closed.get?_append_eq_none vacant names)

/-- Making directories part by part keeps a tree closed and its files as they are, and leads to
where the path then leads. -/
theorem madeAlong_of_foldlM (closed : tree.IsClosed)
    (present : ∃ entry, tree.get? place = some entry)
    (steps : parts.foldlM makeStep (tree, place) = .ok (made, next)) :
    tree.MadeAlong place parts made next := by
  induction parts generalizing tree place with
  | nil =>
      cases steps
      exact ⟨closed, Extends.refl _, SameFiles.refl _, rfl, fun _ => .inl rfl⟩
  | cons part parts ih =>
      rw [List.foldlM_cons, Outcome.bind_eq_ok_iff] at steps
      obtain ⟨⟨middleTree, middle⟩, step, rest⟩ := steps
      obtain ⟨entry, found⟩ := present
      rcases makeStep_cases found step with
        ⟨rfl, entered⟩ | ⟨rfl, rfl, here, isName, vacant⟩
      · exact (ih closed (exists_entry_of_enter closed entered) rest).cons_entered entered
      · have below : place ++ [part] ≠ [] := by simp
        have middleClosed : (tree.set (place ++ [part]) .directory).IsClosed :=
          closed.set below (by rwa [List.dropLast_concat]) fun _ => rfl
        exact (ih middleClosed ⟨_, get?_set_self below⟩ rest).cons_made closed here isName vacant

/-- Making the directories of a path comes to a directory. -/
theorem IsSound.exists_madeAlong (sound : tree.IsSound current) {path : String}
    (filled : path ≠ "") (makes : tree.makeDirectories current path = .ok made) :
    path.contains (Char.ofNat 0) = false ∧ ∃ next,
      tree.MadeAlong (startOf current path) (Text.segments '/' path) made next ∧
        made.get? next = some .directory := by
  unfold Tree.makeDirectories at makes
  rw [if_neg (by simpa using filled)] at makes
  split at makes
  · cases makes
  · next plain =>
    obtain ⟨⟨_, next⟩, steps, ends⟩ := Outcome.bind_eq_ok_iff.mp makes
    have along := madeAlong_of_foldlM sound.closed (sound.exists_start path) steps
    dsimp only at ends
    split at ends
    · next here =>
      cases ends
      exact ⟨by simpa using plain, next, along, here⟩
    · cases ends

/-- Making directories keeps a tree sound. -/
theorem IsSound.makeDirectories (sound : tree.IsSound current) {path : String}
    (makes : tree.makeDirectories current path = .ok made) : made.IsSound current := by
  by_cases empty : path = ""
  · subst empty
    cases makes
    exact sound
  · obtain ⟨_, next, along, _⟩ := sound.exists_madeAlong empty makes
    exact ⟨along.closed, along.grown.directory sound.start⟩

end Tree

end Files

end ModuleRoutes
