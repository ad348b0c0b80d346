import ModuleRoutes.Files.Store
import ModuleRoutes.Proofs.Outcome
import ModuleRoutes.Proofs.Text.Separated

/-!
# Trees of files

In a tree whatever stands somewhere stands in a directory. Following a path step by step then never
leads to a place where nothing stands, and leads to the same place in every tree that has more
(`ModuleRoutes.Files.Tree.Extends.foldlM_enter`).
-/

namespace ModuleRoutes

namespace Files

namespace Tree

/-- A tree in which whatever stands somewhere stands in a directory. -/
def IsClosed (tree : Tree) : Prop :=
  ∀ pair ∈ tree.entries, tree.get? pair.1.dropLast = some .directory

/-- A closed tree, with a directory to start from. -/
structure IsSound (tree : Tree) (current : List String) : Prop where
  closed : tree.IsClosed
  start : tree.get? current = some .directory

variable {tree other : Tree} {place current : List String} {part name : String} {entry : Entry}

/-! ## What stands at a place -/

theorem get?_nil : tree.get? [] = some .directory := if_pos rfl

theorem get?_of_ne_nil (below : place ≠ []) : tree.get? place = tree.entries.lookup place :=
  if_neg below

theorem get?_set_self (below : place ≠ []) :
    (tree.set place entry).get? place = some entry := by
  rw [get?_of_ne_nil below, set, List.lookup_cons, beq_self_eq_true]

theorem get?_set_of_ne {sought : List String} (different : sought ≠ place) :
    (tree.set place entry).get? sought = tree.get? sought := by
  by_cases root : sought = []
  · rw [root, get?_nil, get?_nil]
  · rw [get?_of_ne_nil root, get?_of_ne_nil root, set, List.lookup_cons,
      beq_eq_false_iff_ne.mpr different]
    exact Places.lookup_filter_of_ne different

/-- What stands above anything is a directory. -/
theorem IsClosed.get?_dropLast (closed : tree.IsClosed)
    (present : tree.get? place = some entry) :
    tree.get? place.dropLast = some .directory := by
  by_cases root : place = []
  · rw [root]
    exact get?_nil
  · rw [get?_of_ne_nil root, List.lookup_eq_some_iff] at present
    obtain ⟨before, after, split, _⟩ := present
    apply closed (place, entry)
    rw [split]
    exact List.mem_append_right _ List.mem_cons_self

/-- A tree stays closed when something is put into a directory and no directory is replaced. -/
theorem IsClosed.set (closed : tree.IsClosed) (below : place ≠ [])
    (parent : tree.get? place.dropLast = some .directory)
    (kept : tree.get? place = some .directory → entry = .directory) :
    (tree.set place entry).IsClosed := by
  have stays : ∀ above : List String, tree.get? above = some .directory →
      (tree.set place entry).get? above = some .directory := by
    intro above isDirectory
    by_cases same : above = place
    · subst same
      rw [get?_set_self below, kept isDirectory]
    · rw [get?_set_of_ne same, isDirectory]
  intro pair member
  apply stays
  rcases List.mem_cons.mp member with rfl | old
  · exact parent
  · exact closed pair (List.mem_filter.mp old).1

/-- A tree that has what another one has, files for files and directories for directories. -/
def Extends (other tree : Tree) : Prop :=
  ∀ place entry, tree.get? place = some entry →
    ∃ now, other.get? place = some now ∧ isFile now = isFile entry

theorem Extends.directory (extended : other.Extends tree)
    (present : tree.get? place = some .directory) : other.get? place = some .directory := by
  obtain ⟨now, found, kind⟩ := extended place _ present
  cases now with
  | directory => exact found
  | file content => cases kind

/-- A tree has more when something is put where nothing was, or a file where a file was. -/
theorem extends_set (below : place ≠ [])
    (kept : ∀ old, tree.get? place = some old → isFile entry = isFile old) :
    (tree.set place entry).Extends tree := by
  intro sought old present
  by_cases same : sought = place
  · subst same
    exact ⟨entry, get?_set_self below, kept old present⟩
  · exact ⟨old, by rw [get?_set_of_ne same, present], rfl⟩

/-! ## Following a path -/

/-- A part of a path that names what stands in a directory. -/
structure IsEntryName (part : String) : Prop where
  filled : part ≠ ""
  noSelf : part ≠ "."
  noParent : part ≠ ".."
  short : part.utf8ByteSize ≤ nameLimit

/-- From a directory, a name leads to what has that name there. -/
theorem enter_of_isEntryName (isName : IsEntryName part)
    (here : tree.get? place = some .directory) :
    tree.enter place part =
      match tree.get? (place ++ [part]) with
      | some _ => .ok (place ++ [part])
      | none => .error .notFound := by
  have same : ¬(part = "" ∨ part = ".") := fun either => either.elim isName.filled isName.noSelf
  have short := Nat.not_lt.mpr isName.short
  unfold enter
  rw [here]
  exact (if_neg same).trans ((if_neg isName.noParent).trans (if_neg short))

/-- From a directory, a name leads to what has that name there and nowhere else. -/
theorem enter_eq_ok_iff_of_isEntryName (isName : IsEntryName part)
    (here : tree.get? place = some .directory) {next : List String} :
    tree.enter place part = .ok next ↔
      next = place ++ [part] ∧ ∃ entry, tree.get? next = some entry := by
  rw [enter_of_isEntryName isName here]
  cases child : tree.get? (place ++ [part]) with
  | none =>
      refine ⟨nofun, ?_⟩
      rintro ⟨rfl, entry, present⟩
      rw [child] at present
      cases present
  | some entry =>
      rw [Except.ok.injEq]
      constructor
      · rintro rfl
        exact ⟨rfl, entry, child⟩
      · rintro ⟨rfl, _⟩
        rfl

/-- From a directory, a part that is no name leads nowhere else than there or up. -/
theorem enter_eq_ok_iff_of_not_isEntryName (noName : ¬IsEntryName part)
    (here : tree.get? place = some .directory) {next : List String} :
    tree.enter place part = .ok next ↔
      (part = "" ∨ part = ".") ∧ next = place ∨ part = ".." ∧ next = place.dropLast := by
  unfold enter
  simp only [here]
  by_cases same : part = "" ∨ part = "."
  · have noParent : part ≠ ".." := by
      rintro rfl
      exact absurd same (by decide)
    rw [if_pos same, Except.ok.injEq]
    simp only [same, noParent, true_and, false_and, or_false]
    exact eq_comm
  · rw [if_neg same]
    by_cases up : part = ".."
    · rw [if_pos up, Except.ok.injEq, or_iff_right fun stay => same stay.1, and_iff_right up]
      exact eq_comm
    · have long : nameLimit < part.utf8ByteSize := by
        by_contra short
        rw [not_or] at same
        exact noName ⟨same.1, same.2, up, Nat.not_lt.mp short⟩
      rw [if_neg up, if_pos long]
      simp [same, up]

theorem directory_of_enter {next : List String} (entered : tree.enter place part = .ok next) :
    tree.get? place = some .directory := by
  unfold enter at entered
  split at entered
  · next directory => exact directory
  · cases entered
  · cases entered

/-- A step starts from a directory, and stays there, goes up, or goes to what the part names. -/
theorem enter_eq_ok_iff {next : List String} :
    tree.enter place part = .ok next ↔ tree.get? place = some .directory ∧
      ((part = "" ∨ part = ".") ∧ next = place ∨ part = ".." ∧ next = place.dropLast ∨
        IsEntryName part ∧ next = place ++ [part] ∧ ∃ entry, tree.get? next = some entry) := by
  rw [← and_iff_right_of_imp directory_of_enter]
  refine and_congr_right fun here => ?_
  by_cases isName : IsEntryName part
  · have ordinary : ¬((part = "" ∨ part = ".") ∧ next = place) ∧
        ¬(part = ".." ∧ next = place.dropLast) :=
      ⟨fun stay => stay.1.elim isName.filled isName.noSelf, fun up => isName.noParent up.1⟩
    rw [enter_eq_ok_iff_of_isEntryName isName here, or_iff_right ordinary.1,
      or_iff_right ordinary.2, and_iff_right isName]
  · simp only [enter_eq_ok_iff_of_not_isEntryName isName here, isName, false_and, or_false]

/-- A step leads to something that is there. -/
theorem exists_entry_of_enter (closed : tree.IsClosed) {next : List String}
    (entered : tree.enter place part = .ok next) : ∃ entry, tree.get? next = some entry := by
  obtain ⟨here, ⟨_, rfl⟩ | ⟨_, rfl⟩ | ⟨_, _, present⟩⟩ := enter_eq_ok_iff.mp entered
  · exact ⟨_, here⟩
  · exact ⟨_, closed.get?_dropLast here⟩
  · exact present

/-- Where a step finds nothing, there is a directory without what the part names. -/
theorem directory_of_enter_notFound (present : tree.get? place = some entry)
    (missing : tree.enter place part = .error .notFound) :
    tree.get? place = some .directory ∧ IsEntryName part ∧
      tree.get? (place ++ [part]) = none := by
  have here : tree.get? place = some .directory := by
    unfold enter at missing
    cases entry with
    | directory => exact present
    | file content => simp [present] at missing
  have isName : IsEntryName part := by
    unfold enter at missing
    simp only [here] at missing
    split at missing
    · cases missing
    · next same =>
      rw [not_or] at same
      split at missing
      · cases missing
      · next up =>
        split at missing
        · cases missing
        · next short => exact ⟨same.1, same.2, up, Nat.not_lt.mp short⟩
  refine ⟨here, isName, ?_⟩
  rw [enter_of_isEntryName isName here] at missing
  cases child : tree.get? (place ++ [part]) with
  | none => rfl
  | some entry =>
      rw [child] at missing
      cases missing

/-- A step leads to the same place in a tree that has more. -/
theorem Extends.enter (extended : other.Extends tree) {next : List String}
    (entered : tree.enter place part = .ok next) : other.enter place part = .ok next := by
  rw [enter_eq_ok_iff] at entered ⊢
  obtain ⟨here, stay | up | ⟨isName, same, entry, present⟩⟩ := entered
  · exact ⟨extended.directory here, Or.inl stay⟩
  · exact ⟨extended.directory here, Or.inr (Or.inl up)⟩
  · obtain ⟨now, found, _⟩ := extended next entry present
    exact ⟨extended.directory here, Or.inr (Or.inr ⟨isName, same, now, found⟩)⟩

/-- A path leads to the same place in a tree that has more. -/
theorem Extends.foldlM_enter (extended : other.Extends tree) {parts : List String}
    {next : List String} (followed : parts.foldlM tree.enter place = .ok next) :
    parts.foldlM other.enter place = .ok next := by
  induction parts generalizing place with
  | nil => exact followed
  | cons part parts ih =>
      rw [List.foldlM_cons, Outcome.bind_eq_ok_iff] at followed ⊢
      obtain ⟨middle, entered, rest⟩ := followed
      exact ⟨middle, extended.enter entered, ih rest⟩

theorem exists_entry_of_foldlM_enter (closed : tree.IsClosed) {parts next : List String}
    (start : ∃ entry, tree.get? place = some entry)
    (followed : parts.foldlM tree.enter place = .ok next) :
    ∃ entry, tree.get? next = some entry := by
  induction parts generalizing place with
  | nil =>
      cases followed
      exact start
  | cons part parts ih =>
      rw [List.foldlM_cons, Outcome.bind_eq_ok_iff] at followed
      obtain ⟨middle, entered, rest⟩ := followed
      exact ih (exists_entry_of_enter closed entered) rest

theorem follow_eq_ok_iff {path : String} :
    tree.follow current path = .ok place ↔ path.isEmpty = false ∧
      path.contains (Char.ofNat 0) = false ∧
      (Text.pieces '/' path).foldlM tree.enter (startOf current path) = .ok place := by
  unfold follow
  split
  · simp_all
  · split
    · simp_all
    · simp_all

/-- A text is read where a path leads to a file with that text. -/
theorem readText_eq_ok_iff {path text : String} :
    tree.readText current path = .ok text ↔ ∃ place, tree.follow current path = .ok place ∧
      tree.get? place = some (.file (.text text)) := by
  unfold readText find
  simp only [Outcome.bind_eq_ok_iff]
  constructor
  · rintro ⟨entry, ⟨place, followed, here⟩, read⟩
    refine ⟨place, followed, ?_⟩
    cases found : tree.get? place with
    | none => simp [found, throw, throwThe, MonadExceptOf.throw] at here
    | some standing =>
        rw [found] at here
        cases Outcome.pure_eq_ok_iff.mp here
        cases entry with
        | directory => cases read
        | file content =>
            cases content with
            | binary => cases read
            | text value =>
                cases Outcome.pure_eq_ok_iff.mp read
                rfl
  · rintro ⟨place, followed, here⟩
    refine ⟨.file (.text text), ⟨place, followed, ?_⟩, rfl⟩
    rw [here]
    rfl

/-- Paths start from something that is there. -/
theorem IsSound.exists_start (sound : tree.IsSound current) (path : String) :
    ∃ entry, tree.get? (startOf current path) = some entry := by
  unfold startOf
  split
  · exact ⟨_, get?_nil⟩
  · exact ⟨_, sound.start⟩

theorem Extends.refl (tree : Tree) : tree.Extends tree := fun _ entry found => ⟨entry, found, rfl⟩

theorem Extends.trans {first second third : Tree} (later : third.Extends second)
    (earlier : second.Extends first) : third.Extends first := by
  intro place entry found
  obtain ⟨middle, inSecond, kind⟩ := earlier place entry found
  obtain ⟨last, inThird, laterKind⟩ := later place middle inSecond
  exact ⟨last, inThird, laterKind.trans kind⟩

end Tree

end Files

end ModuleRoutes
