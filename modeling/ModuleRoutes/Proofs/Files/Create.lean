import ModuleRoutes.Proofs.Files.Directories
import ModuleRoutes.Proofs.Files.Write

/-!
# Putting a file into a directory

A directory is made, if it is not there, and a text is written to a file of it. Every other file
stays as it is. The file itself is a new one if the path to it led nowhere before, unless the path
of the directory led nowhere either and goes up somewhere: then making its directories may open a
way to a file that was there (`ModuleRoutes.Files.Tree.create_spec`).
-/

namespace ModuleRoutes

namespace Files

namespace Tree

variable {tree made other written : Tree} {place next current : List String}
  {directory name text : String} {parts above : List String} {entry : Entry}

/-- A file holds a text, and the other files are those of another tree and hold what they held. -/
structure PutsFile (tree written : Tree) (place : List String) (text : String) : Prop where
  holds : written.get? place = some (.file (.text text))
  others : ∀ other content, other ≠ place →
    (written.get? other = some (.file content) ↔ tree.get? other = some (.file content))

/-- One file is new. -/
structure AddsFile (tree written : Tree) (place : List String) (text : String) : Prop extends
    PutsFile tree written place text where
  vacant : tree.get? place = none

/-- A path that leads somewhere, or that never goes up. -/
def IsSettled (tree : Tree) (current : List String) (path : String) : Prop :=
  (∃ place, tree.follow current path = .ok place) ∨ ".." ∉ Text.segments '/' path

theorem SameFiles.putsFile_set (same : tree.SameFiles made) (below : place ≠ []) :
    tree.PutsFile (made.set place (.file (.text text))) place text where
  holds := get?_set_self below
  others := by
    intro other content different
    rw [get?_set_of_ne different]
    exact same other content

theorem Extends.directory_of_directory (extended : other.Extends tree)
    (present : tree.get? place = some entry) (here : other.get? place = some .directory) :
    tree.get? place = some .directory := by
  obtain ⟨now, found, kind⟩ := extended place entry present
  rw [here] at found
  obtain rfl := Option.some.inj found
  cases entry with
  | directory => exact present
  | file content => cases kind

/-- An empty part at the end of a path to a directory does not matter. -/
theorem foldlM_enter_iff (ends : parts = above ∨ parts = above ++ [""])
    (here : tree.get? next = some .directory) :
    parts.foldlM tree.enter place = .ok next ↔ above.foldlM tree.enter place = .ok next := by
  rcases ends with rfl | rfl
  · exact Iff.rfl
  · have stays : ∀ middle, tree.enter middle "" = .ok next ↔ middle = next := by
      intro middle
      rw [enter_eq_ok_iff]
      constructor
      · rintro ⟨_, ⟨_, same⟩ | ⟨up, _⟩ | ⟨isName, _⟩⟩
        · exact same.symm
        · exact absurd up (by decide)
        · exact absurd rfl isName.filled
      · rintro rfl
        exact ⟨here, .inl ⟨.inl rfl, rfl⟩⟩
    simp [List.foldlM_append, Outcome.bind_eq_ok_iff, stays]

/-- Where a path leads nowhere though the directory before its last part is there, nothing has the
name of this part. -/
theorem get?_eq_none_of_find (filled : (join directory name).isEmpty = false)
    (plain : (join directory name).contains (Char.ofNat 0) = false)
    (pieces : Text.pieces '/' (join directory name) = above ++ [name])
    (followed : above.foldlM tree.enter (startOf current (join directory name)) = .ok place)
    (here : tree.get? place = some .directory) (isName : IsEntryName name)
    (absent : ∀ entry, tree.find current (join directory name) ≠ .ok entry) :
    tree.get? (place ++ [name]) = none := by
  cases found : tree.get? (place ++ [name]) with
  | none => rfl
  | some entry =>
      have last := enter_eq_ok_iff.mpr ⟨here, .inr (.inr ⟨isName, rfl, entry, found⟩)⟩
      have leads : tree.follow current (join directory name) = .ok (place ++ [name]) := by
        rw [follow_eq_ok_iff, pieces, List.foldlM_append, Outcome.bind_eq_ok_iff]
        exact ⟨filled, plain, place, followed, by simpa using last⟩
      refine absurd ?_ (absent entry)
      rw [find, leads]
      simp [found, bind, Except.bind, pure, Except.pure]

/-- The directory that a settled path comes to was there before, where the path led already, or
nothing was there. -/
theorem IsSettled.before_or_vacant {path : String} (settled : tree.IsSettled current path)
    (sound : tree.IsSound current)
    (along : tree.MadeAlong (startOf current path) (Text.segments '/' path) made next)
    (here : made.get? next = some .directory) :
    (Text.pieces '/' path).foldlM tree.enter (startOf current path) = .ok next ∧
        tree.get? next = some .directory ∨
      tree.get? next = none := by
  have there : ∀ {parts : List String},
      parts.foldlM tree.enter (startOf current path) = .ok next →
        tree.get? next = some .directory := by
    intro parts followed
    obtain ⟨entry, present⟩ :=
      exists_entry_of_foldlM_enter sound.closed (sound.exists_start path) followed
    exact along.grown.directory_of_directory present here
  rcases settled with ⟨place, leads⟩ | descends
  · obtain ⟨_, _, followed⟩ := follow_eq_ok_iff.mp leads
    have reached := foldlM_enter_of_filter along.followed here
    obtain rfl := Except.ok.inj ((along.grown.foldlM_enter followed).symm.trans reached)
    exact .inl ⟨followed, there followed⟩
  · refine (along.descending descends).imp_left fun followed => ?_
    exact ⟨foldlM_enter_of_filter followed (there followed), there followed⟩

/-- **Putting a file into a directory.** Once the directory has been made and a text written to a
file of it, the paths lead to both, and no other file has changed. If the path of the directory is
settled and that of the file led nowhere, the file is new. -/
theorem create_spec (sound : tree.IsSound current) (filled : directory ≠ "")
    (isName : IsFileName name) (makes : tree.makeDirectories current directory = .ok made)
    (writes : made.writeText current (join directory name) text = .ok written) :
    ∃ place, written.follow current directory = .ok place ∧
      written.get? place = some .directory ∧
      written.follow current (join directory name) = .ok (place ++ [name]) ∧
      tree.PutsFile written (place ++ [name]) text ∧
      (tree.IsSettled current directory →
        (∀ entry, tree.find current (join directory name) ≠ .ok entry) →
          tree.AddsFile written (place ++ [name]) text) := by
  obtain ⟨plainDirectory, next, along, madeHere⟩ := sound.exists_madeAlong filled makes
  obtain ⟨above, ends, parts⟩ := exists_pieces_join directory current
  obtain ⟨pieces, start⟩ := parts name isName
  obtain ⟨pathFilled, plain, place, followed, here, isEntry, kept, rfl⟩ :=
    exists_of_writeText (sound.makeDirectories makes) isName pieces writes
  rw [start] at followed
  have lastPart := ends filled
  -- Making the directory and writing the file go to the same place.
  obtain rfl : next = place := by
    have made := foldlM_enter_of_filter along.followed madeHere
    have written := (foldlM_enter_iff lastPart here).mpr followed
    exact Except.ok.inj (made.symm.trans written)
  have below : next ++ [name] ≠ [] := by simp
  have grown : (made.set (next ++ [name]) (.file (.text text))).Extends made :=
    extends_set below fun old found => (kept old found).symm
  have puts :
      tree.PutsFile (made.set (next ++ [name]) (.file (.text text))) (next ++ [name]) text :=
    along.files.putsFile_set below
  have writtenHere := grown.directory here
  have writtenFollowed := grown.foldlM_enter followed
  refine ⟨next, ?_, writtenHere, ?_, puts, fun settled absent => ⟨puts, ?_⟩⟩
  · rw [follow_eq_ok_iff]
    exact ⟨by simpa using filled, plainDirectory,
      (foldlM_enter_iff lastPart writtenHere).mpr writtenFollowed⟩
  · rw [follow_eq_ok_iff, pieces, List.foldlM_append, Outcome.bind_eq_ok_iff, start]
    refine ⟨pathFilled, plain, next, writtenFollowed, ?_⟩
    have last := enter_eq_ok_iff.mpr
      ⟨writtenHere, .inr (.inr ⟨isEntry, rfl, _, puts.holds⟩)⟩
    simpa using last
  · rcases settled.before_or_vacant sound along madeHere with ⟨before, standing⟩ | vacant
    · have through := (foldlM_enter_iff lastPart standing).mp before
      rw [← start] at through
      exact get?_eq_none_of_find pathFilled plain pieces through standing isEntry absent
    · exact sound.closed.get?_append_eq_none vacant [name]

end Tree

end Files

end ModuleRoutes
