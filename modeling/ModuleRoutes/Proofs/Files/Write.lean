import ModuleRoutes.Proofs.Files.Tree

/-!
# Writing into a directory

A text that has been written to a file is read from it, and writing to a file leaves the other
files of its directory as they are (`ModuleRoutes.Files.Tree.writeText_spec`). So after many files
have been written each of them holds what was written to it last
(`ModuleRoutes.Files.Tree.readText_of_writeEach`).
-/

namespace ModuleRoutes

namespace Files

namespace Tree

variable {tree : Tree} {current : List String} {name : String}

/-- A name that a path may end in without leading anywhere but into the directory before it. -/
structure IsFileName (name : String) : Prop where
  noSlash : '/' ∉ name.toList
  filled : name ≠ ""
  noSelf : name ≠ "."
  noParent : name ≠ ".."

theorem isFileName_append {stem ending : String} (stemFree : '/' ∉ stem.toList)
    (endingFree : '/' ∉ ending.toList) (long : 3 ≤ ending.length) :
    IsFileName (stem ++ ending) := by
  have other : ∀ text : String, text.length < 3 → stem ++ ending ≠ text := by
    rintro _ short rfl
    rw [String.length_append] at short
    omega
  constructor
  · rw [String.toList_append, List.mem_append, not_or]
    exact ⟨stemFree, endingFree⟩
  · exact other "" (by decide)
  · exact other "." (by decide)
  · exact other ".." (by decide)

theorem not_isAbsolute_of_isFileName (isName : IsFileName name) : isAbsolute name = false := by
  rw [isAbsolute, decide_eq_false_iff_not]
  intro slash
  exact isName.noSlash (List.mem_of_head? slash)

theorem pieces_fileName (isName : IsFileName name) : Text.pieces '/' name = [name] := by
  rw [Text.pieces, Text.splitOn_of_not_mem isName.noSlash, List.map_singleton, String.ofList_toList]

/-- Behind a separator the name of a file is a part of its own, whatever is before. -/
theorem pieces_append_fileName (isName : IsFileName name) {path : String} {start : List Char}
    (shape : path.toList = start ++ '/' :: name.toList) :
    Text.pieces '/' path = (Text.splitOn '/' start).map String.ofList ++ [name] := by
  have single := pieces_fileName isName
  rw [Text.pieces] at single ⊢
  rw [shape, Text.splitOn_append_cons, List.map_append, single]

/-- A path starts where its first character says, whatever is put behind it. -/
theorem startOf_append {directory : String} (nonempty : directory.toList ≠ [])
    (current : List String) (rest : String) :
    startOf current (directory ++ rest) = startOf current directory := by
  have first : (directory ++ rest).toList.head? = directory.toList.head? := by
    rw [String.toList_append, List.head?_append_of_ne_nil _ nonempty]
  rw [startOf, startOf, isAbsolute, isAbsolute, first]

/-- The path of a file of a directory has the same parts for every file, but for the name. Those
before it are the parts of the directory, without an empty one at the end. -/
theorem exists_pieces_join (directory : String) (current : List String) :
    ∃ above, (directory ≠ "" → Text.pieces '/' directory = above ∨
        Text.pieces '/' directory = above ++ [""]) ∧
      ∀ name, IsFileName name →
        Text.pieces '/' (join directory name) = above ++ [name] ∧
          startOf current (join directory name) = startOf current directory := by
  by_cases here : directory.isEmpty = true
  · obtain rfl : directory = "" := by simpa using here
    refine ⟨[], fun filled => absurd rfl filled, fun name isName => ?_⟩
    have joined : join "" name = name := by rw [join, if_pos (Or.inr here)]
    rw [joined, startOf, not_isAbsolute_of_isFileName isName]
    exact ⟨pieces_fileName isName, rfl⟩
  · have nonempty : directory.toList ≠ [] := by simpa using here
    by_cases slashed : directory.toList.getLast? = some '/'
    · have ending : directory.toList = directory.toList.dropLast ++ ['/'] :=
        (List.dropLast_append_getLast? '/' slashed).symm
      refine ⟨(Text.splitOn '/' directory.toList.dropLast).map String.ofList, fun _ => .inr ?_,
        fun name isName => ?_⟩
      · conv_lhs => rw [Text.pieces, ending, Text.splitOn_append_cons, List.map_append]
        rfl
      have joined : join directory name = directory ++ name := by
        rw [join, if_neg (by simp [not_isAbsolute_of_isFileName isName, here]), if_pos slashed]
      rw [joined]
      refine ⟨pieces_append_fileName isName ?_, startOf_append nonempty current name⟩
      conv_lhs => rw [String.toList_append, ending, List.append_assoc, List.singleton_append]
    · refine ⟨(Text.splitOn '/' directory.toList).map String.ofList, fun _ => .inl rfl,
        fun name isName => ?_⟩
      have joined : join directory name = directory ++ ("/" ++ name) := by
        rw [join, if_neg (by simp [not_isAbsolute_of_isFileName isName, here]), if_neg slashed,
          String.append_assoc]
      rw [joined]
      refine ⟨pieces_append_fileName isName ?_, startOf_append nonempty current _⟩
      rw [String.toList_append, String.toList_append]
      rfl

theorem join_ne_empty {directory : String} (filled : directory ≠ "") (path : String) :
    join directory path ≠ "" := by
  intro empty
  have noCharacters : (join directory path).toList = [] := by rw [empty]; rfl
  have some : directory.toList ≠ [] := by simpa using filled
  unfold join at noCharacters
  split at noCharacters
  · next taken =>
    rcases taken with slash | none
    · simp [isAbsolute, noCharacters] at slash
    · exact filled (by simpa using none)
  · split at noCharacters <;> simp [some] at noCharacters

/-- The name of a file of a directory is the last part of its path. -/
theorem fileName?_join (directory : String) (isName : IsFileName name) :
    fileName? (join directory name) = some name := by
  obtain ⟨above, -, parts⟩ := exists_pieces_join directory []
  have filled : (!name.isEmpty) = true := by simpa using isName.filled
  have last : ((Text.segments '/' (join directory name)).filter (· ≠ ".")).getLast? =
      some name := by
    rw [Text.segments, (parts name isName).1, List.filter_append, List.filter_append,
      List.filter_singleton, filled]
    simp [isName.noSelf]
  rw [fileName?, last]
  split
  · next same => exact absurd (Option.some.inj same) isName.noParent
  · rfl

/-- Different names give different files of a directory. -/
theorem join_inj {directory first second : String} (isFirst : IsFileName first)
    (isSecond : IsFileName second) (same : join directory first = join directory second) :
    first = second := by
  obtain ⟨above, -, pieces⟩ := exists_pieces_join directory []
  have parts := (pieces first isFirst).1
  rw [same, (pieces second isSecond).1, List.append_cancel_left_eq] at parts
  exact (List.singleton_inj.mp parts).symm

variable {path text : String} {above : List String} {written : Tree}

/-- The name of a file leads nowhere but to what has that name in a directory. -/
theorem enter_fileName_iff (isName : IsFileName name) {place target : List String} :
    tree.enter place name = .ok target ↔ tree.get? place = some .directory ∧
      IsEntryName name ∧ target = place ++ [name] ∧
        ∃ entry, tree.get? target = some entry := by
  have noStay : ¬((name = "" ∨ name = ".") ∧ target = place) :=
    fun stay => stay.1.elim isName.filled isName.noSelf
  have noParent : ¬(name = ".." ∧ target = place.dropLast) := fun up => isName.noParent up.1
  rw [enter_eq_ok_iff, or_iff_right noStay, or_iff_right noParent]

/-- A file of a directory is read where the path of the directory leads. -/
theorem readText_file_iff (isName : IsFileName name)
    (pieces : Text.pieces '/' path = above ++ [name]) :
    tree.readText current path = .ok text ↔ path.isEmpty = false ∧
      path.contains (Char.ofNat 0) = false ∧ ∃ place,
        above.foldlM tree.enter (startOf current path) = .ok place ∧
        tree.get? place = some .directory ∧ IsEntryName name ∧
        tree.get? (place ++ [name]) = some (.file (.text text)) := by
  simp only [readText_eq_ok_iff, follow_eq_ok_iff, pieces, List.foldlM_append,
    Outcome.bind_eq_ok_iff]
  constructor
  · rintro ⟨target, ⟨filled, plain, place, followed, last⟩, found⟩
    rw [List.foldlM_cons, Outcome.bind_eq_ok_iff] at last
    obtain ⟨_, entered, ⟨⟩⟩ := last
    obtain ⟨here, isEntry, rfl, _⟩ := (enter_fileName_iff isName).mp entered
    exact ⟨filled, plain, place, followed, here, isEntry, found⟩
  · rintro ⟨filled, plain, place, followed, here, isEntry, found⟩
    refine ⟨place ++ [name], ⟨filled, plain, place, followed, ?_⟩, found⟩
    rw [List.foldlM_cons, Outcome.bind_eq_ok_iff]
    exact ⟨_, (enter_fileName_iff isName).mpr ⟨here, isEntry, rfl, _, found⟩, rfl⟩

/-- Nothing is written under an empty path or under one with a zero character. -/
theorem path_of_writeText (write : tree.writeText current path text = .ok written) :
    path.isEmpty = false ∧ path.contains (Char.ofNat 0) = false := by
  have plain : path.contains (Char.ofNat 0) = false := by
    by_contra nul
    unfold writeText at write
    simp [Bool.not_eq_false _ ▸ nul, throw, throwThe, MonadExceptOf.throw, bind, Except.bind]
      at write
  refine ⟨?_, plain⟩
  by_contra empty
  obtain ⟨name, above, reversed⟩ : ∃ name above, (Text.pieces '/' path).reverse = name :: above :=
    List.exists_cons_of_ne_nil (by simpa [Text.pieces] using Text.splitOn_ne_nil '/' path.toList)
  unfold writeText at write
  simp [plain, Bool.not_eq_false _ ▸ empty, reversed, throw, throwThe, MonadExceptOf.throw, bind,
    Except.bind] at write

/-- Writing puts the text where the name leads, or under the name where nothing has it. -/
theorem writeText_eq (filled : path.isEmpty = false) (plain : path.contains (Char.ofNat 0) = false)
    (pieces : Text.pieces '/' path = above ++ [name]) :
    tree.writeText current path text =
      above.foldlM tree.enter (startOf current path) >>= fun place =>
        match tree.enter place name with
        | .ok target =>
          match tree.get? target with
          | some (.file _) => .ok (tree.set target (.file (.text text)))
          | _ => .error .isDirectory
        | .error .notFound => .ok (tree.set (place ++ [name]) (.file (.text text)))
        | .error fault => .error fault := by
  have reversed : (Text.pieces '/' path).reverse = name :: above.reverse := by
    rw [pieces, List.reverse_append]
    rfl
  unfold writeText
  simp only [filled, plain, reversed, List.reverse_reverse]
  rfl

/-- What writing to a file of a directory takes and does. -/
theorem exists_of_writeText (sound : tree.IsSound current) (isName : IsFileName name)
    (pieces : Text.pieces '/' path = above ++ [name])
    (write : tree.writeText current path text = .ok written) :
    path.isEmpty = false ∧ path.contains (Char.ofNat 0) = false ∧ ∃ place,
      above.foldlM tree.enter (startOf current path) = .ok place ∧
      tree.get? place = some .directory ∧ IsEntryName name ∧
      (∀ old, tree.get? (place ++ [name]) = some old → isFile old = true) ∧
      written = tree.set (place ++ [name]) (.file (.text text)) := by
  obtain ⟨filled, plain⟩ := path_of_writeText write
  rw [writeText_eq filled plain pieces, Outcome.bind_eq_ok_iff] at write
  obtain ⟨place, followed, step⟩ := write
  obtain ⟨standing, present⟩ :=
    exists_entry_of_foldlM_enter sound.closed (sound.exists_start path) followed
  refine ⟨filled, plain, place, followed, ?_⟩
  cases entered : tree.enter place name with
  | ok target =>
      simp only [entered] at step
      obtain ⟨here, isEntry, rfl, entry, found⟩ := (enter_fileName_iff isName).mp entered
      cases entry with
      | directory => simp [found] at step
      | file content =>
          simp only [found, Except.ok.injEq] at step
          refine ⟨here, isEntry, ?_, step.symm⟩
          intro old present
          obtain rfl := Option.some.inj (found.symm.trans present)
          rfl
  | error fault =>
      cases fault with
      | notFound =>
          obtain ⟨here, isEntry, absent⟩ := directory_of_enter_notFound present entered
          simp only [entered, Except.ok.injEq] at step
          refine ⟨here, isEntry, ?_, step.symm⟩
          intro old found
          rw [absent] at found
          cases found
      | _ => simp [entered] at step

/-- **Writing a file.** After a text has been written to a file of a directory the tree is as
sound as before, the file holds the text, and the other files of the directory hold what they
held. -/
theorem writeText_spec (sound : tree.IsSound current) {directory : String}
    (isName : IsFileName name)
    (write : tree.writeText current (join directory name) text = .ok written) :
    written.IsSound current ∧ written.readText current (join directory name) = .ok text ∧
      ∀ otherName otherText, IsFileName otherName → otherName ≠ name →
        tree.readText current (join directory otherName) = .ok otherText →
          written.readText current (join directory otherName) = .ok otherText := by
  obtain ⟨above, -, parts⟩ := exists_pieces_join directory current
  obtain ⟨pieces, start⟩ := parts name isName
  obtain ⟨filled, plain, place, followed, here, isEntry, kept, rfl⟩ :=
    exists_of_writeText sound isName pieces write
  have below : place ++ [name] ≠ [] := by simp
  have extended : (tree.set (place ++ [name]) (.file (.text text))).Extends tree :=
    extends_set below fun old found => (kept old found).symm
  have closed : (tree.set (place ++ [name]) (.file (.text text))).IsClosed := by
    apply sound.closed.set below
    · rw [List.dropLast_concat, here]
    · intro isDirectory
      cases kept _ isDirectory
  refine ⟨⟨closed, extended.directory sound.start⟩, ?_, ?_⟩
  · exact (readText_file_iff isName pieces).mpr ⟨filled, plain, place,
      extended.foldlM_enter followed, extended.directory here, isEntry, get?_set_self below⟩
  · intro otherName otherText isOther different read
    obtain ⟨otherPieces, otherStart⟩ := parts otherName isOther
    obtain ⟨otherFilled, otherPlain, otherPlace, otherFollowed, otherHere, otherEntry, found⟩ :=
      (readText_file_iff isOther otherPieces).mp read
    -- Both paths go through the directory, so to the same place.
    have samePlace : otherPlace = place := by
      rw [otherStart, ← start, followed] at otherFollowed
      exact (Except.ok.inj otherFollowed).symm
    have apart : otherPlace ++ [otherName] ≠ place ++ [name] := by
      intro same
      rw [samePlace, List.append_cancel_left_eq] at same
      exact different (List.singleton_inj.mp same)
    refine (readText_file_iff isOther otherPieces).mpr ⟨otherFilled, otherPlain, otherPlace,
      extended.foldlM_enter otherFollowed, extended.directory otherHere, otherEntry, ?_⟩
    rw [get?_set_of_ne apart, found]

/-- The tree after some files of a directory have been written one after the other. -/
def writeEach (current : List String) (directory : String) (tree : Tree)
    (files : List (String × String)) : Except FileFault Tree :=
  files.foldlM (fun tree file => tree.writeText current (join directory file.1) file.2) tree

/-- What a file holds stays while only others are written. -/
theorem readText_of_writeEach_of_ne (sound : tree.IsSound current) {directory : String}
    {files : List (String × String)} (areNames : ∀ file ∈ files, IsFileName file.1)
    (write : writeEach current directory tree files = .ok written) (isName : IsFileName name)
    (others : ∀ file ∈ files, file.1 ≠ name)
    (read : tree.readText current (join directory name) = .ok text) :
    written.readText current (join directory name) = .ok text := by
  induction files generalizing tree with
  | nil =>
      cases write
      exact read
  | cons file files ih =>
      rw [writeEach, List.foldlM_cons, Outcome.bind_eq_ok_iff] at write
      obtain ⟨next, step, rest⟩ := write
      obtain ⟨nextSound, _, frame⟩ :=
        writeText_spec sound (areNames file List.mem_cons_self) step
      apply ih nextSound (fun other member => areNames other (List.mem_cons_of_mem _ member)) rest
        (fun other member => others other (List.mem_cons_of_mem _ member))
      exact frame name text isName (others file List.mem_cons_self).symm read

/-- **Last write.** After some files of a directory have been written, each holds what was written
to it last. -/
theorem readText_of_writeEach (sound : tree.IsSound current) {directory : String}
    {before after : List (String × String)}
    (areNames : ∀ file ∈ before ++ (name, text) :: after, IsFileName file.1)
    (write : writeEach current directory tree (before ++ (name, text) :: after) = .ok written)
    (last : ∀ file ∈ after, file.1 ≠ name) :
    written.readText current (join directory name) = .ok text := by
  induction before generalizing tree with
  | nil =>
      rw [List.nil_append] at areNames write
      rw [writeEach, List.foldlM_cons, Outcome.bind_eq_ok_iff] at write
      obtain ⟨next, step, rest⟩ := write
      have isName := areNames _ List.mem_cons_self
      obtain ⟨nextSound, holds, _⟩ := writeText_spec sound isName step
      exact readText_of_writeEach_of_ne nextSound
        (fun other member => areNames other (List.mem_cons_of_mem _ member)) rest isName last holds
  | cons file before ih =>
      rw [List.cons_append] at areNames write
      rw [writeEach, List.foldlM_cons, Outcome.bind_eq_ok_iff] at write
      obtain ⟨next, step, rest⟩ := write
      obtain ⟨nextSound, _, _⟩ := writeText_spec sound (areNames file List.mem_cons_self) step
      exact ih nextSound (fun other member => areNames other (List.mem_cons_of_mem _ member)) rest

end Tree

end Files

end ModuleRoutes
