import ModuleRoutes.Proofs.Compiler.Layout
import ModuleRoutes.Proofs.Http.Grouping

/-!
# Modules on their mounts

A module on its mount adds its routes below the mount, path by path, and modules on their mounts add
theirs one after the other, up to the first mount that is taken
(`ModuleRoutes.Http.Router.mountAll_eq`). Two modules can serve one path only if one of them is
mounted below the other (`ModuleRoutes.EmittedModule.IsMountable.eq_or_isBelow_of_mem`).
-/

namespace ModuleRoutes

/-- A mount below another one: it continues the other one after a slash. -/
def IsBelow (mount other : String) : Prop := other.toList ++ ['/'] <+: mount.toList

instance (mount other : String) : Decidable (IsBelow mount other) :=
  inferInstanceAs (Decidable (_ <+: _))

/-- Where paths that start with a slash meet below two mounts, the mounts are the same or one is
below the other. -/
theorem eq_or_isBelow_of_append_eq {mount other path rest : String} {chars restChars : List Char}
    (rooted : path.toList = '/' :: chars) (restRooted : rest.toList = '/' :: restChars)
    (same : mount ++ path = other ++ rest) :
    mount = other ∨ IsBelow mount other ∨ IsBelow other mount := by
  -- What the longer of two mounts has beyond the shorter one starts with the slash.
  have below : ∀ {shorter longer : String} {beyond tail text : List Char},
      longer.toList = shorter.toList ++ beyond → '/' :: tail = beyond ++ text →
        longer = shorter ∨ IsBelow longer shorter := by
    intro shorter longer beyond tail text continued start
    cases beyond with
    | nil => exact .inl (String.toList_injective (continued.trans (List.append_nil _)))
    | cons c beyond =>
      obtain rfl : '/' = c := (List.cons.inj start).1
      exact .inr ⟨beyond, by rw [continued, List.append_assoc, List.singleton_append]⟩
  have chars := congrArg String.toList same
  rw [String.toList_append, String.toList_append, rooted, restRooted] at chars
  rcases List.append_eq_append_iff.mp chars with ⟨beyond, longer, start⟩ | ⟨beyond, longer, start⟩
  · exact (below longer start).imp Eq.symm .inr
  · exact (below longer start).imp_right .inl

/-- A path below the root whose segments are tokens. -/
def IsMountPath (mount : String) : Prop :=
  ∃ tokens : List String, mount = "/" ++ Text.joined "/" tokens ∧ tokens ≠ [] ∧
    ∀ token ∈ tokens, Name.IsToken token

namespace IsMountPath

open Http

variable {mount path : String}

theorem isRooted (mounted : IsMountPath mount) : IsRooted mount := by
  obtain ⟨tokens, rfl, nonempty, areTokens⟩ := mounted
  exact Definition.isRooted_of_tokens nonempty areTokens

theorem isModulePath (mounted : IsMountPath mount) : IsModulePath mount := by
  obtain ⟨tokens, same, nonempty, areTokens⟩ := mounted
  have noItem : tokens.count ":id" = 0 :=
    List.count_eq_zero.mpr fun item => Section.ne_item_of_isToken (areTokens _ item) rfl
  exact ⟨tokens, same, nonempty, fun token member _ => areTokens token member,
    noItem.trans_le (Nat.zero_le _)⟩

theorem item_not_mem_segments (mounted : IsMountPath mount) : ":id" ∉ Text.segments '/' mount := by
  obtain ⟨tokens, rfl, nonempty, areTokens⟩ := mounted
  rw [segments_of_tokens nonempty fun token member _ => areTokens token member]
  exact fun item => Section.ne_item_of_isToken (areTokens _ item) rfl

theorem isModulePath_append (mounted : IsMountPath mount) (modulePath : IsModulePath path) :
    IsModulePath (mount ++ path) := by
  obtain ⟨tokens, rfl, nonempty, areTokens⟩ := mounted
  obtain ⟨parts, rfl, occupied, plain, single⟩ := modulePath
  refine ⟨tokens ++ parts, Text.path_append nonempty occupied,
    List.append_ne_nil_of_left_ne_nil nonempty parts, ?_, ?_⟩
  · intro segment member other
    rcases List.mem_append.mp member with inMount | inPath
    · exact areTokens segment inMount
    · exact plain segment inPath other
  · have noItem : tokens.count ":id" = 0 :=
      List.count_eq_zero.mpr fun item => Section.ne_item_of_isToken (areTokens _ item) rfl
    rwa [List.count_append, noItem, Nat.zero_add]

/-- A mount names no item, so nothing of it is put in braces. -/
theorem flatMap_bracedSegment {tokens : List String}
    (areTokens : ∀ token ∈ tokens, Name.IsToken token) :
    (tokens.flatMap fun token => '/' :: bracedSegment token.toList) =
      tokens.flatMap fun token => '/' :: token.toList :=
  List.flatMap_congr fun token member => by rw [bracedSegment_of_isToken (areTokens token member)]

theorem bracedPath_append (mounted : IsMountPath mount) (modulePath : IsModulePath path) :
    bracedPath (mount ++ path) = mount ++ bracedPath path := by
  obtain ⟨tokens, rfl, nonempty, areTokens⟩ := mounted
  obtain ⟨parts, rfl, occupied, plain, single⟩ := modulePath
  have free : ∀ part ∈ parts, '/' ∉ part.toList :=
    fun part member => slash_not_mem_segment (plain part member)
  have allFree : ∀ part ∈ tokens ++ parts, '/' ∉ part.toList :=
    List.forall_mem_append.mpr ⟨fun token member => (areTokens token member).slash_not_mem, free⟩
  apply String.toList_injective
  rw [Text.path_append nonempty occupied, String.toList_append, Text.toList_path nonempty,
    toList_bracedPath occupied free,
    toList_bracedPath (List.append_ne_nil_of_left_ne_nil nonempty parts) allFree,
    List.flatMap_append, flatMap_bracedSegment areTokens]

theorem bracedPath_self (mounted : IsMountPath mount) : bracedPath mount = mount := by
  obtain ⟨tokens, rfl, nonempty, areTokens⟩ := mounted
  apply String.toList_injective
  rw [toList_bracedPath nonempty fun token member => (areTokens token member).slash_not_mem,
    flatMap_bracedSegment areTokens, Text.toList_path nonempty]

theorem mountAllowed_eq_true (mounted : IsMountPath mount) : mountAllowed mount = true := by
  have braced := mounted.bracedPath_self
  have rooted := mounted.isRooted
  obtain ⟨tokens, rfl, nonempty, areTokens⟩ := mounted
  have free : ∀ token ∈ tokens, '/' ∉ token.toList :=
    fun token member => (areTokens token member).slash_not_mem
  have allowed := pathAllowed_bracedPath nonempty fun token member _ => areTokens token member
  rw [braced] at allowed
  have noRoot : "/" ++ Text.joined "/" tokens ≠ "/" := by
    intro root
    rw [root] at rooted
    exact rooted.2 rfl
  have noRemainder : ∀ token ∈ tokens, isRemainder token.toList = false := by
    intro token member
    unfold isRemainder
    cases letters : token.toList with
    | nil => rfl
    | cons c rest =>
      have noBrace : '\x7b' ≠ c := by
        rintro rfl
        exact absurd ((areTokens token member).mem_toList (letters ▸ List.mem_cons_self))
          (by decide)
      rw [Text.afterStart?, if_neg noBrace]
      rfl
  rw [mountAllowed, allowed, splitOn_path nonempty free, List.all_cons, List.all_map]
  simp only [ne_eq, noRoot, not_false_eq_true, decide_true, Bool.and_self, Bool.true_and]
  rw [Bool.and_eq_true, List.all_eq_true]
  exact ⟨by decide, fun token member => by simp [noRemainder token member]⟩

/-- A route of a module is served below the mount. -/
theorem pathBelow_eq (mounted : IsMountPath mount) (modulePath : IsModulePath path) :
    pathBelow mount (bracedPath path) = mount ++ bracedPath path := by
  have noRoot : bracedPath path ≠ "/" := by
    obtain ⟨chars, text, occupied⟩ := exists_toList_bracedPath modulePath
    intro root
    rw [root] at text
    exact occupied (List.cons.inj text).2.symm
  rw [pathBelow, if_neg mounted.isRooted.2, if_neg noRoot]

end IsMountPath

namespace EmittedModule

open Http

/-- The entries of a module below its mount, one for each of its routes. -/
def entries (emitted : EmittedModule) : List Entry :=
  emitted.routes.map fun route =>
    ⟨emitted.mount ++ bracedPath route.path, route.method, .handler route.handler⟩

/-- The entries of a module below its mount in the order in which its router has them. -/
def entriesByPath (emitted : EmittedModule) : List Entry := byPath emitted.entries

/-- The routes of some modules are all there, path by path. -/
theorem flatMap_entriesByPath_perm (modules : List EmittedModule) :
    (modules.flatMap entriesByPath).Perm (modules.flatMap entries) :=
  List.Perm.flatMap_left modules fun emitted _ => byPath_perm emitted.entries

/-- A module that can be mounted by itself: its mount and its paths have tokens for segments, and no
two of its routes are on one method and path. -/
structure IsMountable (emitted : EmittedModule) : Prop where
  mount : IsMountPath emitted.mount
  paths : ∀ route ∈ emitted.routes, IsModulePath route.path
  distinct : (emitted.routes.map fun route => (route.path, route.method)).Nodup

variable {emitted : EmittedModule}

theorem IsMountable.isStored (mountable : emitted.IsMountable) :
    ∀ entry ∈ emitted.entries, entry.IsStored := by
  intro entry member
  obtain ⟨route, inRoutes, rfl⟩ := List.mem_map.mp member
  have modulePath := mountable.paths route inRoutes
  rw [Entry.IsStored, ← mountable.mount.bracedPath_append modulePath]
  exact exists_isStored_bracedPath (mountable.mount.isModulePath_append modulePath)

/-- Routes of a module stay apart when parameters are put in braces. -/
theorem IsMountable.nodup_bracedPlaces (mountable : emitted.IsMountable) :
    (emitted.routes.map fun route => (bracedPath route.path, route.method)).Nodup := by
  refine List.pairwise_map.mpr ((List.pairwise_map.mp mountable.distinct).imp_of_mem ?_)
  intro first second firstMember secondMember different same
  have paths := bracedPath_inj (mountable.paths first firstMember).brace_not_mem
    (mountable.paths second secondMember).brace_not_mem (congrArg Prod.fst same)
  have methods : first.method = second.method := congrArg Prod.snd same
  exact different (Prod.ext paths methods)

theorem IsMountable.nodup_places (mountable : emitted.IsMountable) :
    (emitted.entries.map Entry.place).Nodup := by
  rw [entries, List.map_map]
  refine List.pairwise_map.mpr ((List.pairwise_map.mp mountable.nodup_bracedPlaces).imp ?_)
  intro first second different same
  have paths : emitted.mount ++ bracedPath first.path =
      emitted.mount ++ bracedPath second.path := congrArg Prod.fst same
  have methods : first.method = second.method := congrArg Prod.snd same
  exact different (Prod.ext ((String.append_right_inj _).mp paths) methods)

/-- Two modules serve one path only if they share a mount or one is mounted below the other. -/
theorem IsMountable.eq_or_isBelow_of_mem {other : EmittedModule} {entry otherEntry : Entry}
    (mountable : emitted.IsMountable) (otherMountable : other.IsMountable)
    (member : entry ∈ emitted.entries) (otherMember : otherEntry ∈ other.entries)
    (same : entry.path = otherEntry.path) :
    emitted.mount = other.mount ∨ IsBelow emitted.mount other.mount ∨
      IsBelow other.mount emitted.mount := by
  obtain ⟨route, inRoutes, rfl⟩ := List.mem_map.mp member
  obtain ⟨otherRoute, inOtherRoutes, rfl⟩ := List.mem_map.mp otherMember
  obtain ⟨_, rooted, -⟩ := exists_toList_bracedPath (mountable.paths route inRoutes)
  obtain ⟨_, otherRooted, -⟩ :=
    exists_toList_bracedPath (otherMountable.paths otherRoute inOtherRoutes)
  exact eq_or_isBelow_of_append_eq rooted otherRooted same

/-- The modules before the first one whose mount is taken, where some mounts are taken before. -/
def beforeRepeat (taken : List String) : List EmittedModule → List EmittedModule
  | [] => []
  | emitted :: rest =>
    if emitted.mount ∈ taken then [] else emitted :: beforeRepeat (emitted.mount :: taken) rest

/-- The first mount that is taken, where some mounts are taken before. -/
def firstRepeat? (taken : List String) : List EmittedModule → Option String
  | [] => none
  | emitted :: rest =>
    if emitted.mount ∈ taken then some emitted.mount
    else firstRepeat? (emitted.mount :: taken) rest

variable {modules : List EmittedModule}

theorem beforeRepeat_prefix (taken : List String) (modules : List EmittedModule) :
    beforeRepeat taken modules <+: modules := by
  induction modules generalizing taken with
  | nil => exact List.prefix_rfl
  | cons emitted rest ih =>
    rw [beforeRepeat]
    split
    · exact List.nil_prefix
    · exact (List.prefix_cons_inj emitted).mpr (ih _)

/-- The modules before the first mount that is taken are on different mounts. -/
theorem nodup_mounts_beforeRepeat (taken : List String) (modules : List EmittedModule) :
    ((beforeRepeat taken modules).map mount).Nodup ∧
      ∀ emitted ∈ beforeRepeat taken modules, emitted.mount ∉ taken := by
  induction modules generalizing taken with
  | nil => exact ⟨List.nodup_nil, nofun⟩
  | cons emitted rest ih =>
    rw [beforeRepeat]
    split
    case isTrue => exact ⟨List.nodup_nil, nofun⟩
    case isFalse fresh =>
      obtain ⟨apart, free⟩ := ih (emitted.mount :: taken)
      rw [List.map_cons, List.nodup_cons]
      refine ⟨⟨?_, apart⟩, List.forall_mem_cons.mpr ⟨fresh, ?_⟩⟩
      · intro later
        obtain ⟨other, member, same⟩ := List.mem_map.mp later
        exact free other member (same ▸ List.mem_cons_self)
      · exact fun other member inTaken => free other member (List.mem_cons_of_mem _ inTaken)

/-- Where no mount is taken, all modules come before the first one that is. -/
theorem beforeRepeat_of_firstRepeat?_eq_none {taken : List String}
    (none : firstRepeat? taken modules = none) : beforeRepeat taken modules = modules := by
  induction modules generalizing taken with
  | nil => rfl
  | cons emitted rest ih =>
    rw [firstRepeat?] at none
    split at none
    case isTrue => cases none
    case isFalse fresh => rw [beforeRepeat, if_neg fresh, ih none]

/-- The first mount that is taken was taken before or is shared by two modules. -/
theorem duplicate_of_firstRepeat? {taken : List String} {mount : String}
    (found : firstRepeat? taken modules = some mount) :
    (mount ∈ taken ∧ mount ∈ modules.map EmittedModule.mount) ∨
      List.Duplicate mount (modules.map EmittedModule.mount) := by
  induction modules generalizing taken with
  | nil => cases found
  | cons emitted rest ih =>
    rw [firstRepeat?] at found
    split at found
    case isTrue repeated =>
      cases found
      exact .inl ⟨repeated, List.mem_cons_self⟩
    case isFalse =>
      rcases ih found with ⟨inTaken, later⟩ | duplicate
      · rcases List.mem_cons.mp inTaken with rfl | before
        · exact .inr (List.Mem.duplicate_cons_self later)
        · exact .inl ⟨before, List.mem_cons_of_mem _ later⟩
      · exact .inr (duplicate.duplicate_cons _)

/-- Of modules on different mounts none is on a mount that is taken. -/
theorem firstRepeat?_of_nodup_mounts (different : (modules.map mount).Nodup) :
    firstRepeat? [] modules = none := by
  refine Option.eq_none_iff_forall_not_mem.mpr fun mount found => ?_
  have duplicate := (duplicate_of_firstRepeat? found).resolve_left fun taken => nomatch taken.1
  exact duplicate.not_nodup different

/-- Modules on different mounts all come before the first mount that is taken. -/
theorem beforeRepeat_of_nodup_mounts (different : (modules.map mount).Nodup) :
    beforeRepeat [] modules = modules :=
  beforeRepeat_of_firstRepeat?_eq_none (firstRepeat?_of_nodup_mounts different)

end EmittedModule

namespace Http

namespace Router

variable {emitted : EmittedModule} {modules : List EmittedModule}

/-- A module by itself is never refused, as no two of its routes meet. -/
theorem exists_ofModule_eq_ok (mountable : emitted.IsMountable) :
    ∃ inner, ofModule emitted = .ok inner ∧ inner.entries = byPath (ownEntries emitted) := by
  have stored : ∀ entry ∈ byPath (ownEntries emitted), entry.IsStored := by
    intro entry member
    obtain ⟨route, inRoutes, rfl⟩ := List.mem_map.mp ((byPath_perm _).mem_iff.mp member)
    exact exists_isStored_bracedPath (mountable.paths route inRoutes)
  have apart : ((ownEntries emitted).map Entry.place).Nodup := by
    rw [ownEntries, List.map_map]
    exact mountable.nodup_bracedPlaces
  obtain ⟨inner, added, -, entries⟩ := addAll_eq_ok isSound_empty stored
    (((byPath_perm _).map Entry.place).nodup_iff.mpr apart)
  exact ⟨inner, (ofModule_eq_addAll apart).trans added, entries⟩

/-- Mounting a module adds its entries below its mount, path by path. -/
theorem mount_eq_addAll (mountable : emitted.IsMountable) (router : Router) :
    router.mount emitted = router.addAll emitted.entriesByPath := by
  obtain ⟨inner, built, entries⟩ := exists_ofModule_eq_ok mountable
  have mounted : emitted.entries = (ownEntries emitted).map fun entry =>
      { entry with path := emitted.mount ++ entry.path } := by
    rw [ownEntries, EmittedModule.entries, List.map_map]
    rfl
  have below : emitted.entriesByPath = inner.entries.map fun entry =>
      { entry with path := pathBelow emitted.mount entry.path } := by
    have injective : Function.Injective (emitted.mount ++ ·) :=
      fun _ _ same => (String.append_right_inj _).mp same
    rw [EmittedModule.entriesByPath, mounted, byPath_map injective, entries]
    refine List.map_congr_left fun entry member => ?_
    obtain ⟨route, inRoutes, rfl⟩ := List.mem_map.mp ((byPath_perm _).mem_iff.mp member)
    rw [entryOf, mountable.mount.pathBelow_eq (mountable.paths route inRoutes)]
  rw [mount, built, mountable.mount.mountAllowed_eq_true, below, Router.entries, addAll,
    List.foldlM_map, List.foldlM_map]
  rfl

/-- Modules are mounted one after the other, up to the first mount that is taken. -/
theorem mountAll_eq (mountable : ∀ emitted ∈ modules, emitted.IsMountable) (router : Router)
    (taken : List String) :
    router.mountAll taken modules =
      router.addAll
          ((EmittedModule.beforeRepeat taken modules).flatMap EmittedModule.entriesByPath) >>=
        fun next =>
          match EmittedModule.firstRepeat? taken modules with
          | some mount => .error (.duplicateMount mount)
          | none => .ok next := by
  induction modules generalizing router taken with
  | nil => rfl
  | cons emitted rest ih =>
    obtain ⟨first, others⟩ := List.forall_mem_cons.mp mountable
    rw [mountAll, EmittedModule.beforeRepeat, EmittedModule.firstRepeat?]
    by_cases repeated : emitted.mount ∈ taken
    · rw [if_pos repeated, if_pos repeated, if_pos repeated]
      rfl
    · rw [if_neg repeated, if_neg repeated, if_neg repeated, List.flatMap_cons, addAll_append,
        mount_eq_addAll first, bind_assoc]
      exact congrArg _ (funext fun next => ih others next _)

end Router

end Http

end ModuleRoutes
