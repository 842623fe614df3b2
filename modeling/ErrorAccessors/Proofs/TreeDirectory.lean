/-
# Directories of a tree of files

Every directory of a tree in memory is reliable, as long as nothing but files with a text
is in it.  Two facts carry this.  A change of one file leaves what is at every other
location, and paths lead through directories alone, so a change of a file does not change
where paths lead.  A name is one that a file can have if it is a part of a path and the
path to the file is not too long.
-/

import ErrorAccessors.FileTree
import ErrorAccessors.Proofs.ReliableDirectory
import Mathlib.Data.List.Nodup

namespace ErrorAccessors

/-- A relative name is put behind a path with one slash. -/
theorem Path.join_eq {path name : String} (nonempty : path ≠ "")
    (noSlash : path.toList.getLast? ≠ some '/') (plain : '/' ∉ name.toList) :
    Path.join path name = path ++ "/" ++ name := by
  have relative : Path.isAbsolute name = false := by
    rw [Path.isAbsolute, beq_eq_false_iff_ne]
    exact fun isFirst => plain (List.mem_of_mem_head? isFirst)
  rw [Path.join, relative]
  simp only [Bool.false_eq_true, if_false]
  split
  · next last =>
    exact absurd (String.toList_eq_nil_iff.mp (List.getLast?_eq_none_iff.mp last)) nonempty
  · next last => exact absurd last noSlash
  · rfl

/-- The first of a path and the directories above it is the path. -/
theorem Path.exists_ancestors (path : String) : ∃ above, Path.ancestors path = path :: above := by
  rw [Path.ancestors]
  cases path.length with
  | zero => exact ⟨[], rfl⟩
  | succ count =>
      rw [Path.ancestorsWithin]
      split
      · exact ⟨_, rfl⟩
      · exact ⟨[], rfl⟩

namespace FileTree

variable {tree later : FileTree} {location : List String} {path : String}

section Nodes

/-- The locations at which something is, but for the root. -/
def locations (tree : FileTree) : List (List String) :=
  tree.nodes.map (·.1)

theorem node?_of_ne_nil (isBelow : location ≠ []) :
    tree.node? location = (tree.nodes.find? fun node => node.1 == location).map (·.2) :=
  if_neg isBelow

theorem isSome_node?_iff (isBelow : location ≠ []) :
    (tree.node? location).isSome ↔ location ∈ tree.locations := by
  rw [node?_of_ne_nil isBelow, Option.isSome_map, List.find?_isSome, locations, List.mem_map]
  simp only [beq_iff_eq]

/-- Putting something at a location changes nothing elsewhere. -/
theorem node?_put (isBelow : location ≠ []) (node : FileNode) (other : List String) :
    (tree.put location node).node? other =
      if other = location then some node else tree.node? other := by
  by_cases isRoot : other = []
  · rw [isRoot, if_neg isBelow.symm]
    rfl
  rw [node?_of_ne_nil isRoot, node?_of_ne_nil isRoot, put]
  split
  · next present =>
    have sameKeys : (fun node : List String × FileNode => node.1 == other) ∘
        (fun held => if held.1 = location then (location, node) else held) =
          fun node => node.1 == other := by
      funext held
      by_cases same : held.1 = location <;> simp [same]
    rw [List.find?_map, sameKeys, Option.map_map]
    split
    · next same =>
      subst same
      rw [node?_of_ne_nil isBelow, Option.isSome_map] at present
      obtain ⟨held, found⟩ := Option.isSome_iff_exists.mp present
      have isKey : held.1 = other := by simpa using List.find?_some found
      simp [found, isKey]
    · next differs =>
      cases found : tree.nodes.find? (fun node => node.1 == other) with
      | none => rfl
      | some held =>
          have isKey : held.1 = other := by simpa using List.find?_some found
          simp [isKey, differs]
  · next absent =>
    rw [List.find?_append]
    split
    · next same =>
      subst same
      rw [node?_of_ne_nil isBelow, Option.isSome_map, Bool.not_eq_true,
        Option.isSome_eq_false_iff, Option.isNone_iff_eq_none] at absent
      simp [absent]
    · next differs => simp [Ne.symm differs]

theorem node?_erase (isBelow : location ≠ []) (other : List String) :
    (tree.erase location).node? other = if other = location then none else tree.node? other := by
  by_cases isRoot : other = []
  · rw [isRoot, if_neg isBelow.symm]
    rfl
  rw [node?_of_ne_nil isRoot, node?_of_ne_nil isRoot, erase, List.find?_filter]
  split
  · next same => simp [same]
  · next differs =>
    congr 2
    funext node
    by_cases same : node.1 = other <;> simp [same, differs]

theorem nodup_locations_put (unique : tree.locations.Nodup) (isBelow : location ≠ [])
    (node : FileNode) : (tree.put location node).locations.Nodup := by
  have isPut : (tree.put location node).locations =
      if location ∈ tree.locations then tree.locations else tree.locations ++ [location] := by
    rw [put]
    simp only [isSome_node?_iff isBelow]
    split
    · simp only [locations, List.map_map]
      refine List.map_congr_left fun held _ => ?_
      by_cases same : held.1 = location <;> simp [same]
    · simp [locations]
  rw [isPut]
  split
  · exact unique
  · next fresh =>
    exact List.Nodup.append unique (List.nodup_singleton _) (List.disjoint_singleton.mpr fresh)

theorem nodup_locations_erase (unique : tree.locations.Nodup) :
    (tree.erase location).locations.Nodup := by
  have isErased : (tree.erase location).locations = tree.locations.filter (· ≠ location) := by
    rw [locations, erase, locations, List.filter_map]
    rfl
  rw [isErased]
  exact unique.filter _

end Nodes

section Entries

/-- The name of an entry, if a location is one in the directory at another. -/
private theorem entry_iff (key : List String) (name : String) :
    (if key.dropLast = location then key.getLast? else none) = some name ↔
      key = location ++ [name] := by
  constructor
  · intro isEntry
    split at isEntry
    · next same => rw [← same, List.dropLast_append_getLast? name isEntry]
    · cases isEntry
  · rintro rfl
    simp

private theorem entries_eq : tree.entries location = tree.locations.filterMap
    fun key => if key.dropLast = location then key.getLast? else none := by
  rw [entries, locations, List.filterMap_map]
  rfl

theorem mem_entries {name : String} :
    name ∈ tree.entries location ↔ (tree.node? (location ++ [name])).isSome := by
  rw [isSome_node?_iff (by simp), entries_eq, List.mem_filterMap]
  simp only [entry_iff, exists_eq_right]

theorem nodup_entries (unique : tree.locations.Nodup) : (tree.entries location).Nodup := by
  rw [entries_eq]
  refine List.Nodup.filterMap (fun first second name isFirst isSecond => ?_) unique
  rw [(entry_iff first name).mp isFirst, (entry_iff second name).mp isSecond]

end Entries

section Paths

/-- Paths lead through directories, so a path with more parts at its end goes on from the
place where it led before, as long as the directories remain. -/
theorem walk_append_of_directories
    (remain : ∀ place, tree.node? place = some .directory → later.node? place = some .directory)
    {start : List String} {first : List (List Char)} (leads : tree.walk start first = .ok location)
    (rest : List (List Char)) : later.walk start (first ++ rest) = later.walk location rest := by
  fun_induction tree.walk start first with
  | case1 start =>
      rw [Except.ok.inj leads]
      rfl
  | case2 => cases leads
  | case3 => cases leads
  | case4 => cases leads
  | case5 start part parts isDirectory idle ih =>
      rw [List.cons_append, walk, remain _ isDirectory]
      exact (if_pos idle).trans (ih leads)
  | case6 start parts isDirectory _ ih =>
      rw [List.cons_append, walk, remain _ isDirectory]
      exact ih leads
  | case7 start part parts isDirectory notIdle notUp short ih =>
      rw [List.cons_append, walk, remain _ isDirectory]
      dsimp only
      rw [if_neg notIdle, if_neg notUp, if_pos short]
      exact ih leads
  | case8 => cases leads

/-- A text that is looked up as a path, part by part. -/
structure IsPath (path : String) : Prop where
  nonempty : path ≠ ""
  noNul : '\x00' ∉ path.toList
  short : path.utf8ByteSize ≤ maximalPath

/-- Where a path begins. -/
def origin (tree : FileTree) (path : String) : List String :=
  if Path.isAbsolute path then [] else tree.workingDirectory

theorem locate_eq_ok_iff : tree.locate path = .ok location ↔
    IsPath path ∧ tree.walk (tree.origin path) (Path.parts path) = .ok location := by
  rw [locate]
  constructor
  · intro leads
    split at leads
    · cases leads
    · next nonempty =>
      split at leads
      · cases leads
      · next noNul =>
        split at leads
        · cases leads
        · next short => exact ⟨⟨nonempty, by simpa using noNul, Nat.not_lt.mp short⟩, leads⟩
  · rintro ⟨⟨nonempty, noNul, short⟩, leads⟩
    rw [if_neg nonempty, if_neg (by simpa using noNul), if_neg (Nat.not_lt.mpr short)]
    exact leads

theorem locate_of_directories (same : later.workingDirectory = tree.workingDirectory)
    (remain : ∀ place, tree.node? place = some .directory → later.node? place = some .directory)
    (leads : tree.locate path = .ok location) : later.locate path = .ok location := by
  rw [locate_eq_ok_iff] at leads ⊢
  refine ⟨leads.1, ?_⟩
  rw [origin, same, ← List.append_nil (Path.parts path)]
  exact walk_append_of_directories remain leads.2 []

/-- A path by which a directory can be made and its files be named. -/
structure IsDirectoryPath (root : String) : Prop where
  nonempty : root ≠ ""
  noSlash : root.toList.getLast? ≠ some '/'

/-- A name that a file can have in the directory at a path. -/
structure IsFileName (root name : String) : Prop where
  noSlash : '/' ∉ name.toList
  nonempty : name ≠ ""
  notHere : name ≠ "."
  notUp : name ≠ ".."
  short : Text.byteLength name.toList ≤ maximalName
  isPath : IsPath (Path.join root name)

instance (path : String) : Decidable (IsPath path) :=
  decidable_of_iff (path ≠ "" ∧ '\x00' ∉ path.toList ∧ path.utf8ByteSize ≤ maximalPath)
    ⟨fun ⟨nonempty, noNul, short⟩ => ⟨nonempty, noNul, short⟩,
      fun ⟨nonempty, noNul, short⟩ => ⟨nonempty, noNul, short⟩⟩

instance (root name : String) : Decidable (IsFileName root name) :=
  decidable_of_iff ('/' ∉ name.toList ∧ name ≠ "" ∧ name ≠ "." ∧ name ≠ ".." ∧
      Text.byteLength name.toList ≤ maximalName ∧ IsPath (Path.join root name))
    ⟨fun ⟨noSlash, nonempty, notHere, notUp, short, isPath⟩ =>
        ⟨noSlash, nonempty, notHere, notUp, short, isPath⟩,
      fun ⟨noSlash, nonempty, notHere, notUp, short, isPath⟩ =>
        ⟨noSlash, nonempty, notHere, notUp, short, isPath⟩⟩

theorem IsDirectoryPath.withoutTrailingSlashes_eq (isRoot : IsDirectoryPath path) :
    withoutTrailingSlashes path = path := by
  have noSlash := isRoot.noSlash
  have kept : (path.toList.reverse.dropWhile (· = '/')).reverse = path.toList := by
    rw [List.getLast?_eq_head?_reverse] at noSlash
    cases isReverse : path.toList.reverse with
    | nil =>
        rw [List.reverse_eq_nil_iff.mp isReverse]
        rfl
    | cons c rest =>
        rw [isReverse, List.head?_cons, ne_eq, Option.some_inj] at noSlash
        rw [List.dropWhile_cons_of_neg (by simpa using noSlash), ← isReverse,
          List.reverse_reverse]
  rw [withoutTrailingSlashes, kept]
  split
  · rfl
  · exact String.ofList_toList

/-- The file of a name is found in the directory. -/
theorem locate_join {root name : String} (isRoot : IsDirectoryPath root)
    (leads : tree.locate root = .ok location) (isDirectory : tree.node? location = some .directory)
    (isName : IsFileName root name) :
    tree.locate (Path.join root name) = .ok (location ++ [name]) := by
  have isJoin := Path.join_eq isRoot.nonempty isRoot.noSlash isName.noSlash
  refine locate_eq_ok_iff.mpr ⟨isName.isPath, ?_⟩
  have begins : tree.origin (Path.join root name) = tree.origin root := by
    have first : (Path.join root name).toList.head? = root.toList.head? := by
      rw [isJoin, String.toList_append, String.toList_append, List.append_assoc,
        List.head?_append_of_ne_nil]
      simpa using isRoot.nonempty
    rw [origin, origin, Path.isAbsolute, Path.isAbsolute, first]
  have parts : Path.parts (Path.join root name) = Path.parts root ++ [name.toList] := by
    have slash : ("/" : String).toList = ['/'] := rfl
    rw [Path.parts, isJoin, String.toList_append, String.toList_append, slash, List.append_assoc,
      List.singleton_append, Text.splitAt_append, Text.splitAt_of_notMem isName.noSlash,
      Path.parts]
  have notIdle : ¬ (name.toList = [] ∨ name.toList = ['.']) :=
    fun idle => idle.elim (fun same => isName.nonempty (String.toList_inj.mp same))
      fun same => isName.notHere (String.toList_inj.mp same)
  have notUp : name.toList ≠ ['.', '.'] := fun same => isName.notUp (String.toList_inj.mp same)
  rw [begins, parts, walk_append_of_directories (fun _ => id) (locate_eq_ok_iff.mp leads).2,
    walk, isDirectory]
  dsimp only
  rw [if_neg notIdle, if_neg notUp, if_pos isName.short, String.ofList_toList, walk]

end Paths

section Operations

/-! What an operation does depends on what is at the location that the path leads to. -/

theorem lookup_of_locate (leads : tree.locate path = .ok location) :
    tree.lookup path = match tree.node? location with
      | some node => .ok node
      | none => .error .notFound := by
  rw [lookup, leads]
  rfl

theorem writeNode_of_locate (node : FileNode) (leads : tree.locate path = .ok location) :
    tree.writeNode path node = match tree.node? location with
      | some .directory => .error .isDirectory
      | _ => .ok (tree.put location node) := by
  rw [writeNode, leads]
  rfl

theorem remove_of_locate (leads : tree.locate path = .ok location) :
    tree.remove path = match tree.node? location with
      | some .directory => .error .isDirectory
      | some _ => .ok (tree.erase location)
      | none => .error .notFound := by
  rw [FileTree.remove, leads]
  rfl

theorem list_of_locate (leads : tree.locate path = .ok location) :
    tree.list path = match tree.node? location with
      | some .directory => .ok (tree.entries location)
      | some _ => .error .notDirectory
      | none => .error .notFound := by
  rw [FileTree.list, leads]
  rfl

/-- Where a directory is already, making it does nothing. -/
theorem createDirectories_of_locate (isRoot : IsDirectoryPath path)
    (leads : tree.locate path = .ok location) (isThere : tree.node? location = some .directory) :
    createDirectories path tree = (.ok (), tree) := by
  obtain ⟨above, isChain⟩ := Path.exists_ancestors path
  have taken : tree.createDirectory path = .error .alreadyExists := by
    rw [createDirectory, isRoot.withoutTrailingSlashes_eq, leads]
    show (match tree.node? location with
      | some _ => Except.error FileError.alreadyExists
      | none => .ok (tree.put location .directory)) = _
    rw [isThere]
  have isDirectory : tree.isDirectory path = true := by
    rw [FileTree.isDirectory, lookup_of_locate leads, isThere]
  rw [createDirectories, isChain, createChain, if_neg isRoot.nonempty, taken]
  dsimp only
  rw [settle, if_pos isDirectory]

end Operations

section Directory

/-- A tree holds files with texts, and nothing else, in the directory at a path. -/
structure HoldsAt (root : String) (location : List String) (tree : FileTree) (files : Contents) :
    Prop where
  unique : tree.locations.Nodup
  leads : tree.locate root = .ok location
  isDirectory : tree.node? location = some .directory
  node : ∀ name, tree.node? (location ++ [name]) = (files name).map .text
  named : ∀ name, (files name).isSome → IsFileName root name

variable {root name : String} {files : Contents}

/-- A tree that differs in what one file holds differs in nothing else. -/
theorem HoldsAt.of_change (holds : HoldsAt root location tree files) {held : Option String}
    (unique : later.locations.Nodup) (same : later.workingDirectory = tree.workingDirectory)
    (node : ∀ other, later.node? other =
      if other = location ++ [name] then held.map .text else tree.node? other)
    (named : held.isSome → IsFileName root name) :
    HoldsAt root location later (Function.update files name held) := by
  have remain (place : List String) (isDirectory : tree.node? place = some .directory) :
      later.node? place = some .directory := by
    have differs : place ≠ location ++ [name] := by
      rintro rfl
      rw [holds.node] at isDirectory
      cases isFile : files name <;> simp [isFile] at isDirectory
    rw [node, if_neg differs, isDirectory]
  refine ⟨unique, locate_of_directories same remain holds.leads, remain _ holds.isDirectory,
    fun other => ?_, fun other present => ?_⟩
  · rw [node]
    by_cases isName : other = name
    · rw [isName, if_pos rfl, Function.update_self]
    · rw [if_neg (by simpa using isName), Function.update_of_ne isName, holds.node]
  · by_cases isName : other = name
    · subst isName
      rw [Function.update_self] at present
      exact named present
    · rw [Function.update_of_ne isName] at present
      exact holds.named other present

theorem HoldsAt.locate_file (holds : HoldsAt root location tree files)
    (isRoot : IsDirectoryPath root) (isName : IsFileName root name) :
    tree.locate (Path.join root name) = .ok (location ++ [name]) :=
  locate_join isRoot holds.leads holds.isDirectory isName

theorem HoldsAt.read_eq_ok_iff (holds : HoldsAt root location tree files)
    (isRoot : IsDirectoryPath root) (isName : IsFileName root name) (text : String) :
    tree.read (Path.join root name) = .ok text ↔ files name = some text := by
  rw [FileTree.read, lookup_of_locate (holds.locate_file isRoot isName), holds.node]
  cases files name <;> simp [bind, Except.bind]

theorem HoldsAt.write_eq (holds : HoldsAt root location tree files)
    (isRoot : IsDirectoryPath root) (isName : IsFileName root name) (text : String) :
    tree.write (Path.join root name) text = .ok (tree.put (location ++ [name]) (.text text)) := by
  rw [FileTree.write, writeNode_of_locate _ (holds.locate_file isRoot isName), holds.node]
  cases files name <;> rfl

theorem HoldsAt.remove_eq (holds : HoldsAt root location tree files)
    (isRoot : IsDirectoryPath root) (present : (files name).isSome) :
    tree.remove (Path.join root name) = .ok (tree.erase (location ++ [name])) := by
  obtain ⟨held, isHeld⟩ := Option.isSome_iff_exists.mp present
  rw [remove_of_locate (holds.locate_file isRoot (holds.named name present)), holds.node, isHeld]
  rfl

/-- The directory at a path of a tree is reliable. -/
def directoryAt {root : String} (isRoot : IsDirectoryPath root) (location : List String) :
    ReliableDirectory FileTree root where
  admits := IsFileName root
  Holds := HoldsAt root location
  admits_of_isSome holds := holds.named _
  createDirectories holds :=
    ⟨_, createDirectories_of_locate isRoot holds.leads holds.isDirectory, holds⟩
  read holds isName := ⟨_, _, rfl, holds, holds.read_eq_ok_iff isRoot isName⟩
  write {tree files name} text holds isName := by
    refine ⟨tree.put (location ++ [name]) (.text text), ?_, ?_⟩
    · show change _ tree = _
      rw [change, holds.write_eq isRoot isName]
    · refine holds.of_change (nodup_locations_put holds.unique (by simp) _) ?_
        (node?_put (by simp) _) fun _ => isName
      rw [put]
      split <;> rfl
  remove {tree files name} holds present := by
    refine ⟨tree.erase (location ++ [name]), ?_, ?_⟩
    · show change _ tree = _
      rw [change, holds.remove_eq isRoot present]
    · exact holds.of_change (nodup_locations_erase holds.unique) rfl (node?_erase (by simp)) nofun
  list {tree files} holds := by
    refine ⟨tree.entries location, tree, ?_, holds, nodup_entries holds.unique, fun name => ?_⟩
    · show (tree.list root, tree) = _
      rw [list_of_locate holds.leads, holds.isDirectory]
    · rw [mem_entries, holds.node, Option.isSome_map]

end Directory

end FileTree

end ErrorAccessors
