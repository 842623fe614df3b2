/-
# Generating again into the same directory

A run removes the sources of earlier runs that it does not write again.  It takes a file
for such a source if its name begins with the shared beginning and an underscore.  Behind
a beginning that is not empty every source has this underscore, so a second run leaves
what it would have left in an empty directory.  Without a beginning names have no
underscore in front, though, and sources of the first run remain that nothing asks for any
more.  Only those go whose names begin with an underscore of their own.
-/

import ErrorAccessors.Proofs.GeneratedSources
import ErrorAccessors.Proofs.TreeDirectory

namespace ErrorAccessors

section FileNames

/-- The name of a source is what stands in front of the extension. -/
theorem Path.splitExtension_sourceFile {name : String} (nonempty : name ≠ "") :
    Path.splitExtension (sourceFile name) = (name, some sourceExtension) := by
  have reversed : (sourceFile name).toList.reverse = 's' :: 'c' :: '.' :: name.toList.reverse := by
    have dot : ("." : String).toList = ['.'] := rfl
    have ending : sourceExtension.toList = ['c', 's'] := rfl
    simp [sourceFile, dot, ending]
  obtain ⟨last, others, isName⟩ : ∃ last others, name.toList.reverse = last :: others :=
    List.exists_cons_of_ne_nil (by simpa using nonempty)
  have isText : String.ofList (last :: others).reverse = name := by
    rw [← isName, List.reverse_reverse, String.ofList_toList]
  rw [Path.splitExtension, reversed, isName]
  show (String.ofList (last :: others).reverse, some (String.ofList ['c', 's'])) = _
  rw [isText]
  rfl

theorem sourceFile_injective : Function.Injective sourceFile := by
  intro first second same
  simpa [sourceFile] using same

/-- The file of a source is stale if the source was not written and its name begins as
those of this program do. -/
theorem SourceDirectory.isStale_sourceFile (directory : SourceDirectory) (beginning : String)
    {name : String} (nonempty : name ≠ "") :
    directory.isStale beginning (sourceFile name) = true ↔
      (beginning ++ "_").isPrefixOf name = true ∧ name ∉ directory.written := by
  rw [isStale, Path.splitExtension_sourceFile nonempty]
  simp

end FileNames

namespace Contents

variable {files : Contents} {sources : List (String × String)} {name beginning : String}

theorem overwrite_of_notMem (absent : name ∉ sources.map fun source => sourceFile source.1) :
    files.overwrite sources name = files name := by
  induction sources generalizing files with
  | nil => rfl
  | cons source rest ih =>
      rw [List.map_cons, List.mem_cons, not_or] at absent
      rw [overwrite, List.foldl_cons]
      exact (ih absent.2).trans (Function.update_of_ne absent.1 _ _)

/-- What is written does not depend on what was there. -/
theorem exists_overwrite_of_mem
    (present : name ∈ sources.map fun source => sourceFile source.1) :
    ∃ text, ∀ files : Contents, files.overwrite sources name = some text := by
  induction sources with
  | nil => cases present
  | cons source rest ih =>
      by_cases again : name ∈ rest.map fun source => sourceFile source.1
      · obtain ⟨text, written⟩ := ih again
        exact ⟨text, fun files => written _⟩
      · have isFirst := (List.mem_cons.mp present).resolve_right again
        refine ⟨source.2, fun files => (overwrite_of_notMem again).trans ?_⟩
        rw [isFirst]
        exact Function.update_self _ _ _

/-- What a run has written is not stale. -/
theorem settle_of_mem (named : ∀ source ∈ sources, source.1 ≠ "")
    (present : name ∈ sources.map fun source => sourceFile source.1) :
    files.settle sources beginning name = files.overwrite sources name := by
  obtain ⟨source, member, rfl⟩ := List.mem_map.mp present
  have isFresh : ¬ SourceDirectory.isStale { root := "", written := sources.map (·.1) } beginning
      (sourceFile source.1) = true := by
    rw [SourceDirectory.isStale_sourceFile _ _ (named source member)]
    exact fun stale => stale.2 (List.mem_map_of_mem member)
  rw [settle, without, if_neg isFresh]

/-- Every other file stays as it was, unless it is stale. -/
theorem settle_of_notMem (absent : name ∉ sources.map fun source => sourceFile source.1) :
    files.settle sources beginning name =
      if SourceDirectory.isStale { root := "", written := sources.map (·.1) } beginning name
      then none else files name := by
  rw [settle, without, overwrite_of_notMem absent]

/-- A run in an empty directory leaves its sources there. -/
theorem settle_empty (named : ∀ source ∈ sources, source.1 ≠ "") :
    empty.settle sources beginning = empty.overwrite sources := by
  funext name
  by_cases present : name ∈ sources.map fun source => sourceFile source.1
  · exact settle_of_mem named present
  · rw [settle_of_notMem present, overwrite_of_notMem present]
    split <;> rfl

/-- After a run in an empty directory, another one leaves nothing but its sources exactly if
it finds every source stale that it does not write again. -/
theorem settle_settle_eq_iff {first second : List (String × String)}
    (namedFirst : ∀ source ∈ first, source.1 ≠ "")
    (namedSecond : ∀ source ∈ second, source.1 ≠ "") :
    (empty.settle first beginning).settle second beginning = empty.overwrite second ↔
      ∀ source ∈ first, source.1 ∉ second.map (·.1) →
        (beginning ++ "_").isPrefixOf source.1 = true := by
  have file_mem_iff (source : String × String) :
      sourceFile source.1 ∈ second.map (fun source => sourceFile source.1) ↔
        source.1 ∈ second.map (·.1) := by
    simp only [List.mem_map, sourceFile_injective.eq_iff]
  constructor
  · intro same source member absent
    have written : sourceFile source.1 ∈ first.map fun source => sourceFile source.1 :=
      List.mem_map_of_mem member
    have missing := (file_mem_iff source).not.mpr absent
    have agree := congrFun same (sourceFile source.1)
    rw [settle_of_notMem missing, overwrite_of_notMem missing, settle_empty namedFirst] at agree
    obtain ⟨text, held⟩ := exists_overwrite_of_mem written
    by_contra notStale
    have remains : ¬ SourceDirectory.isStale { root := "", written := second.map (·.1) } beginning
        (sourceFile source.1) = true := by
      rw [SourceDirectory.isStale_sourceFile _ _ (namedFirst source member)]
      exact fun stale => notStale stale.1
    rw [if_neg remains] at agree
    exact Option.some_ne_none text ((held empty).symm.trans agree)
  · intro allStale
    funext name
    by_cases again : name ∈ second.map fun source => sourceFile source.1
    · obtain ⟨text, held⟩ := exists_overwrite_of_mem again
      rw [settle_of_mem namedSecond again, held, held]
    · rw [settle_of_notMem again, overwrite_of_notMem again, settle_empty namedFirst]
      split
      · rfl
      · next notStale =>
        have untouched : name ∉ first.map fun source => sourceFile source.1 := by
          intro written
          obtain ⟨source, member, rfl⟩ := List.mem_map.mp written
          have absent := (file_mem_iff source).not.mp again
          have begins := allStale source member absent
          exact notStale ((SourceDirectory.isStale_sourceFile _ _ (namedFirst source member)).mpr
            ⟨begins, absent⟩)
        exact overwrite_of_notMem untouched

end Contents

section Names

/-- The name of an artifact is the one it has without a shared beginning, put behind the
beginning. -/
theorem ArtifactKey.name_eq_attach (key : ArtifactKey) (beginning : String) :
    key.name beginning = attach beginning (key.name "") := by
  have isJoined (front : String) : key.name front = attach front (joinParts key.segments) := by
    rw [← joinParts_singleton front, ← joinParts_append, joinParts_singleton]
    rfl
  rw [isJoined, isJoined ""]
  rfl

theorem ArtifactKey.name_ne_empty (key : ArtifactKey) (beginning : String) :
    key.name beginning ≠ "" := by
  intro isEmpty
  have read := key.lastWord_name beginning
  rw [isEmpty] at read
  exact key.ending_ne_empty (String.toList_inj.mp read.symm)

theorem Template.traceName_eq_attach (beginning : String) :
    Template.traceName beginning = attach beginning "ResultsGenerator_Trace" := by
  unfold Template.traceName attach
  split
  · rfl
  · rw [if_neg (by decide), String.append_assoc]
    rfl

variable {units : List SourceUnit}

/-- The name of a source of a run is something behind the beginning that all share. -/
theorem Generation.exists_attach_of_mem_sources {settings : Settings} {source : String × String}
    (member : source ∈ (run (.ofUnits units) settings).sources settings.emission) :
    ∃ rest, rest ≠ "" ∧ source.1 = attach settings.emission.filePrefix rest := by
  rcases List.mem_append.mp member with isArtifact | isTrace
  · obtain ⟨artifact, isMade, rfl⟩ := List.mem_map.mp isArtifact
    refine ⟨artifact.key.name "", artifact.key.name_ne_empty "", ?_⟩
    rw [name_of_mem_artifacts_run units settings isMade]
    exact artifact.key.name_eq_attach _
  · unfold GenerationReport.traceSource? at isTrace
    split at isTrace
    · obtain rfl := List.mem_singleton.mp isTrace
      exact ⟨_, by decide, Template.traceName_eq_attach _⟩
    · cases isTrace

variable {workspace : Workspace}

theorem Workspace.ne_empty_of_mem_generated :
    ∀ source ∈ workspace.generated units, source.1 ≠ "" := by
  intro source member
  obtain ⟨rest, nonempty, isName⟩ := Generation.exists_attach_of_mem_sources member
  rw [isName, attach]
  split
  · exact nonempty
  · next beginning => simp [nonempty, beginning]

/-- A shared beginning is followed by an underscore in every name. -/
theorem Workspace.isPrefixOf_of_mem_generated
    (beginning : workspace.settings.emission.filePrefix ≠ "") :
    ∀ source ∈ workspace.generated units,
      (workspace.settings.emission.filePrefix ++ "_").isPrefixOf source.1 = true := by
  intro source member
  obtain ⟨rest, nonempty, isName⟩ := Generation.exists_attach_of_mem_sources member
  have behind : (workspace.settings.emission.filePrefix ++ "_" ++ rest).toList =
      (workspace.settings.emission.filePrefix ++ "_").toList ++ rest.toList :=
    String.toList_append
  rw [isName, attach, if_neg beginning, if_neg nonempty, String.isPrefixOf,
    String.startsWith_string_iff, behind]
  exact List.prefix_append _ _

end Names

namespace ReliableDirectory

variable {σ α : Type} [Files (StateM σ)] {root : String}

/-- From a state, a program ends with an answer and leaves some files in the directory,
whatever has been printed. -/
def Leaves (directory : ReliableDirectory σ root) (program : Session (StateM σ) α) (state : σ)
    (files : Contents) : Prop :=
  ∀ console, ∃ answer printed later,
    program console state = ((.ok answer, printed), later) ∧ directory.Holds later files

theorem Ensures.leaves {directory : ReliableDirectory σ root} {program : Session (StateM σ) α}
    {before after : Contents} {state : σ}
    (ensured : directory.Ensures program before fun _ last => last = after)
    (holds : directory.Holds state before) : directory.Leaves program state after := by
  intro console
  obtain ⟨answer, printed, later, last, ran, held, rfl⟩ := ensured console state holds
  exact ⟨answer, printed, later, ran, held⟩

end ReliableDirectory

namespace Command

/-- Two runs one after the other into a directory that is empty at first, and the second
alone into an empty directory, both succeed.  The second alone leaves its sources and
nothing else.  The two leave the same files exactly if the names share a beginning that is
not empty, or each source of the first run that the second does not write again has a name
that begins with an underscore. -/
theorem generateInto_twice_eq_overwrite_iff {σ : Type} [Files (StateM σ)] {root : String}
    (directory : ReliableDirectory σ root) {earlier later : Workspace}
    (earlierRoot : earlier.outDir = root) (laterRoot : later.outDir = root)
    (shared : earlier.settings.emission.filePrefix = later.settings.emission.filePrefix)
    {first second : List SourceUnit}
    (admitsFirst : ∀ source ∈ earlier.generated first, directory.admits (sourceFile source.1))
    (admitsSecond : ∀ source ∈ later.generated second, directory.admits (sourceFile source.1))
    {state fresh : σ} (isEmpty : directory.Holds state .empty)
    (isFresh : directory.Holds fresh .empty) (json : Bool) :
    ∃ twice,
      directory.Leaves (do
        let _ ← generateInto earlier first json
        generateInto later second json) state twice ∧
      directory.Leaves (generateInto later second json) fresh
        (Contents.empty.overwrite (later.generated second)) ∧
      (twice = Contents.empty.overwrite (later.generated second) ↔
        later.settings.emission.filePrefix ≠ "" ∨
          ∀ source ∈ earlier.generated first, source.1 ∉ (later.generated second).map (·.1) →
            "_".isPrefixOf source.1 = true) := by
  have ensuredSecond (files : Contents) : directory.Ensures (generateInto later second json) files
      fun _ last =>
        last = files.settle (later.generated second) later.settings.emission.filePrefix :=
    directory.ensures_generateInto laterRoot second json admitsSecond
  have ensuredBoth : directory.Ensures (do
        let _ ← generateInto earlier first json
        generateInto later second json) .empty fun _ last =>
      last = (Contents.empty.settle (earlier.generated first)
        earlier.settings.emission.filePrefix).settle (later.generated second)
          later.settings.emission.filePrefix := by
    refine (directory.ensures_generateInto earlierRoot first json admitsFirst).bind
      fun _ after isAfter => ?_
    rw [← isAfter]
    exact ensuredSecond after
  have alone := (ensuredSecond .empty).leaves isFresh
  rw [Contents.settle_empty Workspace.ne_empty_of_mem_generated] at alone
  refine ⟨_, ensuredBoth.leaves isEmpty, alone, ?_⟩
  rw [shared, Contents.settle_settle_eq_iff Workspace.ne_empty_of_mem_generated
    Workspace.ne_empty_of_mem_generated]
  by_cases beginning : later.settings.emission.filePrefix = ""
  · rw [beginning]
    simp
  · refine iff_of_true (fun source member _ => ?_) (.inl beginning)
    rw [← shared] at beginning ⊢
    exact Workspace.isPrefixOf_of_mem_generated beginning source member

/-- A tree with an empty directory. -/
private def bareTree : FileTree :=
  ⟨[(["work"], .directory), (["work", "Generated"], .directory)], ["work"]⟩

private theorem isDirectoryPath_generated : FileTree.IsDirectoryPath "Generated" :=
  ⟨by decide, by decide⟩

private theorem holdsAt_bareTree :
    FileTree.HoldsAt "Generated" ["work", "Generated"] bareTree .empty where
  unique := by decide
  leads := by decide
  isDirectory := rfl
  node name := by
    rw [FileTree.node?_of_ne_nil (by simp)]
    simp [bareTree, Contents.empty]
  named _ := nofun

/-- A project that only says what the names of its sources begin with. -/
private def projectWith (beginning : String) : Workspace :=
  { settings := { emission := { filePrefix := beginning } }, sources := [], outDir := "Generated" }

private def classText (typeName : String) : String :=
  "class " ++ typeName ++ " \x7b [ErrorResult(1, \"x\")] public Result M() => null; \x7d"

/-- The names of the sources for that class. -/
private def namesFor (typeName beginning : String) : List String :=
  let keys : List ArtifactKey :=
    [.ofType .resultsFactory "" typeName, .ofMethod .errorsProvider "" typeName "M",
      .ofType .errorRepository "" typeName, .ofType .classErrorsProvider "" typeName,
      .ofMethod .methodErrors "" typeName "M", .ofMethod .methodErrorCodes "" typeName "M"]
  keys.map fun key => key.name beginning

/-- After a class has been renamed, the sources for its old name remain if names have no
shared beginning, and are removed if there is one. -/
theorem generateInto_twice_eq_overwrite_iff_of_renamed :
    let generated := FileTree.directoryAt isDirectoryPath_generated ["work", "Generated"]
    ∃ first second,
      SourceUnit.parse (classText "A") "A.cs" = .ok first ∧
      SourceUnit.parse (classText "B") "A.cs" = .ok second ∧
      ∀ beginning ∈ ["", "Gen"], ∃ twice,
        generated.Leaves (do
          let _ ← generateInto (projectWith beginning) [first] false
          generateInto (projectWith beginning) [second] false) bareTree twice ∧
        generated.Leaves (generateInto (projectWith beginning) [second] false) bareTree
          (Contents.empty.overwrite ((projectWith beginning).generated [second])) ∧
        (twice = Contents.empty.overwrite ((projectWith beginning).generated [second]) ↔
          beginning ≠ "") := by
  intro generated
  have seen : ∀ typeName ∈ ["A", "B"],
      (SourceUnit.parse (classText typeName) "A.cs").toOption.map (fun unit =>
        ["", "Gen"].map fun beginning =>
          ((projectWith beginning).generated [unit]).map (·.1)) =
        some (["", "Gen"].map (namesFor typeName)) := by
    decide +kernel
  have admitted : ∀ typeName ∈ ["A", "B"], ∀ beginning ∈ ["", "Gen"],
      ∀ name ∈ namesFor typeName beginning,
        FileTree.IsFileName "Generated" (sourceFile name) := by
    decide +kernel
  obtain ⟨first, isFirst, -, firstNames⟩ := SourceUnit.exists_of_parse (seen "A" (by simp))
  obtain ⟨second, isSecond, -, secondNames⟩ := SourceUnit.exists_of_parse (seen "B" (by simp))
  refine ⟨first, second, isFirst, isSecond, fun beginning isOne => ?_⟩
  have firstNames := List.map_inj_left.mp firstNames beginning isOne
  have secondNames := List.map_inj_left.mp secondNames beginning isOne
  have admitsFirst : ∀ source ∈ (projectWith beginning).generated [first],
      generated.admits (sourceFile source.1) := fun source member =>
    admitted "A" (by simp) beginning isOne _ (firstNames ▸ List.mem_map_of_mem member)
  have admitsSecond : ∀ source ∈ (projectWith beginning).generated [second],
      generated.admits (sourceFile source.1) := fun source member =>
    admitted "B" (by simp) beginning isOne _ (secondNames ▸ List.mem_map_of_mem member)
  obtain ⟨twice, leavesTwice, leavesOnce, same⟩ :=
    generateInto_twice_eq_overwrite_iff generated rfl rfl rfl admitsFirst admitsSecond
      holdsAt_bareTree holdsAt_bareTree false
  refine ⟨twice, leavesTwice, leavesOnce, same.trans (or_iff_left_of_imp fun allStale => ?_)⟩
  rintro rfl
  have remains : "A_ResultsFactory" ∈ ((projectWith "").generated [first]).map (·.1) := by
    rw [firstNames]
    decide
  obtain ⟨source, member, isName⟩ := List.mem_map.mp remains
  have begins := allStale source member (by rw [secondNames, isName]; decide)
  rw [isName, String.isPrefixOf, String.startsWith_string_iff] at begins
  exact absurd begins (by decide)

end Command

end ErrorAccessors
