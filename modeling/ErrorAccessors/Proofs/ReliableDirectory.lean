/-
# What a generation run leaves in its directory

Commands work on files through the operations of `Files`.  A directory is reliable if
these operations do there what they say: what is written can be read, what is removed is
gone, and a listing shows what is there.  For programs that work in such a directory this
module has a small logic of triples: where the directory holds some files, the program
ends with an answer and leaves others, whatever has been printed.

The functions of source directories are specified in this logic one by one.  At its end
stands what a generation run does: the sources of the run stand over the files that were
there, and of the others those are gone that count as stale.
-/

import ErrorAccessors.CommandLine.Run
import Mathlib.Data.List.Perm.Basic
import Mathlib.Logic.Function.Basic

namespace ErrorAccessors

/-- The name of the file of a source. -/
def sourceFile (name : String) : String :=
  name ++ "." ++ sourceExtension

/-- The texts of the files of a directory, by name. -/
abbrev Contents := String → Option String

namespace Contents

/-- No files. -/
def empty : Contents := fun _ => none

/-- The files with sources written over them in turn. -/
def overwrite (files : Contents) (sources : List (String × String)) : Contents :=
  sources.foldl (fun held source => Function.update held (sourceFile source.1) (some source.2))
    files

/-- The files without those of some names. -/
def without (files : Contents) (gone : String → Bool) : Contents :=
  fun name => if gone name then none else files name

/-- What the files become by a run that writes sources and removes stale ones. -/
def settle (files : Contents) (sources : List (String × String)) (beginning : String) :
    Contents :=
  (files.overwrite sources).without
    (SourceDirectory.isStale { root := "", written := sources.map (·.1) } beginning)

end Contents

/-- The sources that a generation run writes for a workspace. -/
def Workspace.generated (workspace : Workspace) (units : List SourceUnit) :
    List (String × String) :=
  (Generation.run (.ofUnits units) workspace.settings).sources workspace.settings.emission

/-- A directory on which the operations of `Files` do what they say. -/
structure ReliableDirectory (σ : Type) [Files (StateM σ)] (root : String) where
  /-- The names that its files can have. -/
  admits : String → Prop
  /-- What it holds in a state, which must be one where it exists. -/
  Holds : σ → Contents → Prop
  admits_of_isSome {state : σ} {files : Contents} {name : String} :
    Holds state files → (files name).isSome → admits name
  createDirectories {state : σ} {files : Contents} : Holds state files →
    ∃ later, Files.createDirectories (m := StateM σ) root state = (.ok (), later) ∧
      Holds later files
  /-- There is a text to be read exactly if there is a file, and it is the text of that
  file. -/
  read {state : σ} {files : Contents} {name : String} : Holds state files → admits name →
    ∃ answer later, Files.read (m := StateM σ) (Path.join root name) state = (answer, later) ∧
      Holds later files ∧ ∀ text, answer = .ok text ↔ files name = some text
  write {state : σ} {files : Contents} {name : String} (text : String) :
    Holds state files → admits name →
    ∃ later, Files.write (m := StateM σ) (Path.join root name) text state = (.ok (), later) ∧
      Holds later (Function.update files name (some text))
  remove {state : σ} {files : Contents} {name : String} :
    Holds state files → (files name).isSome →
    ∃ later, Files.remove (m := StateM σ) (Path.join root name) state = (.ok (), later) ∧
      Holds later (Function.update files name none)
  /-- Every file is listed once. -/
  list {state : σ} {files : Contents} : Holds state files →
    ∃ names later, Files.list (m := StateM σ) root state = (.ok names, later) ∧
      Holds later files ∧ names.Nodup ∧ ∀ name, name ∈ names ↔ (files name).isSome

namespace ReliableDirectory

variable {σ α β : Type} [Files (StateM σ)] {root : String} {directory : ReliableDirectory σ root}
variable {files : Contents} {goal : α → Contents → Prop}

/-- A directory holds one thing at a time. -/
theorem Holds.unique {state : σ} {first second : Contents} (one : directory.Holds state first)
    (other : directory.Holds state second) : first = second := by
  funext name
  obtain ⟨names, _, listed, -, -, inFirst⟩ := directory.list one
  obtain ⟨names', _, listed', -, -, inSecond⟩ := directory.list other
  obtain ⟨same, -⟩ := Prod.mk.inj (listed.symm.trans listed')
  obtain rfl := Except.ok.inj same
  cases held : first name with
  | none =>
      have missing : ¬ (second name).isSome := by simp [← inSecond, inFirst, held]
      exact (Option.not_isSome_iff_eq_none.mp missing).symm
  | some text =>
      have admitted := directory.admits_of_isSome one (Option.isSome_of_eq_some held)
      obtain ⟨answer, _, reads, -, isText⟩ := directory.read one admitted
      obtain ⟨answer', _, reads', -, isText'⟩ := directory.read other admitted
      obtain ⟨rfl, -⟩ := Prod.mk.inj (reads.symm.trans reads')
      exact ((isText' text).mp ((isText text).mpr held)).symm

section Logic

variable (directory) in
/-- Started where the directory holds some files, a program ends with an answer and leaves
files as they are wanted then, whatever has been printed. -/
def Ensures (program : Session (StateM σ) α) (files : Contents) (goal : α → Contents → Prop) :
    Prop :=
  ∀ console state, directory.Holds state files → ∃ answer printed later after,
    program console state = ((.ok answer, printed), later) ∧ directory.Holds later after ∧
      goal answer after

theorem Ensures.pure {answer : α} (isGoal : goal answer files) :
    directory.Ensures (pure answer) files goal :=
  fun console state held => ⟨answer, console, state, files, rfl, held, isGoal⟩

theorem Ensures.bind {program : Session (StateM σ) α} {next : α → Session (StateM σ) β}
    {last : β → Contents → Prop} (first : directory.Ensures program files goal)
    (rest : ∀ answer after, goal answer after → directory.Ensures (next answer) after last) :
    directory.Ensures (program >>= next) files last := by
  intro console state held
  obtain ⟨answer, printed, later, after, ran, holds, isGoal⟩ := first console state held
  obtain ⟨answer', printed', later', after', ran', holds', isLast⟩ :=
    rest answer after isGoal printed later holds
  refine ⟨answer', printed', later', after', ?_, holds', isLast⟩
  rw [← ran']
  simp only [Bind.bind, ExceptT.bind, ExceptT.mk, StateT.bind, ran, ExceptT.bindCont]

theorem Ensures.mono {program : Session (StateM σ) α} {wider : α → Contents → Prop}
    (ensured : directory.Ensures program files goal)
    (implies : ∀ answer after, goal answer after → wider answer after) :
    directory.Ensures program files wider := by
  intro console state held
  obtain ⟨answer, printed, later, after, ran, holds, isGoal⟩ := ensured console state held
  exact ⟨answer, printed, later, after, ran, holds, implies answer after isGoal⟩

/-- A program that performs one operation on files ensures what the operation does. -/
theorem Ensures.of_operation {program : Session (StateM σ) α} {operation : StateM σ α}
    (performs : ∀ console state,
      program console state = ((.ok (operation state).1, console), (operation state).2))
    (steps : ∀ {state}, directory.Holds state files → ∃ answer later after,
      operation state = (answer, later) ∧ directory.Holds later after ∧ goal answer after) :
    directory.Ensures program files goal := by
  intro console state held
  obtain ⟨answer, later, after, ran, holds, isGoal⟩ := steps held
  exact ⟨answer, console, later, after, by rw [performs, ran], holds, isGoal⟩

/-- Printing leaves files alone. -/
theorem Ensures.of_printing {program : Session (StateM σ) Unit} {print : Console → Console}
    (prints : ∀ console state, program console state = ((.ok (), print console), state)) :
    directory.Ensures program files fun _ after => after = files :=
  fun console state held => ⟨(), print console, state, files, prints console state, held, rfl⟩

omit [Files (StateM σ)] in
theorem orEnd_ok {ε : Type} (cause : ε → CommandError) (value : α) :
    (Session.orEnd cause (.ok value) : Session (StateM σ) α) = pure value :=
  rfl

end Logic

section Operations

variable (directory) {name : String}

theorem ensures_createDirectories :
    directory.Ensures (Files.createDirectories root) files fun answer after =>
      answer = .ok () ∧ after = files := by
  refine .of_operation (fun _ _ => rfl) fun held => ?_
  obtain ⟨later, ran, holds⟩ := directory.createDirectories held
  exact ⟨_, later, _, ran, holds, rfl, rfl⟩

theorem ensures_read (admitted : directory.admits name) :
    directory.Ensures (Files.read (Path.join root name)) files fun answer after =>
      (∀ text, answer = .ok text ↔ files name = some text) ∧ after = files := by
  refine .of_operation (fun _ _ => rfl) fun held => ?_
  obtain ⟨answer, later, ran, holds, isText⟩ := directory.read held admitted
  exact ⟨answer, later, _, ran, holds, isText, rfl⟩

theorem ensures_write (text : String) (admitted : directory.admits name) :
    directory.Ensures (Files.write (Path.join root name) text) files fun answer after =>
      answer = .ok () ∧ after = Function.update files name (some text) := by
  refine .of_operation (fun _ _ => rfl) fun held => ?_
  obtain ⟨later, ran, holds⟩ := directory.write text held admitted
  exact ⟨_, later, _, ran, holds, rfl, rfl⟩

theorem ensures_remove (present : (files name).isSome) :
    directory.Ensures (Files.remove (Path.join root name)) files fun answer after =>
      answer = .ok () ∧ after = Function.update files name none := by
  refine .of_operation (fun _ _ => rfl) fun held => ?_
  obtain ⟨later, ran, holds⟩ := directory.remove held present
  exact ⟨_, later, _, ran, holds, rfl, rfl⟩

theorem ensures_list :
    directory.Ensures (Files.list root) files fun answer after =>
      ∃ names, answer = .ok names ∧ names.Nodup ∧ (∀ name, name ∈ names ↔ (files name).isSome) ∧
        after = files := by
  refine .of_operation (fun _ _ => rfl) fun held => ?_
  obtain ⟨names, later, ran, holds, unique, listed⟩ := directory.list held
  exact ⟨_, later, _, ran, holds, names, rfl, unique, listed, rfl⟩

theorem ensures_printLine (line : String) :
    directory.Ensures (Session.printLine line) files fun _ after => after = files :=
  .of_printing fun _ _ => rfl

theorem ensures_report (workspace : Workspace) (json : Bool) (diagnostics : List Diagnostic) :
    directory.Ensures (workspace.report json diagnostics) files fun _ after => after = files := by
  induction diagnostics with
  | nil => exact .pure rfl
  | cons diagnostic rest ih =>
      have behind (after : Contents) (same : after = files) :
          directory.Ensures (workspace.report json rest) after fun _ last => last = files := by
        rw [same]
        exact ih
      rw [Workspace.report]
      split
      · exact (directory.ensures_printLine _).bind fun _ => behind
      · exact (Ensures.of_printing fun _ _ => rfl).bind fun _ => behind

end Operations

section Sources

variable (directory) {sources : SourceDirectory}

theorem ensures_create :
    directory.Ensures (SourceDirectory.create root) files fun answer after =>
      answer = .ok { root } ∧ after = files := by
  refine directory.ensures_createDirectories.bind fun answer after => ?_
  rintro ⟨rfl, rfl⟩
  exact .pure ⟨rfl, rfl⟩

/-- A source is in its file afterwards, whether or not the file had to be written. -/
theorem ensures_add (isRoot : sources.root = root) {name : String} (text : String)
    (admitted : directory.admits (sourceFile name)) :
    directory.Ensures (sources.add name text) files fun answer after =>
      (∃ changed,
        answer = ({ sources with written := sources.written ++ [name], changed }, .ok ())) ∧
        after = Function.update files (sourceFile name) (some text) := by
  have isPath : sources.pathFor name = Path.join root (sourceFile name) := by
    rw [SourceDirectory.pathFor, isRoot]
    rfl
  have replaces {noted : SourceDirectory}
      (isNoted : noted = { sources with written := sources.written ++ [name] }) :
      directory.Ensures
        (SourceDirectory.add.replace text noted (Path.join root (sourceFile name))) files
        fun answer after => (∃ changed,
          answer = ({ sources with written := sources.written ++ [name], changed }, .ok ())) ∧
            after = Function.update files (sourceFile name) (some text) := by
    refine (directory.ensures_write text admitted).bind fun answer after => ?_
    rintro ⟨rfl, rfl⟩
    exact .pure ⟨⟨_, by rw [isNoted]⟩, rfl⟩
  rw [SourceDirectory.add, isPath]
  refine (directory.ensures_read admitted).bind fun answer after => ?_
  rintro ⟨isText, rfl⟩
  cases answer with
  | error => exact replaces rfl
  | ok held =>
      have present := (isText held).mp rfl
      dsimp only
      split
      · next same =>
        -- the file is left alone, because it holds the text already
        refine .pure ⟨⟨_, rfl⟩, ?_⟩
        rw [← same, ← present, Function.update_eq_self]
      · exact replaces rfl

theorem ensures_addAll (isRoot : sources.root = root) {texts : List (String × String)}
    (admitted : ∀ source ∈ texts, directory.admits (sourceFile source.1)) :
    directory.Ensures (sources.addAll texts) files fun answer after =>
      (∃ changed, answer = ({ sources with
        written := sources.written ++ texts.map (·.1), changed }, .ok ())) ∧
        after = files.overwrite texts := by
  induction texts generalizing sources files with
  | nil =>
      refine .pure ⟨⟨sources.changed, ?_⟩, rfl⟩
      rw [List.map_nil, List.append_nil]
  | cons source rest ih =>
      obtain ⟨name, text⟩ := source
      obtain ⟨admitsFirst, admitsRest⟩ := List.forall_mem_cons.mp admitted
      rw [SourceDirectory.addAll]
      refine (directory.ensures_add isRoot text admitsFirst).bind fun answer after => ?_
      rintro ⟨⟨changed, rfl⟩, rfl⟩
      dsimp only
      refine Ensures.mono (ih ?_ admitsRest) fun answer after => ?_
      · exact isRoot
      rintro ⟨⟨changed', rfl⟩, rfl⟩
      refine ⟨⟨changed', ?_⟩, rfl⟩
      simp only [List.map_cons, List.append_assoc, List.singleton_append]

/-- Files are removed one by one, which works because no name occurs twice. -/
theorem ensures_removeAll {paths names : List String}
    (aligned : List.Forall₂ (fun path name => path = Path.join root name) paths names)
    (unique : names.Nodup) (present : ∀ name ∈ names, (files name).isSome) :
    directory.Ensures (SourceDirectory.removeAll paths) files fun answer after =>
      answer = .ok () ∧ after = files.without names.contains := by
  induction aligned generalizing files with
  | nil => exact .pure ⟨rfl, rfl⟩
  | @cons path name paths names isPath aligned ih =>
      obtain ⟨fresh, unique⟩ := List.nodup_cons.mp unique
      obtain ⟨isPresent, present⟩ := List.forall_mem_cons.mp present
      rw [SourceDirectory.removeAll, isPath]
      refine (directory.ensures_remove isPresent).bind fun answer after => ?_
      rintro ⟨rfl, rfl⟩
      have others : ∀ other ∈ names, (Function.update files name none other).isSome := by
        intro other member
        have differs : other ≠ name := fun same => fresh (same ▸ member)
        rw [Function.update_of_ne differs]
        exact present other member
      refine (ih unique others).mono fun answer after => ?_
      rintro ⟨rfl, rfl⟩
      refine ⟨rfl, funext fun other => ?_⟩
      by_cases same : other = name
      · simp [Contents.without, same]
      · simp [Contents.without, same]

/-- Pruning removes exactly the stale files. -/
theorem ensures_prune (isRoot : sources.root = root) (beginning : String) :
    directory.Ensures (sources.prune beginning) files fun answer after =>
      (∃ removed, answer = .ok removed) ∧ after = files.without (sources.isStale beginning) := by
  rw [SourceDirectory.prune, isRoot]
  refine directory.ensures_list.bind fun answer after => ?_
  rintro ⟨names, rfl, unique, listed, rfl⟩
  dsimp only
  -- the paths are sorted before they are removed, so the names are taken in that order
  have inOrder : List.Forall₂ (fun path name => path = Path.join root name)
      ((names.filter (sources.isStale beginning)).map (Path.join root))
      (names.filter (sources.isStale beginning)) :=
    List.forall₂_map_left_iff.mpr (List.forall₂_same.mpr fun _ _ => rfl)
  obtain ⟨stale, aligned, perm⟩ := List.perm_comp_forall₂ (List.mergeSort_perm _ _) inOrder
  have isStale (name : String) :
      name ∈ stale ↔ (after name).isSome ∧ sources.isStale beginning name = true := by
    rw [perm.mem_iff, List.mem_filter, listed]
  have removes := directory.ensures_removeAll aligned
    (perm.nodup_iff.mpr (unique.filter _)) fun name member => ((isStale name).mp member).1
  refine removes.bind fun answer last => ?_
  rintro ⟨rfl, rfl⟩
  refine .pure ⟨⟨_, rfl⟩, funext fun name => ?_⟩
  cases held : after name <;> simp [Contents.without, isStale, held]

/-- A generation run into a reliable directory succeeds if all its sources have names that
files can have.  Its sources are then in the directory, and stale ones are not. -/
theorem ensures_generateInto {workspace : Workspace} (isRoot : workspace.outDir = root)
    (units : List SourceUnit) (json : Bool)
    (admitted : ∀ source ∈ workspace.generated units, directory.admits (sourceFile source.1)) :
    directory.Ensures (Command.generateInto workspace units json) files fun _ after =>
      after = files.settle (workspace.generated units) workspace.settings.emission.filePrefix := by
  rw [Command.generateInto, isRoot]
  refine directory.ensures_create.bind fun answer files => ?_
  rintro ⟨rfl, rfl⟩
  dsimp only
  rw [orEnd_ok, pure_bind]
  refine (directory.ensures_addAll rfl admitted).bind fun answer after => ?_
  rintro ⟨⟨changed, rfl⟩, rfl⟩
  dsimp only
  rw [orEnd_ok, pure_bind]
  refine (directory.ensures_prune rfl _).bind fun answer after => ?_
  rintro ⟨⟨removed, rfl⟩, rfl⟩
  rw [orEnd_ok, pure_bind]
  -- what remains only prints
  split
  · exact (directory.ensures_printLine _).bind fun _ last same => .pure same
  · refine (directory.ensures_report _ _ _).bind fun _ next isNext => ?_
    exact (directory.ensures_printLine _).bind fun _ last same => .pure (same.trans isNext)

end Sources

end ReliableDirectory

end ErrorAccessors
