/-
# When two artifacts have the same name

A name is made by joining parts with underscores, and the parts may hold
underscores themselves.  The last part, which says what kind of artifact it is,
holds none, so it can be read back from the name.  What stands before it cannot:
`A_B` with `C` and `A` with `B_C` join to the same text.  Two keys therefore
have the same name exactly when they are of one kind and their stems join to the
same text.
-/

import ErrorAccessors.ArtifactKey
import ErrorAccessors.Template
import Mathlib.Data.List.Basic

namespace ErrorAccessors

/-- Two texts with an underscore between them, or one of them alone if the other
is empty. -/
def attach (front behind : String) : String :=
  if front = "" then behind else if behind = "" then front else front ++ "_" ++ behind

/-- Parts joined with underscores, empty ones left out. -/
def joinParts (parts : List String) : String :=
  "_".intercalate (parts.filter fun part => part ≠ "")

private theorem length_attached (front behind : String) :
    (front ++ "_" ++ behind).length = front.length + 1 + behind.length := by
  rw [String.length_append, String.length_append]
  rfl

theorem attach_eq (front behind : String) :
    attach front behind =
      if front = "" then behind else if behind = "" then front else front ++ "_" ++ behind := rfl

@[simp]
theorem attach_empty (front : String) : attach front "" = front := by
  rw [attach_eq]
  split
  · next empty => exact empty.symm
  · exact if_pos rfl

/-- The same text in front of two others can be taken away. -/
theorem attach_left_inj (front : String) {first second : String} :
    attach front first = attach front second ↔ first = second := by
  refine ⟨fun same => ?_, fun same => same ▸ rfl⟩
  rw [attach_eq, attach_eq] at same
  split at same
  · exact same
  · split at same <;> split at same
    · simp_all only
    · have lengths := congrArg String.length same
      rw [length_attached] at lengths
      omega
    · have lengths := congrArg String.length same
      rw [length_attached] at lengths
      omega
    · simpa only [String.append_assoc, String.append_right_inj] using same

/-- The same text behind two others can be taken away. -/
theorem attach_right_inj (behind : String) {first second : String} :
    attach first behind = attach second behind ↔ first = second := by
  refine ⟨fun same => ?_, fun same => same ▸ rfl⟩
  by_cases empty : behind = ""
  · simpa only [empty, attach_empty] using same
  · simp only [attach_eq, if_neg empty] at same
    split at same <;> split at same
    · simp_all only
    · have lengths := congrArg String.length same
      rw [length_attached] at lengths
      omega
    · have lengths := congrArg String.length same
      rw [length_attached] at lengths
      omega
    · simpa only [String.append_left_inj] using same

/-- Joining may be done in two portions. -/
theorem joinParts_append (first second : List String) :
    joinParts (first ++ second) = attach (joinParts first) (joinParts second) := by
  have joined_ne {parts : List String} (some : (parts.filter fun part => part ≠ "") ≠ []) :
      joinParts parts ≠ "" := by
    obtain ⟨head, rest, kept⟩ := List.exists_cons_of_ne_nil some
    have nonempty : head ≠ "" := by
      have member : head ∈ parts.filter fun part => part ≠ "" := kept ▸ List.mem_cons_self
      simpa using (List.mem_filter.mp member).2
    rw [joinParts, kept]
    cases rest with
    | nil => simpa using nonempty
    | cons next others => simp [String.intercalate_cons_cons]
  by_cases noFirst : (first.filter fun part => part ≠ "") = []
  · have empty : joinParts first = "" := by rw [joinParts, noFirst, String.intercalate_nil]
    rw [attach_eq, if_pos empty, joinParts, List.filter_append, noFirst, List.nil_append, joinParts]
  · by_cases noSecond : (second.filter fun part => part ≠ "") = []
    · have empty : joinParts second = "" := by rw [joinParts, noSecond, String.intercalate_nil]
      rw [attach_eq, if_neg (joined_ne noFirst), if_pos empty, joinParts, List.filter_append,
        noSecond, List.append_nil, joinParts]
    · rw [attach_eq, if_neg (joined_ne noFirst), if_neg (joined_ne noSecond), joinParts,
        List.filter_append, String.intercalate_append_of_ne_nil noFirst noSecond]
      rfl

theorem joinParts_singleton (part : String) : joinParts [part] = part := by
  by_cases empty : part = ""
  · simp [joinParts, empty]
  · simp [joinParts, empty]

/-- Leaving out empty parts beforehand changes nothing. -/
theorem joinParts_filter (parts : List String) :
    joinParts (parts.filter fun part => part ≠ "") = joinParts parts := by
  simp only [joinParts, List.filter_filter, Bool.and_self]

/-- The characters behind the last underscore. -/
def lastWord (text : String) : List Char :=
  (text.toList.reverse.takeWhile (· ≠ '_')).reverse

/-- What is attached can be read back, if it holds no underscore. -/
theorem lastWord_attach (front : String) {behind : String} (nonempty : behind ≠ "")
    (plain : '_' ∉ behind.toList) : lastWord (attach front behind) = behind.toList := by
  have differs : ∀ c ∈ behind.toList.reverse, (decide (c ≠ '_')) = true := by
    intro c member
    have other : c ≠ '_' := fun same => plain (same ▸ List.mem_reverse.mp member)
    simpa using other
  unfold lastWord
  rw [attach_eq, if_neg nonempty]
  split
  · rw [← List.append_nil behind.toList.reverse, List.takeWhile_append_of_pos differs]
    simp
  · have mark : ("_" : String).toList = ['_'] := rfl
    rw [String.toList_append, String.toList_append, mark, List.reverse_append,
      List.takeWhile_append_of_pos differs]
    simp

namespace ArtifactKey

/-- The part of a name that says what kind of artifact it is. -/
def ending : ArtifactKey → String
  | ofType kind .. => kind.label
  | ofMethod kind .. => kind.ending

/-- The parts of a name in front of its ending. -/
def stemParts : ArtifactKey → List String
  | ofType _ space typeName => [space, typeName]
  | ofMethod _ space typeName method => [space, typeName, method]

/-- The text that a name has in front of its ending, without the beginning that
all names of a project share. -/
def stem (key : ArtifactKey) : String :=
  joinParts key.stemParts

/-- The words for the kinds of artifacts. -/
def endings : List String :=
  ["ResultsFactory", "ErrorRepository", "ClassErrorsProvider", "ErrorsProvider", "Errors",
    "ErrorCodes"]

theorem ending_mem_endings (key : ArtifactKey) : key.ending ∈ endings := by
  cases key with
  | ofType kind => cases kind <;> simp [ending, TypeArtifact.label, endings]
  | ofMethod kind => cases kind <;> simp [ending, MethodArtifact.ending, endings]

/-- The words for the kinds are single words, and none of them is the last word
of the trace's name. -/
theorem endings_plain :
    ∀ word ∈ endings, word ≠ "" ∧ '_' ∉ word.toList ∧ word.toList ≠ "Trace".toList := by
  decide

theorem ending_ne_empty (key : ArtifactKey) : key.ending ≠ "" :=
  (endings_plain _ key.ending_mem_endings).1

theorem underscore_notMem_ending (key : ArtifactKey) : '_' ∉ key.ending.toList :=
  (endings_plain _ key.ending_mem_endings).2.1

/-- The name is the shared beginning, the stem and the ending. -/
theorem name_eq (key : ArtifactKey) (beginning : String) :
    key.name beginning = attach (attach beginning key.stem) key.ending := by
  have segments : key.segments = (key.stemParts ++ [key.ending]).filter fun part => part ≠ "" := by
    cases key <;> rfl
  calc
    key.name beginning = joinParts ([beginning] ++ key.segments) := rfl
    _ = attach beginning (joinParts (key.stemParts ++ [key.ending])) := by
        rw [joinParts_append, joinParts_singleton, segments, joinParts_filter]
    _ = attach (attach beginning key.stem) key.ending := by
        rw [← joinParts_singleton beginning, ← joinParts_append, ← List.append_assoc,
          joinParts_append, joinParts_append, joinParts_singleton, joinParts_singleton, stem]

/-- The kind of an artifact can be read from its name. -/
theorem lastWord_name (key : ArtifactKey) (beginning : String) :
    lastWord (key.name beginning) = key.ending.toList := by
  rw [name_eq]
  exact lastWord_attach _ key.ending_ne_empty key.underscore_notMem_ending

/-- Two names are the same exactly when the kinds are and the stems are. -/
theorem name_eq_name_iff {first second : ArtifactKey} (beginning : String) :
    first.name beginning = second.name beginning ↔
      first.ending = second.ending ∧ first.stem = second.stem := by
  constructor
  · intro same
    have endings : first.ending = second.ending := by
      rw [← String.toList_inj, ← lastWord_name first beginning, same, lastWord_name]
    rw [name_eq, name_eq, endings, attach_right_inj, attach_left_inj] at same
    exact ⟨endings, same⟩
  · rintro ⟨endings, stems⟩
    rw [name_eq, name_eq, endings, stems]

/-- The source that lists the faults never has the name of an artifact. -/
theorem name_ne_traceName (key : ArtifactKey) (beginning : String) :
    key.name beginning ≠ Template.traceName beginning := by
  intro same
  have trace : Template.traceName beginning =
      attach (attach beginning "ResultsGenerator") "Trace" := by
    by_cases empty : beginning = ""
    · subst empty
      rfl
    · simp [Template.traceName, attach_eq, empty, String.append_assoc]
  have read := lastWord_name key beginning
  rw [same, trace, lastWord_attach _ (by decide) (by decide)] at read
  exact (endings_plain _ key.ending_mem_endings).2.2 read.symm

end ArtifactKey

end ErrorAccessors
