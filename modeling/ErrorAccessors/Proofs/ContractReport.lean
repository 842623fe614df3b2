/-
# What is reported of a set of files

The contract of marked methods can be said without the functions that decide it: a type is
called by its last name and shows the type arguments of that name, a result is called by the
result type, and a wrapper stands around one result.  The report of a set of files holds one
error for each marked method whose return type is not admitted, at the name of the method.
Names stand at different places, so the order of the report is determined by the files alone.
-/

import ErrorAccessors.Proofs.MethodPlaces
import ErrorAccessors.Proofs.ReportOrder
import ErrorAccessors.Proofs.TypeViews
import ErrorAccessors.ReturnContract
import Mathlib.Data.List.Perm.Basic

namespace ErrorAccessors

/-- A type that is no tuple and has no suffix is called by a name and has the type arguments
that stand behind the name.  Of a dotted name only the last part counts. -/
inductive TypeExpr.IsCalled : TypeExpr → String → List TypeExpr → Prop
  | keyword (word : String) (span : Span) : IsCalled (.predefined word span) word []
  | named (qualifier : Option String) (before : List NameSegment) (last : NameSegment)
      (span : Span) : IsCalled (.named qualifier (before ++ [last]) span) last.name last.arguments

theorem TypeExpr.isCalled_iff {type : TypeExpr} {name : String} {arguments : List TypeExpr} :
    type.IsCalled name arguments ↔
      TypeView.head? type = some name ∧ TypeView.arguments type = arguments := by
  constructor
  · intro called
    cases called with
    | keyword => exact ⟨rfl, rfl⟩
    | named => simp [TypeView.head?, TypeView.arguments]
  · rintro ⟨isHead, rfl⟩
    cases type with
    | predefined word span =>
        cases isHead
        exact .keyword _ span
    | named qualifier segments span =>
        obtain ⟨last, isLast, rfl⟩ := Option.map_eq_some_iff.mp isHead
        obtain ⟨before, rfl⟩ := List.getLast?_eq_some_iff.mp isLast
        simpa [TypeView.arguments] using IsCalled.named qualifier before last span
    | nullable inner span => cases isHead
    | array element rank span => cases isHead
    | pointer inner span => cases isHead
    | tuple elements span => cases isHead

namespace ResultGrammar

/-- A type is the result type, alone or with one value. -/
inductive IsResultType (grammar : ResultGrammar) (type : TypeExpr) : Prop
  | plain (called : type.IsCalled grammar.resultType [])
  | carrying {carried : TypeExpr} (called : type.IsCalled grammar.resultType [carried])

/-- A marked method may return a result under one wrapper and, unless it is asynchronous, a
result as it is. -/
inductive Admits (grammar : ResultGrammar) (isAsync : Bool) (type : TypeExpr) : Prop
  | direct (isSync : isAsync = false) (result : grammar.IsResultType type)
  | wrapped {wrapper : String} {inner : TypeExpr} (isWrapper : wrapper ∈ grammar.asyncWrappers)
      (called : type.IsCalled wrapper [inner]) (result : grammar.IsResultType inner)

variable {grammar : ResultGrammar} {type : TypeExpr} {isAsync : Bool}

theorem isResult_iff : grammar.isResult type = true ↔ grammar.IsResultType type := by
  rw [isResult, Bool.and_eq_true, beq_iff_eq, decide_eq_true_iff]
  constructor
  · rintro ⟨isHead, atMostOne⟩
    cases shown : TypeView.arguments type with
    | nil => exact .plain (TypeExpr.isCalled_iff.mpr ⟨isHead, shown⟩)
    | cons carried others =>
        have alone : others = [] := by simpa [shown] using atMostOne
        subst alone
        exact .carrying (TypeExpr.isCalled_iff.mpr ⟨isHead, shown⟩)
  · intro result
    cases result with
    | plain called =>
        obtain ⟨isHead, shown⟩ := TypeExpr.isCalled_iff.mp called
        exact ⟨isHead, by simp [shown]⟩
    | carrying called =>
        obtain ⟨isHead, shown⟩ := TypeExpr.isCalled_iff.mp called
        exact ⟨isHead, by simp [shown]⟩

/-- Under a wrapper stands one type. -/
theorem unwrap?_eq_some_iff_isCalled {inner : TypeExpr} :
    grammar.unwrap? type = some inner ↔
      ∃ wrapper ∈ grammar.asyncWrappers, type.IsCalled wrapper [inner] := by
  simp only [unwrap?_eq_some_iff, TypeExpr.isCalled_iff, Option.any_eq_true, isWrapper,
    List.contains_iff_mem]
  constructor
  · rintro ⟨⟨wrapper, isHead, isWrapper⟩, shown⟩
    exact ⟨wrapper, isWrapper, isHead, shown⟩
  · rintro ⟨wrapper, isWrapper, isHead, shown⟩
    exact ⟨⟨wrapper, isHead, isWrapper⟩, shown⟩

/-- Whether a type is admitted can be computed, also where a wrapper is the result type. -/
theorem admits_iff :
    grammar.Admits isAsync type ↔
      ((grammar.unwrap? type).any grammar.isResult || (!isAsync && grammar.isResult type)) =
        true := by
  simp only [Bool.or_eq_true, Option.any_eq_true, unwrap?_eq_some_iff_isCalled, isResult_iff,
    Bool.and_eq_true, Bool.not_eq_true']
  constructor
  · intro admitted
    cases admitted with
    | direct isSync result => exact .inr ⟨isSync, result⟩
    | wrapped isWrapper called result => exact .inl ⟨_, ⟨_, isWrapper, called⟩, result⟩
  · rintro (⟨inner, ⟨wrapper, isWrapper, called⟩, result⟩ | ⟨isSync, result⟩)
    · exact .wrapped isWrapper called result
    · exact .direct isSync result

instance : Decidable (grammar.Admits isAsync type) :=
  decidable_of_iff _ admits_iff.symm

/-- Where no wrapper is the result type, the return types that are let through are those that
are admitted. -/
theorem conforms_iff_admits (noWrapper : grammar.isWrapper grammar.resultType = false) :
    grammar.conforms type isAsync = true ↔ grammar.Admits isAsync type := by
  rw [admits_iff, conforms]
  cases unwraps : grammar.unwrap? type with
  | none => simp
  | some inner =>
      -- the type is called by a wrapper, so it is not called by the result type
      have noResult : grammar.isResult type = false := by
        rw [Bool.eq_false_iff]
        intro result
        obtain ⟨isHead, -⟩ := by simpa [isResult] using result
        obtain ⟨isWrapper, -⟩ := unwrap?_eq_some_iff.mp unwraps
        rw [isHead, Option.any_some, noWrapper] at isWrapper
        cases isWrapper
      simp [noResult]

end ResultGrammar

namespace MethodDecl

/-- A marked method breaks the contract if its return type is not admitted. -/
def BreaksContract (method : MethodDecl) (marker : Marker) (grammar : ResultGrammar) : Prop :=
  method.isMarked marker = true ∧ ¬ grammar.Admits method.isAsync method.returnType

instance (method : MethodDecl) (marker : Marker) (grammar : ResultGrammar) :
    Decidable (method.BreaksContract marker grammar) :=
  inferInstanceAs (Decidable (_ ∧ _))

/-- What is reported of a method that breaks the contract: an error at its name. -/
def contractReport (method : MethodDecl) (marker : Marker) (grammar : ResultGrammar) :
    Diagnostic where
  code := "E1001"
  severity := .error
  message := method.contractMessage marker grammar
  span := method.nameSpan
  suggestions := method.repairSuggestions grammar

theorem violation?_eq {grammar : ResultGrammar}
    (noWrapper : grammar.isWrapper grammar.resultType = false) (method : MethodDecl)
    (marker : Marker) :
    method.violation? marker grammar =
      if method.BreaksContract marker grammar then some (method.contractReport marker grammar)
      else none := by
  have state : method.contractState marker = .notAnnotated ↔ method.isMarked marker = false := by
    rw [contractState]
    cases method.isMarked marker <;> cases method.isAsync <;> simp
  simp only [violation?, state, ResultGrammar.conforms_iff_admits noWrapper, BreaksContract]
  by_cases marked : method.isMarked marker = true
  · by_cases admitted : grammar.Admits method.isAsync method.returnType
    · simp [marked, admitted]
    · simp only [marked, admitted, Bool.true_eq_false, not_false_eq_true, and_self, if_true,
        if_false]
      rfl
  · simp [marked]

end MethodDecl

/-- The errors of the methods of a file that break the contract, in the order of the
methods. -/
def SourceUnit.contractReports (unit : SourceUnit) (marker : Marker) (grammar : ResultGrammar) :
    List Diagnostic :=
  (unit.methods.filter (·.BreaksContract marker grammar)).map (·.contractReport marker grammar)

namespace SourceUnit

variable {unit : SourceUnit} {marker : Marker} {grammar : ResultGrammar}

/-- What is reported of a file are the errors of the methods that break the contract. -/
theorem violations_eq (noWrapper : grammar.isWrapper grammar.resultType = false) :
    unit.violations marker grammar = Diagnostic.sort (unit.contractReports marker grammar) := by
  rw [violations, contractReports, ← List.filterMap_eq_filter, List.map_filterMap]
  congr 2
  funext method
  rw [MethodDecl.violation?_eq noWrapper, Option.guard]
  by_cases breaks : method.BreaksContract marker grammar <;> simp [breaks]

/-- An error of a parsed file names the file. -/
theorem file_of_mem_contractReports (parsed : unit.IsParsed) {diagnostic : Diagnostic}
    (member : diagnostic ∈ unit.contractReports marker grammar) :
    diagnostic.span.file = unit.path := by
  obtain ⟨text, path, parsed⟩ := parsed
  obtain ⟨method, breaks, rfl⟩ := List.mem_map.mp member
  have stands := standsIn_of_parse parsed method (List.mem_of_mem_filter breaks)
  rw [path_of_parse parsed]
  exact congrArg Span.file stands.name.computed

/-- The errors of a parsed file stand at different places. -/
theorem pairwise_contractReports (parsed : unit.IsParsed) :
    (unit.contractReports marker grammar).Pairwise Diagnostic.Apart := by
  obtain ⟨text, path, parsed⟩ := parsed
  rw [contractReports, List.pairwise_map]
  refine ((pairwise_name_of_parse parsed).filter _).imp ?_
  intro method later before _
  exact before.ne

end SourceUnit

namespace ReturnContract

variable {units : List SourceUnit} {marker : Marker} {grammar : ResultGrammar}

/-- What is reported of a set of files are the errors of all methods that break the
contract. -/
theorem violations_eq (noWrapper : grammar.isWrapper grammar.resultType = false) :
    violations units marker grammar = Diagnostic.sort
      (units.flatMap fun unit => Diagnostic.sort (unit.contractReports marker grammar)) := by
  simp only [violations, SourceUnit.violations_eq noWrapper]

/-- The errors of parsed files of different paths stand at different places. -/
theorem pairwise_contractReports (parsed : ∀ unit ∈ units, unit.IsParsed)
    (differ : units.Pairwise fun unit other => Path.compare unit.path other.path ≠ .eq) :
    (units.flatMap fun unit => unit.contractReports marker grammar).Pairwise Diagnostic.Apart := by
  refine List.pairwise_flatMap.mpr ⟨?_, ?_⟩
  · intro unit member
    exact SourceUnit.pairwise_contractReports (parsed unit member)
  · apply differ.imp_of_mem
    intro unit other member otherMember differ first isFirst second isSecond sameFile
    rw [SourceUnit.file_of_mem_contractReports (parsed unit member) isFirst,
      SourceUnit.file_of_mem_contractReports (parsed other otherMember) isSecond] at sameFile
    exact absurd sameFile differ

/-- Errors may be sorted file by file before all of them are. -/
theorem perm_contractReports :
    (units.flatMap fun unit => Diagnostic.sort (unit.contractReports marker grammar)).Perm
      (units.flatMap fun unit => unit.contractReports marker grammar) :=
  List.Perm.flatMap_left _ fun _ _ => Diagnostic.sort_perm _

/-- For files with different paths, exactly the marked methods with a return type that is not
admitted are reported, each once and at its name; the report is in the order of files and
places, and the order in which the files are given does not show. -/
theorem violations_of_units (parsed : ∀ unit ∈ units, unit.IsParsed)
    (differ : units.Pairwise fun unit other => Path.compare unit.path other.path ≠ .eq)
    (noWrapper : grammar.isWrapper grammar.resultType = false) (marker : Marker) :
    (violations units marker grammar).Perm
        (((units.flatMap SourceUnit.methods).filter (·.BreaksContract marker grammar)).map
          (·.contractReport marker grammar)) ∧
      (violations units marker grammar).Pairwise Diagnostic.ReportedBefore ∧
      ∀ reordered : List SourceUnit, reordered.Perm units →
        violations reordered marker grammar = violations units marker grammar := by
  have apart : (units.flatMap fun unit => unit.contractReports marker grammar).Pairwise
      Diagnostic.Apart := pairwise_contractReports parsed differ
  have sorted (reordered : List SourceUnit) (same : reordered.Perm units) :
      violations reordered marker grammar =
        Diagnostic.sort (units.flatMap fun unit => unit.contractReports marker grammar) := by
    rw [violations_eq noWrapper]
    apply Diagnostic.sort_eq_of_perm apart
    exact perm_contractReports.trans (same.flatMap_right _)
  refine ⟨?_, ?_, ?_⟩
  · rw [sorted units (.refl _), List.filter_flatMap, List.map_flatMap]
    exact Diagnostic.sort_perm _
  · rw [sorted units (.refl _)]
    exact Diagnostic.pairwise_sort apart
  · intro reordered same
    rw [sorted reordered same, sorted units (.refl _)]

/-- A class with two marked methods that break the contract. -/
private def twoBreaches : String :=
  "class T \x7b [ErrorResult(1)] int One() => 1; [ErrorResult(2)] async Result Two() => null; \x7d"

/-- Two files are reported in the order of their names. -/
theorem violations_of_two_files :
    ∃ first second, SourceUnit.parse twoBreaches "B.cs" = .ok first ∧
      SourceUnit.parse twoBreaches "A.cs" = .ok second ∧
      ((first.methods ++ second.methods).filter (·.BreaksContract {} {})).map (·.name) =
        ["One", "Two", "One", "Two"] ∧
      (violations [first, second] {} {}).Pairwise Diagnostic.ReportedBefore ∧
      violations [second, first] {} {} = violations [first, second] {} {} := by
  have seen (path : String) (isPath : path = "B.cs" ∨ path = "A.cs") :
      (SourceUnit.parse twoBreaches path).toOption.map
        (fun unit => (unit.methods.filter (·.BreaksContract {} {})).map (·.name)) =
          some ["One", "Two"] := by
    obtain rfl | rfl := isPath <;> decide +kernel
  obtain ⟨first, isFirst, -, names⟩ := SourceUnit.exists_of_parse (seen "B.cs" (.inl rfl))
  obtain ⟨second, isSecond, -, otherNames⟩ := SourceUnit.exists_of_parse (seen "A.cs" (.inr rfl))
  have parsed : ∀ unit ∈ [first, second], unit.IsParsed := by
    simp only [List.forall_mem_cons, List.not_mem_nil, false_implies, implies_true, and_true]
    exact ⟨⟨_, _, isFirst⟩, ⟨_, _, isSecond⟩⟩
  have differ : [first, second].Pairwise fun unit other =>
      Path.compare unit.path other.path ≠ .eq := by
    rw [List.pairwise_pair, SourceUnit.path_of_parse isFirst, SourceUnit.path_of_parse isSecond]
    decide
  have noWrapper : ResultGrammar.isWrapper {} (ResultGrammar.resultType {}) = false := by decide
  obtain ⟨-, ordered, reordered⟩ := violations_of_units parsed differ noWrapper {}
  refine ⟨first, second, isFirst, isSecond, ?_, ordered, reordered _ (.swap _ _ _)⟩
  rw [List.filter_append, List.map_append, names, otherNames]
  rfl

end ReturnContract

end ErrorAccessors
