/-
# Suggestions and repairs agree

A violation suggests the repair of the method that it was found at, while a repair is asked
for at an offset.  The offset at which a violation is reported leads back to the method, so
both give the same edit.  The edits that are suggested for a file replace return types, which
do not meet, and applying all of them is repairing the file at all of its violations.
-/

import ErrorAccessors.Proofs.AppliedEdits
import ErrorAccessors.Proofs.MethodPlaces
import ErrorAccessors.ReturnContract

namespace ErrorAccessors

/-- The edits of all suggestions of a diagnostic. -/
def Diagnostic.suggestedEdits (diagnostic : Diagnostic) : List Edit :=
  diagnostic.suggestions.flatMap (·.edits)

namespace MethodDecl

variable {method : MethodDecl} {marker : Marker} {grammar : ResultGrammar}
  {diagnostic : Diagnostic}

/-- A violation is reported at the name of a method and suggests its repair. -/
theorem violation?_eq_some (violates : method.violation? marker grammar = some diagnostic) :
    diagnostic.span = method.nameSpan ∧
      diagnostic.suggestions = method.repairSuggestions grammar := by
  rw [violation?] at violates
  split at violates
  · cases violates
  · split at violates
    · cases violates
    · cases violates
      exact ⟨rfl, rfl⟩

/-- A repair is suggested if there is one. -/
theorem repairSuggestions_of_repair {edit : Edit} (repairs : method.repair grammar = .ok edit) :
    method.repairSuggestions grammar = [⟨"Fix return type", [edit]⟩] := by
  rw [repairSuggestions, repairs]

theorem exists_repair (suggests : method.repairSuggestions grammar ≠ []) :
    ∃ edit, method.repair grammar = .ok edit := by
  cases repaired : method.repair grammar with
  | error reason => simp [repairSuggestions, repaired] at suggests
  | ok edit => exact ⟨edit, rfl⟩

/-- A repair replaces the return type. -/
theorem span_of_repair {edit : Edit} (repairs : method.repair grammar = .ok edit) :
    edit.span = method.returnType.span := by
  simp only [repair] at repairs
  split at repairs
  · cases repairs
  · split at repairs
    · cases repairs
      rfl
    · cases repairs

/-- What a violation suggests is at most one edit, and it replaces the return type. -/
theorem suggestedEdits_of_violation?
    (violates : method.violation? marker grammar = some diagnostic) :
    diagnostic.suggestedEdits = [] ∨
      ∃ edit, diagnostic.suggestedEdits = [edit] ∧ edit.span = method.returnType.span := by
  rw [Diagnostic.suggestedEdits, (violation?_eq_some violates).2]
  by_cases suggests : method.repairSuggestions grammar = []
  · exact .inl (by rw [suggests]; rfl)
  · obtain ⟨edit, repairs⟩ := exists_repair suggests
    refine .inr ⟨edit, ?_, span_of_repair repairs⟩
    rw [repairSuggestions_of_repair repairs]
    rfl

theorem span_of_mem_suggestedEdits (violates : method.violation? marker grammar = some diagnostic)
    {edit : Edit} (member : edit ∈ diagnostic.suggestedEdits) :
    edit.span = method.returnType.span := by
  obtain none | ⟨only, one, isType⟩ := suggestedEdits_of_violation? violates
  · rw [none] at member
    cases member
  · rw [one] at member
    rw [List.mem_singleton.mp member, isType]

end MethodDecl

namespace SourceUnit

variable {text path : String} {unit : SourceUnit} {marker : Marker} {grammar : ResultGrammar}

/-- Where a violation is reported, the method that it was found at is repaired. -/
theorem repairAt_violation (parsed : parse text path = .ok unit) {diagnostic : Diagnostic}
    (member : diagnostic ∈ unit.violations marker grammar) :
    ∃ method ∈ unit.methods, method.violation? marker grammar = some diagnostic ∧
      unit.repairAt grammar false diagnostic.span.start.offset = method.repair grammar := by
  have found := (Diagnostic.sort_perm _).mem_iff.mp member
  obtain ⟨method, inUnit, violates⟩ := List.mem_filterMap.mp found
  refine ⟨method, inUnit, violates, ?_⟩
  rw [(MethodDecl.violation?_eq_some violates).1, repairAt, methodAt?_name parsed inUnit]
  rfl

/-- The edits that are suggested at different violations do not meet. -/
theorem pairwise_violations (parsed : parse text path = .ok unit) :
    (unit.violations marker grammar).Pairwise fun first second =>
      ∀ edit ∈ first.suggestedEdits, ∀ other ∈ second.suggestedEdits, edit.Apart other := by
  refine (Diagnostic.sort_perm _).symm.pairwise ?_ ?_
  · rw [List.pairwise_filterMap]
    apply (pairwise_precedes_of_parse parsed).imp_of_mem
    intro method later inUnit laterInUnit precedes first isFirst second isSecond
    have here := (standsIn_of_parse parsed method inUnit).typeInside
    have there := (standsIn_of_parse parsed later laterInUnit).typeInside
    intro edit isEdit other isOther
    refine .inl ?_
    rw [MethodDecl.span_of_mem_suggestedEdits isFirst isEdit,
      MethodDecl.span_of_mem_suggestedEdits isSecond isOther]
    exact precedes.of_inside here there
  · intro first second apart edit isEdit other isOther
    exact (apart other isOther edit isEdit).symm

/-- The edits that are suggested for a parsed text can be applied to it. -/
theorem applyAll?_suggestedEdits (marker : Marker) (grammar : ResultGrammar)
    (parsed : parse text path = .ok unit) :
    ∃ fixed, Edit.applyAll? text
      ((unit.violations marker grammar).flatMap Diagnostic.suggestedEdits) = some fixed := by
  have areIn : ∀ edit ∈ (unit.violations marker grammar).flatMap Diagnostic.suggestedEdits,
      edit.IsIn (.ofText path text) := by
    intro edit member
    obtain ⟨diagnostic, isReported, isEdit⟩ := List.mem_flatMap.mp member
    obtain ⟨method, inUnit, violates, -⟩ := repairAt_violation parsed isReported
    have stands := standsIn_of_parse parsed method inUnit
    have isType := MethodDecl.span_of_mem_suggestedEdits violates isEdit
    exact ⟨isType ▸ stands.type.start, isType ▸ stands.type.stop, isType ▸ stands.typed⟩
  apply Edit.applyAll?_of_apart areIn
  apply List.pairwise_flatMap.mpr
  constructor
  · intro diagnostic isReported
    obtain ⟨method, -, violates, -⟩ := repairAt_violation parsed isReported
    obtain none | ⟨edit, one, -⟩ := MethodDecl.suggestedEdits_of_violation? violates
    · rw [none]
      exact .nil
    · rw [one]
      exact List.pairwise_singleton _ _
  · exact pairwise_violations parsed

/-- Where a repair is suggested at each of some diagnostics, repairing a file at all of them
takes the suggested edits. -/
theorem repairs_of_suggestions {diagnostics : List Diagnostic}
    (each : ∀ diagnostic ∈ diagnostics, ∃ edit, diagnostic.suggestedEdits = [edit] ∧
      unit.repairAt grammar false diagnostic.span.start.offset = .ok edit) :
    unit.repairs grammar false (diagnostics.map (·.span.start.offset)) =
      .ok (diagnostics.flatMap Diagnostic.suggestedEdits) := by
  induction diagnostics with
  | nil => rfl
  | cons diagnostic rest ih =>
      obtain ⟨here, there⟩ := List.forall_mem_cons.mp each
      obtain ⟨edit, suggests, repairs⟩ := here
      rw [List.map_cons, SourceUnit.repairs, repairs, ih there, List.flatMap_cons, suggests]
      rfl

/-- What a violation of a parsed text suggests is what the repair at its offset gives. -/
theorem suggestions_iff_repairAt (parsed : parse text path = .ok unit) {diagnostic : Diagnostic}
    (member : diagnostic ∈ unit.violations marker grammar) {edit : Edit} :
    diagnostic.suggestions = [⟨"Fix return type", [edit]⟩] ↔
      unit.repairAt grammar false diagnostic.span.start.offset = .ok edit := by
  obtain ⟨method, -, violates, repairs⟩ := repairAt_violation parsed member
  rw [repairs, (MethodDecl.violation?_eq_some violates).2]
  constructor
  · intro suggests
    obtain ⟨other, isRepair⟩ := MethodDecl.exists_repair (suggests ▸ List.cons_ne_nil _ _)
    rw [MethodDecl.repairSuggestions_of_repair isRepair] at suggests
    cases suggests
    exact isRepair
  · exact MethodDecl.repairSuggestions_of_repair

/-- A violation of a parsed text carries a suggestion just if there is a repair at its offset. -/
theorem suggests_iff_repairable (parsed : parse text path = .ok unit) {diagnostic : Diagnostic}
    (member : diagnostic ∈ unit.violations marker grammar) :
    diagnostic.suggestions ≠ [] ↔
      ∃ edit, unit.repairAt grammar false diagnostic.span.start.offset = .ok edit := by
  obtain ⟨method, -, violates, repairs⟩ := repairAt_violation parsed member
  rw [repairs, (MethodDecl.violation?_eq_some violates).2]
  constructor
  · exact MethodDecl.exists_repair
  · rintro ⟨edit, isRepair⟩
    rw [MethodDecl.repairSuggestions_of_repair isRepair]
    exact List.cons_ne_nil _ _

/-- A violation of a parsed text carries a suggestion just if there is a repair at its offset,
and then it suggests this repair alone.  If all violations carry suggestions, repairing a text
at all of their offsets is applying all that they suggest, and the text that was parsed is
changed by that without cutting a character. -/
theorem violations_suggest_repairs (parsed : parse text path = .ok unit) (marker : Marker)
    (grammar : ResultGrammar) :
    (∀ diagnostic ∈ unit.violations marker grammar,
      (diagnostic.suggestions ≠ [] ↔
        ∃ edit, unit.repairAt grammar false diagnostic.span.start.offset = .ok edit) ∧
      ∀ edit, unit.repairAt grammar false diagnostic.span.start.offset = .ok edit →
        diagnostic.suggestions = [⟨"Fix return type", [edit]⟩]) ∧
    ((∀ diagnostic ∈ unit.violations marker grammar, diagnostic.suggestions ≠ []) →
      (∃ fixed,
        Edit.applyAll? text ((unit.violations marker grammar).flatMap Diagnostic.suggestedEdits) =
          some fixed ∧
        unit.repaired grammar text false
          ((unit.violations marker grammar).map (·.span.start.offset)) = .ok fixed) ∧
      ∀ source, unit.repaired grammar source false
          ((unit.violations marker grammar).map (·.span.start.offset)) =
        .ok (Edit.applied source
          ((unit.violations marker grammar).flatMap Diagnostic.suggestedEdits))) := by
  constructor
  · intro diagnostic member
    exact ⟨suggests_iff_repairable parsed member,
      fun edit => (suggestions_iff_repairAt parsed member).mpr⟩
  · intro allSuggest
    have taken : unit.repairs grammar false
        ((unit.violations marker grammar).map (·.span.start.offset)) =
          .ok ((unit.violations marker grammar).flatMap Diagnostic.suggestedEdits) := by
      apply repairs_of_suggestions
      intro diagnostic member
      obtain ⟨edit, isRepair⟩ :=
        (suggests_iff_repairable parsed member).mp (allSuggest diagnostic member)
      have suggests := (suggestions_iff_repairAt parsed member).mpr isRepair
      refine ⟨edit, ?_, isRepair⟩
      rw [Diagnostic.suggestedEdits, suggests]
      rfl
    have applied (source : String) : unit.repaired grammar source false
        ((unit.violations marker grammar).map (·.span.start.offset)) =
          .ok (Edit.applied source
            ((unit.violations marker grammar).flatMap Diagnostic.suggestedEdits)) := by
      rw [repaired, taken]
      rfl
    obtain ⟨fixed, applies⟩ := applyAll?_suggestedEdits marker grammar parsed
    refine ⟨⟨fixed, applies, ?_⟩, applied⟩
    rw [applied, Edit.applied, applies]
    rfl

/-- Two marked methods without a blank between them. -/
private def closeMethods : String :=
  "class T \x7b [ErrorResult(1)]int One()=>1;[ErrorResult(2)]async void Two()\x7b\x7d \x7d"

/-- Both of them are repaired as it is suggested. -/
theorem violations_suggest_repairs_of_close_methods :
    ∃ unit, parse closeMethods "T.cs" = .ok unit ∧
      unit.methods.map (fun method => ((method.violation? {} {}).isSome,
        (method.repairSuggestions {}).map (·.edits.map (·.replacement)))) =
          [(true, [["Result<int>"]]), (true, [["Task<Result>"]])] ∧
      ∃ fixed,
        Edit.applyAll? closeMethods ((unit.violations {} {}).flatMap Diagnostic.suggestedEdits) =
          some fixed ∧
        unit.repaired {} closeMethods false
          ((unit.violations {} {}).map (·.span.start.offset)) = .ok fixed := by
  have seen : (parse closeMethods "T.cs").toOption.map
      (fun unit => unit.methods.map fun method => ((method.violation? {} {}).isSome,
        (method.repairSuggestions {}).map (·.edits.map (·.replacement)))) =
          some [(true, [["Result<int>"]]), (true, [["Task<Result>"]])] := by decide +kernel
  obtain ⟨unit, isUnit, -, views⟩ := exists_of_parse seen
  have allSuggest : ∀ diagnostic ∈ unit.violations {} {}, diagnostic.suggestions ≠ [] := by
    intro diagnostic member none
    obtain ⟨method, inUnit, violates, -⟩ := repairAt_violation isUnit member
    rw [(MethodDecl.violation?_eq_some violates).2] at none
    have among := List.mem_map_of_mem (f := fun method : MethodDecl =>
      ((method.violation? {} {}).isSome,
        (method.repairSuggestions {}).map (·.edits.map (·.replacement)))) inUnit
    rw [views, none] at among
    simp at among
  obtain ⟨-, all⟩ := violations_suggest_repairs isUnit {} {}
  obtain ⟨repaired, -⟩ := all allSuggest
  exact ⟨unit, isUnit, views, repaired⟩

end SourceUnit

end ErrorAccessors
