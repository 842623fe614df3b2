/-
# Every type that was read can be spelled again

A bound type without a name and without elements would be spelled by the empty
text, and a method that returns one could not be generated for.  Binding a
proper type never gives such a type, whatever it finds for the names in it: a
declaration has a name because the type declarations of an outline have, and the
target of an alias was read like any other type.
-/

import ErrorAccessors.Proofs.BindingLaws
import ErrorAccessors.Proofs.ProperOutline
import ErrorAccessors.Proofs.SiteLookup
import ErrorAccessors.Proofs.TypeViews

namespace ErrorAccessors

/-- A bound type that has a name unless it is a tuple, and no type arguments if it
is a type parameter, as it is with its type arguments. -/
inductive BoundType.IsProper : BoundType → Prop
  | mk {type : BoundType} (named : type.elements = [] → type.name ≠ "")
      (bare : type.isParameter = true → type.arguments = [])
      (arguments : ∀ argument ∈ type.arguments, IsProper argument) : IsProper type

namespace BoundType

theorem IsProper.arguments {type : BoundType} (proper : type.IsProper) :
    ∀ argument ∈ type.arguments, argument.IsProper := by
  obtain ⟨-, -, arguments⟩ := proper
  exact arguments

theorem IsProper.bare {type : BoundType} (proper : type.IsProper)
    (isParameter : type.isParameter = true) : type.arguments = [] := by
  obtain ⟨-, bare, -⟩ := proper
  exact bare isParameter

theorem isProper_simple {name : String} (nonempty : name ≠ "") : (simple name).IsProper :=
  .mk (fun _ => nonempty) nofun (List.forall_mem_nil _)

theorem IsProper.withSuffix {type : BoundType} (proper : type.IsProper) (suffix : String) :
    (type.withSuffix suffix).IsProper := by
  obtain ⟨named, bare, arguments⟩ := proper
  exact .mk named bare arguments

/-- What a proper type carries is proper. -/
theorem IsProper.of_payload {grammar : ResultGrammar} {type carried : BoundType}
    (proper : type.IsProper) (isCarried : (grammar.payload type).type? = some carried) :
    carried.IsProper := by
  have shown {outer argument : BoundType} (proper : outer.IsProper)
      (arguments : TypeView.arguments outer = [argument]) : argument.IsProper :=
    proper.arguments argument (mem_arguments_of_view (arguments ▸ List.mem_cons_self))
  obtain ⟨outer, rfl | isArgument, arguments⟩ := ResultGrammar.exists_of_payload isCarried
  · exact shown proper arguments
  · exact shown (shown proper isArgument) arguments

/-- A proper type is not spelled by the empty text. -/
theorem IsProper.render_ne_empty {type : BoundType} (proper : type.IsProper)
    (generics : List String) : type.render generics ≠ "" := by
  obtain ⟨name, space, container, arguments, elements, suffix, isParameter⟩ := type
  obtain ⟨named, -, -⟩ := proper
  cases elements with
  | cons element rest => simp [render]
  | nil =>
      have nonempty : name ≠ "" := named rfl
      cases arguments with
      | nil => rw [render]; split <;> simp [nonempty]
      | cons argument rest => simp [render]

end BoundType

section Binding

variable {types : List DeclaredType} {scope : Scope} {expandAlias : String → Option BoundType}

theorem BoundSegment.isProper_asWritten (qualifier : Option String) (before : List BoundSegment)
    {last : BoundSegment} (named : last.name ≠ "")
    (arguments : ∀ argument ∈ last.arguments, argument.IsProper) :
    (asWritten qualifier before last).IsProper := by
  refine .mk (fun _ => ?_) nofun arguments
  cases qualifier with
  | none => exact named
  | some word =>
      show (if _ then word ++ "::" ++ last.name else last.name) ≠ ""
      split <;> simp [named]

/-- Whatever a name of proper parts means is proper. -/
theorem BoundSegment.Resolves.isProper {qualifier : Option String} {segments : List BoundSegment}
    {type : BoundType} (resolves : Resolves types scope expandAlias qualifier segments type)
    (proper : ∀ segment ∈ segments,
      segment.name ≠ "" ∧ ∀ argument ∈ segment.arguments, argument.IsProper)
    (named : ∀ declared ∈ types, declared.name ≠ "")
    (aliases : ∀ name target, expandAlias name = some target → target.IsProper) :
    type.IsProper := by
  cases resolves with
  | @parameter name known =>
      exact .mk (fun _ => (proper _ List.mem_cons_self).1) (fun _ => rfl) (List.forall_mem_nil _)
  | @aliased name target unknown expands => exact aliases name type expands
  | @declared qualifier before last head notPlain found =>
      obtain ⟨_, isFound, member⟩ := List.exists_of_findSome?_eq_some found
      exact .mk (fun _ => named head (List.mem_of_find?_eq_some member)) nofun
        (proper last (by simp)).2
  | @written qualifier before last notPlain undeclared =>
      obtain ⟨nonempty, arguments⟩ := proper last (by simp)
      exact isProper_asWritten qualifier before nonempty arguments

/-- Binding a proper type gives a proper type, as long as declarations have
names and aliases stand for proper types. -/
theorem TypeExpr.IsProper.bindWith {type : TypeExpr} (proper : type.IsProper)
    (named : ∀ declared ∈ types, declared.name ≠ "")
    (aliases : ∀ name target, expandAlias name = some target → target.IsProper) :
    (type.bindWith types scope expandAlias).IsProper := by
  induction proper with
  | @predefined keyword span known =>
      rw [bindWith_predefined]
      refine BoundType.isProper_simple ?_
      rintro rfl
      simp [TypeExpr.keywords] at known
  | nullable _ ih => rw [bindWith_nullable]; exact ih.withSuffix _
  | pointer _ ih => rw [bindWith_pointer]; exact ih.withSuffix _
  | array _ ih => rw [bindWith_array]; exact ih.withSuffix _
  | @tuple elements span some _ _ =>
      rw [bindWith_tuple]
      exact .mk (fun none => absurd (List.map_eq_nil_iff.mp none) some) nofun
        (List.forall_mem_nil _)
  | @named qualifier segments span some words _ ih =>
      rw [bindWith_named]
      refine (BoundSegment.resolves_resolve _ _ _ _ (by simpa using some)).isProper ?_ named aliases
      refine List.forall_mem_map.mpr fun segment member => ⟨(words segment member).ne_empty, ?_⟩
      exact List.forall_mem_map.mpr (ih segment member)

/-- Aliases stand for proper types, because a target that is no type stands for
nothing. -/
theorem Scope.isProper_of_expandAlias (named : ∀ declared ∈ types, declared.name ≠ "")
    {name : String} {target : BoundType} (expands : scope.expandAlias types name = some target) :
    target.IsProper := by
  obtain ⟨text, _, isTarget⟩ := Option.bind_eq_some_iff.mp expands
  split at isTarget
  · next type parsed =>
    cases isTarget
    exact (TypeExpr.isWellFormed_of_parse parsed).isProper.bindWith named nofun
  · cases isTarget

theorem TypeExpr.IsProper.bind {type : TypeExpr} (proper : type.IsProper)
    (named : ∀ declared ∈ types, declared.name ≠ "") : (type.bind types scope).IsProper :=
  proper.bindWith named fun _ _ => Scope.isProper_of_expandAlias named

end Binding

/-- A file whose outline was read from some text. -/
def SourceUnit.IsParsed (unit : SourceUnit) : Prop :=
  ∃ text path, SourceUnit.parse text path = .ok unit

/-- What is seen of the outline of a text is seen of a parsed file. -/
theorem SourceUnit.exists_of_parse {α : Type} {text path : String} {view : SourceUnit → α}
    {seen : α} (isSeen : (SourceUnit.parse text path).toOption.map view = some seen) :
    ∃ unit, SourceUnit.parse text path = .ok unit ∧ (∀ other ∈ [unit], other.IsParsed) ∧
      view unit = seen := by
  cases parsed : SourceUnit.parse text path with
  | error diagnostics => simp [parsed, Except.toOption] at isSeen
  | ok unit =>
      rw [parsed] at isSeen
      exact ⟨unit, rfl, List.forall_mem_singleton.mpr ⟨text, path, parsed⟩, Option.some.inj isSeen⟩

section Units

variable {units : List SourceUnit}

/-- The type declarations of parsed files are proper. -/
theorem SourceUnit.isProper_of_mem (parsed : ∀ unit ∈ units, unit.IsParsed) :
    ∀ type ∈ units.flatMap SourceUnit.types, type.IsProper := by
  intro type member
  obtain ⟨unit, inUnits, inUnit⟩ := List.mem_flatMap.mp member
  obtain ⟨text, path, isUnit⟩ := parsed unit inUnits
  exact SourceUnit.isProper_of_parse isUnit type inUnit

/-- The heads of what parsed files declare are named by words. -/
theorem TypeTable.isWord_of_mem_heads (parsed : ∀ unit ∈ units, unit.IsParsed) :
    ∀ head ∈ heads (units.flatMap SourceUnit.types), Lexeme.IsWord head.name.toList := by
  intro head member
  obtain ⟨type, declared, rfl⟩ := TypeTable.exists_of_mem_heads member
  exact (SourceUnit.isProper_of_mem parsed type declared).name

/-- Every method of parsed files returns a proper type. -/
theorem PlacedMethod.isProper_of_mem (parsed : ∀ unit ∈ units, unit.IsParsed)
    {placed : PlacedMethod} (member : placed ∈ PlacedMethod.ofUnits units) :
    placed.method.returnType.IsProper := by
  obtain ⟨type, declared, inType⟩ := List.mem_flatMap.mp member
  obtain ⟨method, own, rfl⟩ := List.mem_map.mp inType
  exact ((SourceUnit.isProper_of_mem parsed type declared).methods method own).returnType.isProper

end Units

end ErrorAccessors
