/-
# Bound types are spelled like types

A bound type is spelled from names that were read and from names of declarations, with
dots, brackets and suffixes between them.  However the type was bound, its spelling is
code on one line that the layout keeps, all brackets in it match, and blanks stand in it
where they stand in the canonical spelling of a type.
-/

import ErrorAccessors.Proofs.ProperBinding
import ErrorAccessors.Proofs.SpacedTypes

namespace ErrorAccessors

theorem IsDottedName.isTypeCode {name first : String} {others : List String}
    (isName : IsDottedName name first others) : IsTypeCode name := by
  rw [isName.isName]
  exact .intercalate_dot (List.cons_ne_nil _ _) fun word member => .word (isName.words word member)

/-- A bound type whose parts are all put together like types. -/
inductive BoundType.IsSpelled : BoundType → Prop
  | mk {type : BoundType} (name : type.elements = [] → IsTypeCode type.name)
      (space : ∀ qualifier ∈ type.space, IsTypeCode qualifier)
      (container : ∀ qualifier ∈ type.container, IsTypeCode qualifier)
      (suffix : IsTypeSuffix type.suffix)
      (arguments : ∀ argument ∈ type.arguments, IsSpelled argument)
      (elements : ∀ element ∈ type.elements, IsSpelled element.type)
      (elementNames : ∀ element ∈ type.elements, ∀ name ∈ element.name, Lexeme.IsWord name.toList) :
      IsSpelled type

namespace BoundType

section Rendering

variable {generics : List String}

/-- A name behind its namespace and the types around it. -/
private theorem isTypeCode_qualified {space container : Option String} {name : String}
    (isSpace : ∀ word ∈ space, IsTypeCode word) (isContainer : ∀ word ∈ container, IsTypeCode word)
    (isName : IsTypeCode name) :
    IsTypeCode (qualifierText space ++ qualifierText container ++ name) := by
  have behind {qualifier : Option String} {text : String}
      (isQualifier : ∀ word ∈ qualifier, IsTypeCode word)
      (isTypeCode : IsTypeCode text) : IsTypeCode (qualifierText qualifier ++ text) := by
    cases qualifier with
    | none => rwa [qualifierText, String.empty_append]
    | some word => exact (isQualifier word rfl).append_dot isTypeCode
  rw [String.append_assoc]
  exact behind isSpace (behind isContainer isName)

private theorem isTypeCode_renderList {types : List BoundType} (some : types ≠ [])
    (areTypes : ∀ type ∈ types, IsTypeCode (type.render generics)) :
    IsTypeCode (renderList generics types) := by
  induction types with
  | nil => exact absurd rfl some
  | cons first others ih =>
      obtain ⟨isFirst, areOthers⟩ := List.forall_mem_cons.mp areTypes
      cases others with
      | nil => rwa [renderList]
      | cons second others =>
          rw [renderList]
          exact isFirst.append_comma (ih (List.cons_ne_nil _ _) areOthers)

private theorem isTypeCode_renderElement {element : BoundElement}
    (isTypeCode : IsTypeCode (element.type.render generics))
    (words : ∀ name ∈ element.name, Lexeme.IsWord name.toList) :
    IsTypeCode (element.render generics) := by
  obtain ⟨type, name⟩ := element
  cases name with
  | none => rwa [BoundElement.render]
  | some name =>
      rw [BoundElement.render]
      exact isTypeCode.spaced_word (words name rfl)

private theorem isTypeCode_renderElements {elements : List BoundElement} (some : elements ≠ [])
    (areTypes : ∀ element ∈ elements, IsTypeCode (element.render generics)) :
    IsTypeCode (BoundElement.renderList generics elements) := by
  induction elements with
  | nil => exact absurd rfl some
  | cons first others ih =>
      obtain ⟨isFirst, areOthers⟩ := List.forall_mem_cons.mp areTypes
      cases others with
      | nil => rwa [BoundElement.renderList]
      | cons second others =>
          rw [BoundElement.renderList]
          exact isFirst.append_comma (ih (List.cons_ne_nil _ _) areOthers)

/-- The spelling of a type whose parts are code is code. -/
theorem IsSpelled.isTypeCode_render {type : BoundType} (spelled : type.IsSpelled)
    (generics : List String) : IsTypeCode (type.render generics) := by
  induction spelled with
  | @mk type isName isSpace isContainer suffix _ _ elementNames ihArguments ihElements =>
      obtain ⟨name, space, container, arguments, elements, rest, isParameter⟩ := type
      cases elements with
      | cons element others =>
          rw [render]
          refine IsTypeCode.append_suffix (.parenthesized ?_) suffix
          exact isTypeCode_renderElements (List.cons_ne_nil _ _) fun element member =>
            isTypeCode_renderElement (ihElements element member) (elementNames element member)
      | nil =>
          have named := isName rfl
          cases arguments with
          | nil =>
              rw [render]
              split
              · exact named.append_suffix suffix
              · exact (isTypeCode_qualified isSpace isContainer named).append_suffix suffix
          | cons argument others =>
              have inside := isTypeCode_renderList (List.cons_ne_nil _ _) ihArguments
              rw [render]
              exact ((isTypeCode_qualified isSpace isContainer named).angled inside).append_suffix
                suffix

end Rendering

variable {type : BoundType}

theorem IsSpelled.arguments (spelled : type.IsSpelled) :
    ∀ argument ∈ type.arguments, argument.IsSpelled := by
  obtain ⟨-, -, -, -, arguments, -, -⟩ := spelled
  exact arguments

theorem isSpelled_simple {name : String} (isTypeCode : IsTypeCode name) : (simple name).IsSpelled :=
  .mk (fun _ => isTypeCode) nofun nofun (.inl rfl) (List.forall_mem_nil _) (List.forall_mem_nil _)
    (List.forall_mem_nil _)

theorem isSpelled_parameter {name : String} (isTypeCode : IsTypeCode name) :
    (parameter name).IsSpelled :=
  .mk (fun _ => isTypeCode) nofun nofun (.inl rfl) (List.forall_mem_nil _) (List.forall_mem_nil _)
    (List.forall_mem_nil _)

theorem IsSpelled.withSuffix (spelled : type.IsSpelled) {suffix : String}
    (isSuffix : IsTypeSuffix suffix) : (type.withSuffix suffix).IsSpelled := by
  obtain ⟨name, space, container, before, arguments, elements, elementNames⟩ := spelled
  exact .mk name space container (before.append isSuffix) arguments elements elementNames

/-- What a spelled type carries is spelled. -/
theorem IsSpelled.of_payload {grammar : ResultGrammar} {carried : BoundType}
    (spelled : type.IsSpelled) (isCarried : (grammar.payload type).type? = some carried) :
    carried.IsSpelled := by
  have shown {outer argument : BoundType} (spelled : outer.IsSpelled)
      (arguments : TypeView.arguments outer = [argument]) : argument.IsSpelled :=
    spelled.arguments argument (mem_arguments_of_view (arguments ▸ List.mem_cons_self))
  obtain ⟨outer, rfl | isArgument, arguments⟩ := ResultGrammar.exists_of_payload isCarried
  · exact shown spelled arguments
  · exact shown (shown spelled isArgument) arguments

end BoundType

section Binding

variable {types : List DeclaredType} {scope : Scope} {expandAlias : String → Option BoundType}

/-- A declared type whose namespace and types around are named by words. -/
structure DeclaredType.IsProper (declared : DeclaredType) : Prop where
  name : Lexeme.IsWord declared.name.toList
  space : declared.space ≠ "" → ∃ first others, IsDottedName declared.space first others
  containers : ∀ name ∈ declared.containers, Lexeme.IsWord name.toList

theorem ScopedType.IsProper.declared {type : ScopedType} (proper : type.IsProper) :
    (DeclaredType.ofScoped type).IsProper :=
  ⟨proper.name, proper.scope.space, proper.scope.containers⟩

private theorem isTypeCode_of_nonempty? {text qualifier : String}
    (isTypeCode : text ≠ "" → IsTypeCode text)
    (isText : qualifier ∈ DeclaredType.nonempty? text) : IsTypeCode qualifier := by
  unfold DeclaredType.nonempty? at isText
  split at isText
  · cases isText
  · next nonempty =>
    cases isText
    exact isTypeCode nonempty

/-- A reference to a declared type is spelled if its arguments are. -/
theorem DeclaredType.IsProper.isSpelled_reference {declared : DeclaredType}
    (proper : declared.IsProper)
    {arguments : List BoundType} (spelled : ∀ argument ∈ arguments, argument.IsSpelled) :
    (declared.reference arguments).IsSpelled := by
  refine .mk (fun _ => .word proper.name)
    (fun qualifier => isTypeCode_of_nonempty? fun nonempty => ?_)
    (fun qualifier => isTypeCode_of_nonempty? fun nonempty => ?_) (.inl rfl) spelled
    (List.forall_mem_nil _) (List.forall_mem_nil _)
  · obtain ⟨first, others, isName⟩ := proper.space nonempty
    exact isName.isTypeCode
  · refine .intercalate_dot ?_ fun name member => .word (proper.containers name member)
    intro nothing
    rw [nothing] at nonempty
    exact nonempty rfl

namespace BoundSegment

private theorem isTypeCode_text {segment : BoundSegment}
    (isWord : Lexeme.IsWord segment.name.toList)
    (spelled : ∀ argument ∈ segment.arguments, argument.IsSpelled) : IsTypeCode segment.text := by
  unfold text
  split
  · exact .word isWord
  · next some =>
    refine (IsTypeCode.word isWord).angled (BoundType.isTypeCode_renderList ?_ ?_)
    · simpa using some
    · exact fun argument member => (spelled argument member).isTypeCode_render []

/-- A name that is kept as it was written is spelled. -/
private theorem isSpelled_asWritten {qualifier : Option String} {before : List BoundSegment}
    {last : BoundSegment} (isQualifier : ∀ word ∈ qualifier, Lexeme.IsWord word.toList)
    (words : ∀ segment ∈ before ++ [last], Lexeme.IsWord segment.name.toList)
    (spelled : ∀ segment ∈ before ++ [last], ∀ argument ∈ segment.arguments, argument.IsSpelled) :
    (asWritten qualifier before last).IsSpelled := by
  have isLast : IsTypeCode last.name := .word (words last (by simp))
  have front (some : before ≠ []) : IsTypeCode (".".intercalate (before.map text)) := by
    refine .intercalate_dot (mt List.map_eq_nil_iff.mp some) (List.forall_mem_map.mpr ?_)
    exact fun segment member => isTypeCode_text (words segment (List.mem_append_left _ member))
      (spelled segment (List.mem_append_left _ member))
  have nothing : ".".intercalate (before.map text) = "" ↔ before = [] := by
    refine ⟨fun empty => ?_, fun none => by rw [none]; rfl⟩
    exact Decidable.byContradiction fun some => (front some).isCode.ne_empty empty
  refine .mk (fun _ => ?_) (fun word isSpace => ?_) nofun (.inl rfl) (spelled last (by simp))
    (List.forall_mem_nil _) (List.forall_mem_nil _)
  · cases qualifier with
    | none => exact isLast
    | some word =>
        show IsTypeCode (if _ then word ++ "::" ++ last.name else last.name)
        split
        · exact (IsTypeCode.word (isQualifier word rfl)).append_colons isLast
        · exact isLast
  · simp only [asWritten] at isSpace
    split at isSpace
    · cases isSpace
    · next some =>
      have written := front (mt nothing.mpr some)
      cases qualifier with
      | none => exact Option.some.inj isSpace ▸ written
      | some name =>
          exact Option.some.inj isSpace ▸
            (IsTypeCode.word (isQualifier name rfl)).append_colons written

/-- Whatever a name made of words means is spelled. -/
theorem Resolves.isSpelled {qualifier : Option String} {segments : List BoundSegment}
    {type : BoundType} (resolves : Resolves types scope expandAlias qualifier segments type)
    (isQualifier : ∀ word ∈ qualifier, Lexeme.IsWord word.toList)
    (words : ∀ segment ∈ segments, Lexeme.IsWord segment.name.toList)
    (spelled : ∀ segment ∈ segments, ∀ argument ∈ segment.arguments, argument.IsSpelled)
    (declared : ∀ head ∈ types, head.IsProper)
    (aliases : ∀ name target, expandAlias name = some target → target.IsSpelled) :
    type.IsSpelled := by
  cases resolves with
  | @parameter name known =>
      exact BoundType.isSpelled_parameter (.word (words _ List.mem_cons_self))
  | @aliased name target unknown expands => exact aliases name type expands
  | @declared qualifier before last head notPlain found =>
      obtain ⟨_, isFound, member⟩ := List.exists_of_findSome?_eq_some found
      exact (declared head (List.mem_of_find?_eq_some member)).isSpelled_reference
        (spelled last (by simp))
  | @written qualifier before last notPlain undeclared =>
      exact isSpelled_asWritten isQualifier words spelled

end BoundSegment

/-- A well-formed type is bound to a spelled one, as long as declarations are proper and
aliases stand for spelled types. -/
theorem TypeExpr.IsWellFormed.isSpelled_bindWith {type : TypeExpr} (formed : type.IsWellFormed)
    (declared : ∀ head ∈ types, head.IsProper)
    (aliases : ∀ name target, expandAlias name = some target → target.IsSpelled) :
    (type.bindWith types scope expandAlias).IsSpelled := by
  induction formed with
  | @predefined keyword span known =>
      have words : ∀ word ∈ TypeExpr.keywords, Lexeme.IsWord word.toList := by decide
      rw [bindWith_predefined]
      exact BoundType.isSpelled_simple (.word (words keyword known))
  | nullable formed ih =>
      rw [bindWith_nullable]
      exact ih.withSuffix (.mark (c := '?') rfl (by decide) rfl rfl rfl)
  | pointer formed ih =>
      rw [bindWith_pointer]
      exact ih.withSuffix (.mark (c := '*') rfl (by decide) rfl rfl rfl)
  | array formed dimension ih =>
      rw [bindWith_array]
      exact ih.withSuffix (.array dimension)
  | @tuple elements span some formed words ih =>
      rw [bindWith_tuple]
      exact .mk (fun none => absurd (List.map_eq_nil_iff.mp none) some) nofun nofun (.inl rfl)
        (List.forall_mem_nil _) (List.forall_mem_map.mpr ih) (List.forall_mem_map.mpr words)
  | @named qualifier first others span isName qualified words arguments ih =>
      rw [bindWith_named]
      refine (BoundSegment.resolves_resolve _ _ _ _ (by simp)).isSpelled qualified
        (List.forall_mem_map.mpr words)
          (List.forall_mem_map.mpr fun segment member => ?_) declared aliases
      exact List.forall_mem_map.mpr (ih segment member)

/-- Aliases stand for spelled types, because a target that is no type stands for
nothing. -/
theorem Scope.isSpelled_of_expandAlias (declared : ∀ head ∈ types, head.IsProper) {name : String}
    {target : BoundType} (expands : scope.expandAlias types name = some target) :
    target.IsSpelled := by
  obtain ⟨text, _, isTarget⟩ := Option.bind_eq_some_iff.mp expands
  split at isTarget
  · next type parsed =>
    cases isTarget
    exact (TypeExpr.isWellFormed_of_parse parsed).isSpelled_bindWith declared nofun
  · cases isTarget

theorem TypeExpr.IsWellFormed.isSpelled_bind {type : TypeExpr} (formed : type.IsWellFormed)
    (declared : ∀ head ∈ types, head.IsProper) : (type.bind types scope).IsSpelled :=
  formed.isSpelled_bindWith declared fun _ _ => Scope.isSpelled_of_expandAlias declared

end Binding

section Units

variable {units : List SourceUnit}

/-- The heads of what parsed files declare are proper. -/
theorem TypeTable.isProper_of_mem_heads (parsed : ∀ unit ∈ units, unit.IsParsed) :
    ∀ head ∈ heads (units.flatMap SourceUnit.types), head.IsProper := by
  intro head member
  obtain ⟨type, declared, rfl⟩ := TypeTable.exists_of_mem_heads member
  exact (SourceUnit.isProper_of_mem parsed type declared).declared

end Units

end ErrorAccessors
