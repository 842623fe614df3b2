/-
# A run does not look at places

Files without their places declare the same types, and every method stands there
in the same scope without its places.  A run over them makes the same artifacts
and reports the same, without places.  So what a run makes is settled by what is
written in the files, wherever it stands.
-/

import ErrorAccessors.Proofs.RelocatedRun

namespace ErrorAccessors

/-- The heads of declared types are those of their declarations, one for every
full name. -/
theorem TypeTable.heads_congr {first second : List ScopedType}
    (same : first.map DeclaredType.ofScoped = second.map DeclaredType.ofScoped) :
    heads first = heads second := by
  have ofHeads (declared : List ScopedType) : heads declared =
      (declared.map DeclaredType.ofScoped).foldl
        (keepFirst DeclaredType.fullName id DeclaredType.fullName) [] := by
    rw [List.foldl_map]
    rfl
  rw [ofHeads, ofHeads, same]

/-- Declarations that correspond have the same heads. -/
theorem TypeTable.heads_eq_of_forall₂ {relates : ScopedType → ScopedType → Prop}
    {first second : List ScopedType} (related : List.Forall₂ relates first second)
    (head : ∀ type other, relates type other → DeclaredType.ofScoped other = .ofScoped type) :
    heads second = heads first := by
  apply heads_congr
  rw [← List.forall₂_eq_eq_eq, List.forall₂_map_left_iff, List.forall₂_map_right_iff]
  exact related.flip.imp fun other type => head type other

section Declarations

variable (units : List SourceUnit)

theorem SourceUnit.types_unplaced :
    (units.map SourceUnit.unplaced).flatMap SourceUnit.types =
      (units.flatMap SourceUnit.types).map (ScopedType.unplacedWith MethodDecl.unplaced) := by
  rw [List.flatMap_map, List.map_flatMap]
  congr 1
  funext unit
  exact unit.types_unplacedWith MethodDecl.unplaced

theorem DeclaredType.ofScoped_unplacedWith (left : MethodDecl → MethodDecl) (type : ScopedType) :
    ofScoped (type.unplacedWith left) = ofScoped type := by
  obtain ⟨⟨span, kind, name, nameSpan, typeParameters, lists, modifiers, members⟩, scope⟩ := type
  rw [ScopedType.unplacedWith, TypeDecl.unplacedWith]
  rfl

section Heads

variable (left : MethodDecl → MethodDecl) (type : ScopedType)

@[simp] theorem ScopedType.unplacedWith_name :
    (type.unplacedWith left).decl.name = type.decl.name :=
  congrArg DeclaredType.name (DeclaredType.ofScoped_unplacedWith left type)

@[simp] theorem ScopedType.unplacedWith_typeParameters :
    (type.unplacedWith left).decl.typeParameters = type.decl.typeParameters :=
  congrArg DeclaredType.typeParameters (DeclaredType.ofScoped_unplacedWith left type)

@[simp] theorem ScopedType.unplacedWith_fullName :
    (type.unplacedWith left).fullName = type.fullName :=
  congrArg DeclaredType.fullName (DeclaredType.ofScoped_unplacedWith left type)

end Heads

theorem TypeTable.heads_unplaced :
    heads ((units.map SourceUnit.unplaced).flatMap SourceUnit.types) =
      heads (units.flatMap SourceUnit.types) := by
  apply heads_congr
  rw [SourceUnit.types_unplaced, List.map_map]
  exact List.map_congr_left fun type _ => DeclaredType.ofScoped_unplacedWith _ type

end Declarations

namespace PlacedMethod

/-- A placed method without its places. -/
def unplaced (placed : PlacedMethod) : PlacedMethod :=
  ⟨placed.type.unplacedWith MethodDecl.unplaced, placed.method.unplaced⟩

theorem ofUnits_unplaced (units : List SourceUnit) :
    ofUnits (units.map SourceUnit.unplaced) = (ofUnits units).map unplaced := by
  rw [ofUnits, ofUnits, SourceUnit.types_unplaced, List.flatMap_map, List.map_flatMap]
  congr 1
  funext type
  rw [ofType, ofType, ScopedType.unplacedWith, TypeDecl.ownMethods_unplacedWith, List.map_map,
    List.map_map]
  rfl

variable (placed : PlacedMethod)

theorem site_unplaced : placed.unplaced.site = placed.site.relocated fun _ => .nowhere := by
  simp only [site, unplaced, ScopedType.siteOf, ScopedType.unplacedWith_name,
    ScopedType.unplacedWith_fullName]
  rfl

theorem inner_unplaced : placed.unplaced.inner = placed.inner.unplaced := by
  simp only [inner, unplaced, ScopedType.unplacedWith_name, ScopedType.unplacedWith_typeParameters]
  rfl

theorem attributes_unplaced (known : List DeclaredType) :
    (placed.unplaced.symbol known).attributes =
      (placed.symbol known).attributes.map (AppliedAttribute.relocated fun _ => .nowhere) := by
  have ofOne (applied : Attribute) : AppliedAttribute.ofAttribute applied.unplaced =
      (AppliedAttribute.ofAttribute applied).relocated fun _ => .nowhere := by
    simp only [AppliedAttribute.ofAttribute, Attribute.unplaced, List.map_map]
    rfl
  have collected : placed.method.unplaced.attributes =
      placed.method.attributes.map Attribute.unplaced := by
    rw [MethodDecl.attributes, MethodDecl.attributes, MethodDecl.unplaced, List.flatMap_map,
      List.map_flatMap]
    rfl
  show placed.method.unplaced.attributes.map AppliedAttribute.ofAttribute = _
  rw [collected, List.map_map]
  show _ = (placed.method.attributes.map AppliedAttribute.ofAttribute).map _
  rw [List.map_map]
  exact List.map_congr_left fun applied _ => ofOne applied

theorem returnShape_unplaced (known : List DeclaredType) (grammar : ResultGrammar) :
    (placed.unplaced.symbol known).returnShape grammar =
      (placed.symbol known).returnShape grammar := by
  have bound : (placed.unplaced.symbol known).returnType = (placed.symbol known).returnType := by
    rw [symbol_returnType, symbol_returnType, inner_unplaced]
    exact TypeExpr.bind_unplaced known placed.inner placed.method.returnType
  have parameters : (placed.unplaced.symbol known).typeParameters =
      (placed.symbol known).typeParameters := rfl
  have written : (placed.unplaced.symbol known).returnExpr.text =
      (placed.symbol known).returnExpr.text := TypeExpr.text_unplaced _
  have spelled : (placed.unplaced.symbol known).spell = (placed.symbol known).spell := by
    funext type
    rw [MethodSymbol.spell, MethodSymbol.spell, parameters, written]
  rw [MethodSymbol.returnShape, MethodSymbol.returnShape, bound, spelled, parameters]

/-- A method and the method without its places go in step. -/
theorem inStep_unplaced (marker : Marker) (grammar : ResultGrammar) (known : List DeclaredType) :
    placed.InStep (fun _ => .nowhere) marker grammar known known placed.unplaced :=
  .of_symbol placed.site_unplaced placed.type.scope.unplaced_unplaced
    (placed.attributes_unplaced known) (by rw [returnShape_unplaced])

end PlacedMethod

/-- A run over files without places is the run over the files, without places. -/
theorem Generation.run_unplaced (units : List SourceUnit) (settings : Settings) :
    run (.ofUnits (units.map SourceUnit.unplaced)) settings =
      (run (.ofUnits units) settings).relocated fun _ => .nowhere := by
  apply run_inStep
  rw [TypeTable.heads_unplaced, PlacedMethod.ofUnits_unplaced, List.forall₂_map_right_iff]
  exact List.forall₂_same.mpr fun placed _ => placed.inStep_unplaced _ _ _

end ErrorAccessors
