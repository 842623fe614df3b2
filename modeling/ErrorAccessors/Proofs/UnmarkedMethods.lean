/-
# Methods without the marker do not show

Files may be generated for with any of their unmarked methods left out, overloads
of marked methods among them.  A run sees an unmarked method at two places: the
merged type of its full name lists it, and a lookup of a name may fall back on it.
The first shows nowhere, because what is read off a type is one of its marked
methods; and the fallback is never taken, because a site has its name from a
marked method of that very type.

Leaving out methods keeps every type declaration where it is, so that the heads of
all types, and hence what a name in a return type means, stay as they were.
-/

import ErrorAccessors.Proofs.UnplacedRun

namespace ErrorAccessors

section Trees

variable (marker : Marker)

mutual

/-- The second type declaration is the first one without some unmarked methods, its
own or those of types nested in it. -/
inductive TypeDecl.ThinsTo : TypeDecl → TypeDecl → Prop
  | mk (decl : TypeDecl) {members kept : List TypeMember}
      (inside : TypeMember.ThinsTo members kept) :
      TypeDecl.ThinsTo { decl with members := members } { decl with members := kept }

/-- The second list of members is the first one without some unmarked methods. -/
inductive TypeMember.ThinsTo : List TypeMember → List TypeMember → Prop
  | nil : TypeMember.ThinsTo [] []
  | omitted {method : MethodDecl} {members kept : List TypeMember}
      (unmarked : method.isMarked marker = false) (behind : TypeMember.ThinsTo members kept) :
      TypeMember.ThinsTo (.method method :: members) kept
  | method (method : MethodDecl) {members kept : List TypeMember}
      (behind : TypeMember.ThinsTo members kept) :
      TypeMember.ThinsTo (.method method :: members) (.method method :: kept)
  | type {decl other : TypeDecl} {members kept : List TypeMember}
      (inside : TypeDecl.ThinsTo decl other) (behind : TypeMember.ThinsTo members kept) :
      TypeMember.ThinsTo (.type decl :: members) (.type other :: kept)

end

mutual

/-- The second namespace is the first one without some unmarked methods. -/
inductive NamespaceDecl.ThinsTo : NamespaceDecl → NamespaceDecl → Prop
  | mk (decl : NamespaceDecl) {members kept : List NamespaceMember}
      (inside : NamespaceMember.ThinsTo members kept) :
      NamespaceDecl.ThinsTo { decl with members := members } { decl with members := kept }

/-- The second list of members is the first one without some unmarked methods of
types in it. -/
inductive NamespaceMember.ThinsTo : List NamespaceMember → List NamespaceMember → Prop
  | nil : NamespaceMember.ThinsTo [] []
  | space {decl other : NamespaceDecl} {members kept : List NamespaceMember}
      (inside : NamespaceDecl.ThinsTo decl other) (behind : NamespaceMember.ThinsTo members kept) :
      NamespaceMember.ThinsTo (.space decl :: members) (.space other :: kept)
  | type {decl other : TypeDecl} {members kept : List NamespaceMember}
      (inside : decl.ThinsTo marker other) (behind : NamespaceMember.ThinsTo members kept) :
      NamespaceMember.ThinsTo (.type decl :: members) (.type other :: kept)

end

/-- The second file is the first one without some unmarked methods. -/
inductive SourceUnit.ThinsTo : SourceUnit → SourceUnit → Prop
  | mk (unit : SourceUnit) {members kept : List NamespaceMember}
      (inside : NamespaceMember.ThinsTo marker members kept) :
      ThinsTo { unit with members := members } { unit with members := kept }

/-- Two declarations of a type in one scope, with one head and the same marked
methods. -/
structure ScopedType.ThinsTo (type other : ScopedType) : Prop where
  scope : other.scope = type.scope
  head : DeclaredType.ofScoped other = .ofScoped type
  marked : (other.decl.ownMethods.filter fun method => method.isMarked marker) =
    type.decl.ownMethods.filter fun method => method.isMarked marker

variable {marker}

/-- The marked methods of a type stay if some of the others are left out. -/
private theorem TypeMember.ThinsTo.marked {members kept : List TypeMember}
    (thins : TypeMember.ThinsTo marker members kept) (decl : TypeDecl) :
    (TypeDecl.ownMethods { decl with members := kept }).filter
        (fun method => method.isMarked marker) =
      (TypeDecl.ownMethods { decl with members := members }).filter
        fun method => method.isMarked marker := by
  induction members generalizing kept with
  | nil =>
      cases thins
      rfl
  | cons member rest ih =>
      cases thins with
      | omitted unmarked behind =>
          simp only [TypeDecl.ownMethods, List.filterMap_cons, List.filter_cons, unmarked]
          exact ih behind
      | method declared behind =>
          have same := ih behind
          simp only [TypeDecl.ownMethods] at same
          simp only [TypeDecl.ownMethods, List.filterMap_cons, List.filter_cons, same]
      | type inside behind =>
          simp only [TypeDecl.ownMethods, List.filterMap_cons]
          exact ih behind

mutual

theorem TypeDecl.ThinsTo.scoped {decl other : TypeDecl} (thins : decl.ThinsTo marker other)
    (scope : Scope) :
    List.Forall₂ (ScopedType.ThinsTo marker) (decl.scoped scope) (other.scoped scope) := by
  match thins with
  | .mk decl inside =>
      simp only [TypeDecl.scoped]
      exact .cons ⟨rfl, rfl, inside.marked decl⟩ (inside.scoped _)

theorem TypeMember.ThinsTo.scoped {members kept : List TypeMember}
    (thins : TypeMember.ThinsTo marker members kept) (scope : Scope) :
    List.Forall₂ (ScopedType.ThinsTo marker) (TypeMember.scopedOfList scope members)
      (TypeMember.scopedOfList scope kept) := by
  match thins with
  | .nil => exact .nil
  | .omitted unmarked behind =>
      simp only [TypeMember.scopedOfList]
      exact behind.scoped scope
  | .method declared behind =>
      simp only [TypeMember.scopedOfList]
      exact behind.scoped scope
  | .type inside behind =>
      simp only [TypeMember.scopedOfList]
      exact List.rel_append (inside.scoped scope) (behind.scoped scope)

end

mutual

theorem NamespaceDecl.ThinsTo.scoped {decl other : NamespaceDecl}
    (thins : decl.ThinsTo marker other) (scope : Scope) :
    List.Forall₂ (ScopedType.ThinsTo marker) (decl.scoped scope) (other.scoped scope) := by
  match thins with
  | .mk decl inside =>
      simp only [NamespaceDecl.scoped]
      exact inside.scoped _

theorem NamespaceMember.ThinsTo.scoped {members kept : List NamespaceMember}
    (thins : NamespaceMember.ThinsTo marker members kept) (scope : Scope) :
    List.Forall₂ (ScopedType.ThinsTo marker) (NamespaceMember.scopedOfList scope members)
      (NamespaceMember.scopedOfList scope kept) := by
  match thins with
  | .nil => exact .nil
  | .space inside behind =>
      simp only [NamespaceMember.scopedOfList]
      exact List.rel_append (inside.scoped scope) (behind.scoped scope)
  | .type inside behind =>
      simp only [NamespaceMember.scopedOfList]
      exact List.rel_append (inside.scoped scope) (behind.scoped scope)

end

/-- Leaving out unmarked methods leaves the types of a file as they are, apart from
those methods. -/
theorem SourceUnit.ThinsTo.types {unit other : SourceUnit} (thins : unit.ThinsTo marker other) :
    List.Forall₂ (ScopedType.ThinsTo marker) unit.types other.types := by
  obtain ⟨unit, inside⟩ := thins
  exact inside.scoped _

/-- The marked methods of a type correspond, wherever unmarked ones are left out. -/
theorem ScopedType.ThinsTo.inStep {type other : ScopedType} (thins : type.ThinsTo marker other)
    (grammar : ResultGrammar) (known : List DeclaredType) :
    List.Forall₂ (PlacedMethod.InStep id marker grammar known known)
      ((PlacedMethod.ofType type).filter (PlacedMethod.isMarked marker))
      ((PlacedMethod.ofType other).filter (PlacedMethod.isMarked marker)) := by
  have marked (type : ScopedType) :
      (PlacedMethod.ofType type).filter (PlacedMethod.isMarked marker) =
        (type.decl.ownMethods.filter fun method => method.isMarked marker).map
          (PlacedMethod.mk type) := by
    rw [PlacedMethod.ofType, List.filter_map]
    rfl
  rw [marked, marked, thins.marked, List.forall₂_map_left_iff, List.forall₂_map_right_iff]
  exact List.forall₂_same.mpr fun method _ =>
    PlacedMethod.inStep_of_head thins.scope thins.head method marker grammar known

end Trees

/-- A run over files without some of their unmarked methods, whichever these are and
however deep the types that declare them are nested, reports the same: the same
sites, artifacts, faults and diagnostics, in the same order. -/
theorem Generation.run_of_thinsTo {units fewer : List SourceUnit} (settings : Settings)
    (thins : List.Forall₂ (SourceUnit.ThinsTo settings.marker) units fewer) :
    run (.ofUnits fewer) settings = run (.ofUnits units) settings := by
  have types : List.Forall₂ (ScopedType.ThinsTo settings.marker)
      (units.flatMap SourceUnit.types) (fewer.flatMap SourceUnit.types) :=
    List.rel_flatMap thins fun _ _ unit => unit.types
  have heads : TypeTable.heads (fewer.flatMap SourceUnit.types) =
      TypeTable.heads (units.flatMap SourceUnit.types) :=
    TypeTable.heads_eq_of_forall₂ types fun _ _ type => type.head
  refine (run_inStep_of_marked ?_).trans (GenerationReport.relocated_id _)
  rw [heads, PlacedMethod.ofUnits, PlacedMethod.ofUnits, List.filter_flatMap, List.filter_flatMap]
  exact List.rel_flatMap types fun _ _ type => type.inStep settings.grammar _

/-- A method `Heal` that is annotated with some codes and returns a type. -/
private def healMethod (codes : List Int) (returned : String) : MethodDecl where
  span := Span.atFileStart "Clinic.cs"
  attributeLists := codes.map fun code =>
    ⟨Span.atFileStart "Clinic.cs", none, [⟨Span.atFileStart "Clinic.cs", ["ErrorResult"],
      [⟨Span.atFileStart "Clinic.cs", none, .int code⟩,
        ⟨Span.atFileStart "Clinic.cs", none, .str "No patient"⟩]⟩]⟩
  modifiers := []
  returnType := .named none [⟨returned, []⟩] (Span.atFileStart "Clinic.cs")
  name := "Heal"
  nameSpan := Span.atFileStart "Clinic.cs"
  typeParameters := []
  body := .absent

/-- A class with some members. -/
private def clinicClass (name : String) (members : List TypeMember) : TypeDecl :=
  ⟨Span.atFileStart "Clinic.cs", .classType, name, Span.atFileStart "Clinic.cs", [], [], [],
    members⟩

/-- A file that declares one class. -/
private def clinicFile (decl : TypeDecl) : SourceUnit where
  path := "Clinic.cs"
  span := Span.atFileStart "Clinic.cs"
  usings := []
  members := [.type decl]

/-- An overload in front of the marked method and a method of a nested class are left
out, and the six artifacts stay what they were. -/
theorem Generation.run_of_thinsTo_of_overload :
    let whole := clinicFile (clinicClass "Clinic" [.method (healMethod [] "int"),
      .method (healMethod [1] "Result"),
      .type (clinicClass "Ward" [.method (healMethod [] "int")])])
    let thin := clinicFile (clinicClass "Clinic" [.method (healMethod [1] "Result"),
      .type (clinicClass "Ward" [])])
    List.Forall₂ (SourceUnit.ThinsTo {}) [whole] [thin] ∧
      (run (.ofUnits [whole]) {}).artifacts.length = 6 ∧
      run (.ofUnits [thin]) {} = run (.ofUnits [whole]) {} := by
  intro whole thin
  have unmarked : (healMethod [] "int").isMarked {} = false := by decide
  have ward : TypeDecl.ThinsTo {} (clinicClass "Ward" [.method (healMethod [] "int")])
      (clinicClass "Ward" []) := .mk (clinicClass "Ward" []) (.omitted unmarked .nil)
  have clinic : TypeMember.ThinsTo {}
      [.method (healMethod [] "int"), .method (healMethod [1] "Result"),
        .type (clinicClass "Ward" [.method (healMethod [] "int")])]
      [.method (healMethod [1] "Result"), .type (clinicClass "Ward" [])] :=
    .omitted unmarked (.method _ (.type ward .nil))
  have thins : List.Forall₂ (SourceUnit.ThinsTo {}) [whole] [thin] :=
    .cons (.mk whole (.type (.mk (clinicClass "Clinic" []) clinic) .nil)) .nil
  exact ⟨thins, by decide, Generation.run_of_thinsTo {} thins⟩

end ErrorAccessors
