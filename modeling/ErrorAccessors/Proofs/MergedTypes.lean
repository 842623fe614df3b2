/-
# Merging declarations into types

The types of a set of files can be put together one declaration after the other, with
an index from full names to places.  A first pass enters the head of every declaration
whose full name is not indexed yet.  A second one adds the methods of every declaration
to the type that the index gives for its full name, and binds their return types among
the heads that are complete by then.

The index always maps the full names of the types, and no others, to their places.  So
no full name stands twice, and a declaration adds its methods to one type.  What comes
out is the table of the files: every type has the methods of all its declarations in the
order in which these are visited, and every method of the files is in one type once.
-/

import ErrorAccessors.Proofs.EnclosedMethods
import Mathlib.Data.List.Perm.Basic
import Mathlib.Tactic.Linarith

namespace ErrorAccessors

/-- A head without methods. -/
def DeclaredType.bare (head : DeclaredType) : TypeSymbol :=
  { head with methods := [] }

/-- A type with further methods. -/
def TypeSymbol.addMethods (type : TypeSymbol) (methods : List MethodSymbol) : TypeSymbol :=
  { type with methods := type.methods ++ methods }

/-- Whether an index maps the full names of types, and no others, to their places. -/
def TypeSymbol.Indexes (types : List TypeSymbol) (places : Std.HashMap String Nat) : Prop :=
  ∀ (fullName : String) (place : Nat), places[fullName]? = some place ↔
    ∃ type, types[place]? = some type ∧ type.fullName = fullName

namespace TypeSymbol

variable {types : List TypeSymbol} {places : Std.HashMap String Nat}

/-- The index tells whether a full name is that of a type. -/
theorem Indexes.contains_iff (indexed : Indexes types places) (fullName : String) :
    places.contains fullName = true ↔ ∃ type ∈ types, type.fullName = fullName := by
  rw [Std.HashMap.contains_eq_isSome_getElem?, Option.isSome_iff_exists]
  constructor
  · rintro ⟨place, isPlace⟩
    obtain ⟨type, found, named⟩ := (indexed fullName place).mp isPlace
    exact ⟨type, List.mem_of_getElem? found, named⟩
  · rintro ⟨type, member, named⟩
    obtain ⟨place, found⟩ := List.mem_iff_getElem?.mp member
    exact ⟨place, (indexed fullName place).mpr ⟨type, found, named⟩⟩

/-- What stands at a place of a list with one more item behind it. -/
private theorem getElem?_concat_eq_some_iff {α : Type} {items : List α} {last item : α}
    {place : Nat} : (items ++ [last])[place]? = some item ↔
      items[place]? = some item ∨ place = items.length ∧ last = item := by
  rcases Nat.lt_trichotomy place items.length with front | rfl | behind
  · rw [List.getElem?_append_left front]
    exact ⟨.inl, fun found => found.resolve_right fun isLast => front.ne isLast.1⟩
  · rw [List.getElem?_concat_length, List.getElem?_eq_none (Nat.le_refl _)]
    simp
  · rw [List.getElem?_eq_none (by simp; omega), List.getElem?_eq_none behind.le]
    simp [behind.ne']

/-- A type of a new full name may be put behind the others. -/
theorem Indexes.append (indexed : Indexes types places) {type : TypeSymbol}
    (isNew : places.contains type.fullName = false) :
    Indexes (types ++ [type]) (places.insert type.fullName types.length) := by
  intro fullName place
  rw [Std.HashMap.getElem?_insert]
  by_cases same : type.fullName = fullName
  · subst same
    have others : ∀ other, types[place]? = some other → other.fullName ≠ type.fullName := by
      intro other found named
      have known := (indexed.contains_iff type.fullName).mpr
        ⟨other, List.mem_of_getElem? found, named⟩
      rw [isNew] at known
      exact Bool.false_ne_true known
    rw [if_pos (beq_self_eq_true _), Option.some.injEq]
    constructor
    · rintro rfl
      exact ⟨type, getElem?_concat_eq_some_iff.mpr (.inr ⟨rfl, rfl⟩), rfl⟩
    · rintro ⟨other, found, named⟩
      rcases getElem?_concat_eq_some_iff.mp found with earlier | ⟨isLast, -⟩
      · exact absurd named (others other earlier)
      · exact isLast.symm
  · rw [if_neg (by simpa using same), indexed]
    constructor
    · rintro ⟨other, found, named⟩
      exact ⟨other, getElem?_concat_eq_some_iff.mpr (.inl found), named⟩
    · rintro ⟨other, found, named⟩
      rcases getElem?_concat_eq_some_iff.mp found with earlier | ⟨-, rfl⟩
      · exact ⟨other, earlier, named⟩
      · exact absurd named same

/-- What is changed about the type at a place may be anything but its full name. -/
theorem Indexes.modify (indexed : Indexes types places) (place : Nat)
    {change : TypeSymbol → TypeSymbol} (kept : ∀ type, (change type).fullName = type.fullName) :
    Indexes (types.modify place change) places := by
  intro fullName other
  have named (type : TypeSymbol) :
      (if place = other then change type else type).fullName = type.fullName := by
    split
    · exact kept type
    · rfl
  rw [indexed, List.getElem?_modify]
  constructor
  · rintro ⟨type, found, isNamed⟩
    exact ⟨_, congrArg (Option.map _) found, (named type).trans isNamed⟩
  · rintro ⟨changed, isChanged, isNamed⟩
    obtain ⟨type, found, rfl⟩ := Option.map_eq_some_iff.mp isChanged
    exact ⟨type, found, (named type).symm.trans isNamed⟩

/-- Of types with an index no two have one full name. -/
theorem Indexes.nodup (indexed : Indexes types places) : (types.map (·.fullName)).Nodup := by
  rw [List.nodup_iff_getElem?_ne_getElem?]
  intro first second before inside same
  rw [List.length_map] at inside
  rw [List.getElem?_map, List.getElem?_map, List.getElem?_eq_getElem (before.trans inside),
    List.getElem?_eq_getElem inside] at same
  have isFirst := (indexed types[second].fullName first).mpr
    ⟨_, List.getElem?_eq_getElem (before.trans inside), Option.some.inj same⟩
  have isSecond := (indexed types[second].fullName second).mpr
    ⟨_, List.getElem?_eq_getElem inside, rfl⟩
  rw [isFirst] at isSecond
  exact before.ne (Option.some.inj isSecond)

end TypeSymbol

/-- Types with an index that gives the place of each by its full name. -/
structure TypeIndex where
  types : List TypeSymbol
  places : Std.HashMap String Nat
  indexed : TypeSymbol.Indexes types places

namespace TypeIndex

/-- No types. -/
def empty : TypeIndex := ⟨[], ∅, fun _ _ => by simp⟩

/-- The heads of the types. -/
def heads (index : TypeIndex) : List DeclaredType :=
  index.types.map TypeSymbol.toDeclaredType

/-- Enter the head of a declaration, unless its full name is indexed. -/
def declare (index : TypeIndex) (type : ScopedType) : TypeIndex :=
  if known : index.places.contains type.fullName then index
  else ⟨index.types ++ [(DeclaredType.ofScoped type).bare],
    index.places.insert type.fullName index.types.length,
    index.indexed.append (Bool.eq_false_iff.mpr known)⟩

/-- Add the methods of a declaration to the type of its full name. -/
def addMethods (index : TypeIndex) (type : ScopedType) : TypeIndex :=
  match index.places[type.fullName]? with
  | none => index
  | some place =>
    ⟨index.types.modify place fun symbol => symbol.addMethods (type.methodSymbols index.heads),
      index.places, index.indexed.modify place fun _ => rfl⟩

/-- The types that files declare, put together in two passes. -/
def ofUnits (units : List SourceUnit) : TypeIndex :=
  let declared := units.flatMap SourceUnit.types
  declared.foldl addMethods (declared.foldl declare empty)

section Passes

theorem types_declare (index : TypeIndex) (type : ScopedType) :
    (index.declare type).types =
      if index.places.contains type.fullName then index.types
      else index.types ++ [(DeclaredType.ofScoped type).bare] := by
  unfold declare
  split <;> rfl

/-- The first pass enters the heads of the declarations. -/
theorem types_declared (declared : List ScopedType) (index : TypeIndex) (known : List DeclaredType)
    (isKnown : index.types = known.map DeclaredType.bare) :
    (declared.foldl declare index).types =
      (declared.foldl
        (keepFirst ScopedType.fullName DeclaredType.ofScoped DeclaredType.fullName)
        known).map DeclaredType.bare := by
  induction declared generalizing index known with
  | nil => exact isKnown
  | cons type rest ih =>
      have taken : index.places.contains type.fullName =
          known.any fun earlier => earlier.fullName == type.fullName := by
        rw [Bool.eq_iff_iff, index.indexed.contains_iff, isKnown, List.any_eq_true]
        simp [DeclaredType.bare]
      rw [List.foldl_cons, List.foldl_cons]
      apply ih
      rw [types_declare, taken, isKnown, keepFirst]
      split
      · rfl
      · rw [List.map_append, List.map_singleton]

/-- A declaration adds its methods to the type of its full name, and to no other. -/
theorem types_addMethods (index : TypeIndex) (type : ScopedType) :
    (index.addMethods type).types = index.types.map fun symbol =>
      if type.fullName = symbol.fullName then symbol.addMethods (type.methodSymbols index.heads)
      else symbol := by
  refine List.ext_getElem? fun place => ?_
  rw [List.getElem?_map]
  unfold addMethods
  cases isPlace : index.places[type.fullName]? with
  | none =>
      show index.types[place]? = _
      cases found : index.types[place]? with
      | none => rfl
      | some symbol =>
          have other : type.fullName ≠ symbol.fullName := by
            intro same
            rw [(index.indexed _ _).mpr ⟨symbol, found, same.symm⟩] at isPlace
            cases isPlace
          rw [Option.map_some, if_neg other]
  | some known =>
      show (index.types.modify known _)[place]? = _
      rw [List.getElem?_modify]
      cases found : index.types[place]? with
      | none => rfl
      | some symbol =>
          have isIt : known = place ↔ type.fullName = symbol.fullName := by
            rw [← Option.some_inj, ← isPlace, index.indexed]
            simp [found, eq_comm]
          simp only [Option.map_eq_map, Option.map_some, isIt]

@[simp] theorem heads_addMethods (index : TypeIndex) (type : ScopedType) :
    (index.addMethods type).heads = index.heads := by
  rw [heads, heads, types_addMethods, List.map_map]
  refine List.map_congr_left fun symbol _ => ?_
  simp only [Function.comp_apply]
  split <;> rfl

/-- The second pass adds the methods of all declarations of a full name, one declaration
after the other. -/
theorem types_foldl_addMethods (declared : List ScopedType) (index : TypeIndex) :
    (declared.foldl addMethods index).types = index.types.map fun symbol =>
      symbol.addMethods ((declared.filter fun type => type.fullName == symbol.fullName).flatMap
        fun type => type.methodSymbols index.heads) := by
  induction declared generalizing index with
  | nil =>
      refine (List.map_id'' (fun symbol => ?_) index.types).symm
      simp [TypeSymbol.addMethods]
  | cons type rest ih =>
      rw [List.foldl_cons, ih, heads_addMethods, types_addMethods, List.map_map]
      refine List.map_congr_left fun symbol _ => ?_
      rw [Function.comp_apply, List.filter_cons]
      by_cases same : type.fullName = symbol.fullName
      · simp [same, TypeSymbol.addMethods]
      · simp [same]

end Passes

/-- What comes out is the table of the files. -/
theorem types_ofUnits (units : List SourceUnit) :
    (ofUnits units).types = (TypeTable.ofUnits units).types := by
  have declared : ((units.flatMap SourceUnit.types).foldl declare empty).types =
      (TypeTable.heads (units.flatMap SourceUnit.types)).map DeclaredType.bare :=
    types_declared _ empty [] rfl
  have heads : ((units.flatMap SourceUnit.types).foldl declare empty).heads =
      TypeTable.heads (units.flatMap SourceUnit.types) := by
    rw [TypeIndex.heads, declared, List.map_map]
    exact List.map_id _
  rw [ofUnits, types_foldl_addMethods, heads, declared, List.map_map]
  rfl

/-- Looking a full name up among the types gives the one at its place. -/
theorem find?_types (index : TypeIndex) (fullName : String) :
    index.types.find? (fun type => type.fullName == fullName) =
      index.places[fullName]?.bind fun place => index.types[place]? := by
  cases found : index.types.find? fun type => type.fullName == fullName with
  | none =>
      cases isPlace : index.places[fullName]? with
      | none => rfl
      | some place =>
          obtain ⟨type, isType, named⟩ := (index.indexed fullName place).mp isPlace
          have other := List.find?_eq_none.mp found type (List.mem_of_getElem? isType)
          exact absurd (beq_iff_eq.mpr named) other
  | some type =>
      obtain ⟨place, isType⟩ := List.mem_iff_getElem?.mp (List.mem_of_find?_eq_some found)
      have named : type.fullName = fullName := by simpa using List.find?_some found
      rw [(index.indexed fullName place).mpr ⟨type, isType, named⟩, Option.bind_some, isType]

end TypeIndex

/-- Items that are sorted by keys, of which no two are the same and every item has one, are
all there. -/
private theorem flatMap_filter_perm {α : Type} (key : α → String) {keys : List String}
    (distinct : keys.Nodup) (items : List α) :
    (keys.flatMap fun name => items.filter fun item => key item == name).Perm
      (items.filter fun item => keys.contains (key item)) := by
  induction keys with
  | nil => simp
  | cons first rest ih =>
      obtain ⟨isNew, distinctRest⟩ := List.nodup_cons.mp distinct
      have ofFirst : (items.filter fun item => (first :: rest).contains (key item)).filter
            (fun item => key item == first) = items.filter fun item => key item == first := by
        rw [List.filter_filter]
        refine List.filter_congr fun item _ => ?_
        by_cases isIt : key item = first <;> simp [isIt]
      have ofRest : (items.filter fun item => (first :: rest).contains (key item)).filter
            (fun item => !(key item == first)) =
          items.filter fun item => rest.contains (key item) := by
        rw [List.filter_filter]
        refine List.filter_congr fun item _ => ?_
        by_cases isIt : key item = first <;> simp [isIt, isNew]
      rw [List.flatMap_cons, ← ofFirst]
      refine ((ih distinctRest).append_left _).trans ?_
      rw [← ofRest]
      exact List.filter_append_perm _ _

/-- A symbol tells what is written at a declaration: the name, the place, the modifiers, the
type parameters, the return type as it is spelled and as it is bound there, the attributes
in source order, and the using directives that the declaration sees. -/
structure MethodSymbol.Tells (known : List DeclaredType) (symbol : MethodSymbol)
    (placed : PlacedMethod) : Prop where
  name : symbol.name = placed.method.name
  nameSpan : symbol.nameSpan = placed.method.nameSpan
  span : symbol.span = placed.method.span
  isAsync : symbol.isAsync = placed.method.isAsync
  typeParameters : symbol.typeParameters = placed.method.typeParameters
  returnExpr : symbol.returnExpr = placed.method.returnType
  returnType : symbol.returnType = placed.method.returnType.bind known placed.inner
  attributes : List.Forall₂
    (fun applied written => applied.name = written.simpleName ∧
      applied.arguments = written.arguments.map (fun argument => (argument.name, argument.value)) ∧
      applied.span = written.span)
    symbol.attributes placed.method.attributes
  imports : symbol.imports = placed.type.scope.usings

theorem PlacedMethod.tells_symbol (known : List DeclaredType) (placed : PlacedMethod) :
    (placed.symbol known).Tells known placed where
  name := rfl
  nameSpan := rfl
  span := rfl
  isAsync := rfl
  typeParameters := rfl
  returnExpr := rfl
  returnType := placed.symbol_returnType known
  attributes := List.forall₂_map_left_iff.mpr (List.forall₂_same.mpr fun _ _ => ⟨rfl, rfl, rfl⟩)
  imports := rfl

namespace TypeTable

variable (units : List SourceUnit)

theorem declared_ofUnits : (ofUnits units).declared = heads (units.flatMap SourceUnit.types) := by
  rw [declared, ofUnits, List.map_map]
  exact List.map_id _

/-- The full names of the types are those of the declarations. -/
theorem exists_fullName_iff (fullName : String) :
    (∃ type ∈ (ofUnits units).types, type.fullName = fullName) ↔
      ∃ type ∈ units.flatMap SourceUnit.types, type.fullName = fullName := by
  have found := congrArg Option.isSome (find?_ofUnits units fullName)
  rw [find?, Option.isSome_map, Bool.eq_iff_iff, List.find?_isSome, List.find?_isSome] at found
  simpa only [beq_iff_eq] using found

/-- The methods of a type are those of all declarations of its full name. -/
theorem methods_of_mem {type : TypeSymbol} (member : type ∈ (ofUnits units).types) :
    type.methods =
      ((PlacedMethod.ofUnits units).filter
        fun placed => placed.type.fullName == type.fullName).map
          (PlacedMethod.symbol (ofUnits units).declared) := by
  obtain ⟨head, -, rfl⟩ := List.mem_map.mp member
  rw [declared_ofUnits]
  exact (PlacedMethod.map_symbol_filter _ head.fullName (units.flatMap SourceUnit.types)).symm

/-- All types together have the methods that are visited. -/
theorem methods_perm (distinct : ((ofUnits units).types.map (·.fullName)).Nodup) :
    ((ofUnits units).types.flatMap (·.methods)).Perm
      ((PlacedMethod.ofUnits units).map (PlacedMethod.symbol (ofUnits units).declared)) := by
  have ofNames : (ofUnits units).types.flatMap (·.methods) =
      (((ofUnits units).types.map (·.fullName)).flatMap fun fullName =>
        (PlacedMethod.ofUnits units).filter fun placed =>
          placed.type.fullName == fullName).map
            (PlacedMethod.symbol (ofUnits units).declared) := by
    rw [List.flatMap_map, List.map_flatMap]
    exact List.flatMap_congr fun type member => methods_of_mem units member
  have everyOne : ((PlacedMethod.ofUnits units).filter fun placed =>
      ((ofUnits units).types.map (·.fullName)).contains placed.type.fullName) =
        PlacedMethod.ofUnits units := by
    rw [List.filter_eq_self]
    intro placed member
    obtain ⟨type, isType, named⟩ := (exists_fullName_iff units placed.type.fullName).mpr
      ⟨placed.type, PlacedMethod.type_mem_of_mem member, rfl⟩
    rw [List.contains_iff_mem]
    exact List.mem_map.mpr ⟨type, isType, named⟩
  rw [ofNames]
  refine List.Perm.map _ ?_
  have sorted := flatMap_filter_perm (fun placed : PlacedMethod => placed.type.fullName) distinct
    (PlacedMethod.ofUnits units)
  rwa [everyOne] at sorted

/-- Every method declaration of the files is visited once. -/
theorem visited_perm :
    ((PlacedMethod.ofUnits units).map (·.method)).Perm (units.flatMap SourceUnit.methods) := by
  rw [PlacedMethod.ofUnits, List.flatMap_assoc, List.map_flatMap]
  exact List.Perm.flatMap_left units fun unit _ => unit.placed_perm

/-- The table of some files is the faithful merge of their declarations.  It is what comes
out of the two passes; its types have different full names, and the index gives the place
of each and of no other.  A full name is present exactly if a declaration of the files has
it.  The methods of a type are those of all declarations of its full name, in the order in
which they are visited, and each tells what is written at its declaration.  So all types
together have every method that is visited once, and every method declaration of the files
is visited once. -/
theorem merges_declarations :
    (TypeIndex.ofUnits units).types = (TypeTable.ofUnits units).types ∧
      ((TypeTable.ofUnits units).types.map (·.fullName)).Nodup ∧
      (∀ (fullName : String) (place : Nat),
        (TypeIndex.ofUnits units).places[fullName]? = some place ↔
          ∃ type, (TypeTable.ofUnits units).types[place]? = some type ∧
            type.fullName = fullName) ∧
      (∀ fullName, (TypeTable.ofUnits units).find? fullName =
        (TypeIndex.ofUnits units).places[fullName]?.bind
          fun place => (TypeTable.ofUnits units).types[place]?) ∧
      (∀ fullName, (∃ type ∈ (TypeTable.ofUnits units).types, type.fullName = fullName) ↔
        ∃ type ∈ units.flatMap SourceUnit.types, type.fullName = fullName) ∧
      (∀ type ∈ (TypeTable.ofUnits units).types, type.methods =
        ((PlacedMethod.ofUnits units).filter
          fun placed => placed.type.fullName == type.fullName).map
            (PlacedMethod.symbol (TypeTable.ofUnits units).declared)) ∧
      (∀ type ∈ (TypeTable.ofUnits units).types,
        List.Forall₂ (MethodSymbol.Tells (TypeTable.ofUnits units).declared) type.methods
          ((PlacedMethod.ofUnits units).filter
            fun placed => placed.type.fullName == type.fullName)) ∧
      ((TypeTable.ofUnits units).types.flatMap (·.methods)).Perm
        ((PlacedMethod.ofUnits units).map
          (PlacedMethod.symbol (TypeTable.ofUnits units).declared)) ∧
      ((PlacedMethod.ofUnits units).map (·.method)).Perm
        (units.flatMap SourceUnit.methods) := by
  have same := TypeIndex.types_ofUnits units
  have indexed : TypeSymbol.Indexes (ofUnits units).types (TypeIndex.ofUnits units).places :=
    same ▸ (TypeIndex.ofUnits units).indexed
  refine ⟨same, indexed.nodup, indexed, fun fullName => ?_, exists_fullName_iff units,
    fun type => methods_of_mem units, fun type member => ?_, methods_perm units indexed.nodup,
    visited_perm units⟩
  · rw [find?, ← same]
    exact (TypeIndex.ofUnits units).find?_types fullName
  · rw [methods_of_mem units member, List.forall₂_map_left_iff]
    exact List.forall₂_same.mpr fun placed _ => placed.tells_symbol _

end TypeTable

end ErrorAccessors
