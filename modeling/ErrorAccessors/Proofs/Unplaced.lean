/-
# What is written, apart from where

Two readings of the same tokens agree in everything but the places that they
report.  This module forgets the places: every span of a type or of an
attribute is replaced by one and the same span, so that agreement up to places
is equality.

The text of an argument value that is no literal is kept, because it is what
was written and not where it stands.
-/

import ErrorAccessors.Declaration

namespace ErrorAccessors

/-- The span that stands for every place. -/
def Span.nowhere : Span := Span.atFileStart ""

mutual

/-- A type without its places. -/
def TypeExpr.unplaced : TypeExpr → TypeExpr
  | .predefined keyword _ => .predefined keyword .nowhere
  | .named qualifier segments _ => .named qualifier (NameSegment.unplacedList segments) .nowhere
  | .nullable inner _ => .nullable inner.unplaced .nowhere
  | .array element rank _ => .array element.unplaced rank .nowhere
  | .pointer inner _ => .pointer inner.unplaced .nowhere
  | .tuple elements _ => .tuple (TupleElement.unplacedList elements) .nowhere

/-- Types without their places. -/
def TypeExpr.unplacedList : List TypeExpr → List TypeExpr
  | [] => []
  | type :: rest => type.unplaced :: TypeExpr.unplacedList rest

/-- The parts of a name without the places of their type arguments. -/
def NameSegment.unplacedList : List NameSegment → List NameSegment
  | [] => []
  | ⟨name, arguments⟩ :: rest =>
    ⟨name, TypeExpr.unplacedList arguments⟩ :: NameSegment.unplacedList rest

/-- Tuple elements without the places of their types. -/
def TupleElement.unplacedList : List TupleElement → List TupleElement
  | [] => []
  | ⟨type, name⟩ :: rest => ⟨type.unplaced, name⟩ :: TupleElement.unplacedList rest

end

/-- A part of a name without the places of its type arguments. -/
def NameSegment.unplaced (segment : NameSegment) : NameSegment :=
  ⟨segment.name, segment.arguments.map TypeExpr.unplaced⟩

/-- A tuple element without the places of its type. -/
def TupleElement.unplaced (element : TupleElement) : TupleElement :=
  ⟨element.type.unplaced, element.name⟩

theorem TypeExpr.unplacedList_eq_map (types : List TypeExpr) :
    TypeExpr.unplacedList types = types.map TypeExpr.unplaced := by
  induction types with
  | nil => rfl
  | cons type rest ih => exact congrArg (type.unplaced :: ·) ih

theorem NameSegment.unplacedList_eq_map (segments : List NameSegment) :
    NameSegment.unplacedList segments = segments.map NameSegment.unplaced := by
  induction segments with
  | nil => rfl
  | cons segment rest ih =>
      obtain ⟨name, arguments⟩ := segment
      show ⟨name, TypeExpr.unplacedList arguments⟩ :: NameSegment.unplacedList rest = _
      rw [ih, TypeExpr.unplacedList_eq_map]
      rfl

theorem TupleElement.unplacedList_eq_map (elements : List TupleElement) :
    TupleElement.unplacedList elements = elements.map TupleElement.unplaced := by
  induction elements with
  | nil => rfl
  | cons element rest ih =>
      obtain ⟨type, name⟩ := element
      exact congrArg (TupleElement.unplaced ⟨type, name⟩ :: ·) ih

namespace TypeExpr

@[simp] theorem unplaced_predefined (keyword : String) (span : Span) :
    (predefined keyword span).unplaced = predefined keyword .nowhere := rfl

@[simp] theorem unplaced_named (qualifier : Option String) (segments : List NameSegment)
    (span : Span) : (named qualifier segments span).unplaced =
      named qualifier (segments.map NameSegment.unplaced) .nowhere :=
  congrArg (named qualifier · .nowhere) (NameSegment.unplacedList_eq_map segments)

@[simp] theorem unplaced_nullable (inner : TypeExpr) (span : Span) :
    (nullable inner span).unplaced = nullable inner.unplaced .nowhere := rfl

@[simp] theorem unplaced_array (element : TypeExpr) (rank : Nat) (span : Span) :
    (array element rank span).unplaced = array element.unplaced rank .nowhere := rfl

@[simp] theorem unplaced_pointer (inner : TypeExpr) (span : Span) :
    (pointer inner span).unplaced = pointer inner.unplaced .nowhere := rfl

@[simp] theorem unplaced_tuple (elements : List TupleElement) (span : Span) :
    (tuple elements span).unplaced = tuple (elements.map TupleElement.unplaced) .nowhere :=
  congrArg (tuple · .nowhere) (TupleElement.unplacedList_eq_map elements)

end TypeExpr

/-- An argument of an attribute without its place. -/
def AttributeArgument.unplaced (argument : AttributeArgument) : AttributeArgument :=
  { argument with span := .nowhere }

/-- An attribute without its places. -/
def Attribute.unplaced (applied : Attribute) : Attribute :=
  ⟨.nowhere, applied.name, applied.arguments.map AttributeArgument.unplaced⟩

/-- An attribute list without its places. -/
def AttributeList.unplaced (list : AttributeList) : AttributeList :=
  ⟨.nowhere, list.target, list.attributes.map Attribute.unplaced⟩

end ErrorAccessors
