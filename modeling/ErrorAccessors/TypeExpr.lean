/-
# Types as they are written

The type expressions that may stand at a declaration: built-in keywords, dotted
and possibly generic names, tuples, and the nullable, array and pointer
suffixes.  `TypeExpr.text` is the canonical spelling of a type, which does not
depend on how the type was spaced when it was written.
-/

import ErrorAccessors.Source.Span

namespace ErrorAccessors

mutual

/-- A type as written.  Every form carries the span of the whole type.  The
rank of an array is its number of dimensions. -/
inductive TypeExpr where
  | predefined (keyword : String) (span : Span)
  | named (qualifier : Option String) (segments : List NameSegment) (span : Span)
  | nullable (inner : TypeExpr) (span : Span)
  | array (element : TypeExpr) (rank : Nat) (span : Span)
  | pointer (inner : TypeExpr) (span : Span)
  | tuple (elements : List TupleElement) (span : Span)

/-- One part of a dotted name with its type arguments. -/
structure NameSegment where
  name : String
  arguments : List TypeExpr

/-- One element of a tuple type, possibly named. -/
structure TupleElement where
  type : TypeExpr
  name : Option String

end

instance : Inhabited TypeExpr := ⟨.predefined "void" (Span.atFileStart "")⟩
instance : Inhabited NameSegment := ⟨⟨"", []⟩⟩
instance : Inhabited TupleElement := ⟨⟨default, none⟩⟩

/-- The built-in type keywords. -/
def TypeExpr.keywords : List String :=
  ["bool", "byte", "sbyte", "char", "decimal", "double", "float", "int", "uint", "nint", "nuint",
    "long", "ulong", "object", "short", "ushort", "string", "void", "dynamic"]

/-- The suffix of an array type with a number of dimensions. -/
def TypeExpr.arraySuffix (rank : Nat) : String :=
  "[" ++ String.ofList (List.replicate (rank - 1) ',') ++ "]"

mutual

/-- The canonical spelling of a type. -/
def TypeExpr.text : TypeExpr → String
  | .predefined keyword _ => keyword
  | .named qualifier segments _ =>
    match qualifier with
    | none => NameSegment.textOfList segments
    | some name => name ++ "::" ++ NameSegment.textOfList segments
  | .nullable inner _ => inner.text ++ "?"
  | .array element rank _ => element.text ++ TypeExpr.arraySuffix rank
  | .pointer inner _ => inner.text ++ "*"
  | .tuple elements _ => "(" ++ TupleElement.textOfList elements ++ ")"

/-- Types separated by commas. -/
def TypeExpr.textOfList : List TypeExpr → String
  | [] => ""
  | [type] => type.text
  | type :: next :: rest => type.text ++ ", " ++ TypeExpr.textOfList (next :: rest)

/-- A part of a name with its type arguments, if it has any. -/
def NameSegment.text : NameSegment → String
  | ⟨name, []⟩ => name
  | ⟨name, first :: rest⟩ => name ++ "<" ++ TypeExpr.textOfList (first :: rest) ++ ">"

/-- The parts of a name, separated by dots. -/
def NameSegment.textOfList : List NameSegment → String
  | [] => ""
  | [segment] => segment.text
  | segment :: next :: rest => segment.text ++ "." ++ NameSegment.textOfList (next :: rest)

/-- A tuple element with its name, if it has one. -/
def TupleElement.text : TupleElement → String
  | ⟨type, none⟩ => type.text
  | ⟨type, some name⟩ => type.text ++ " " ++ name

/-- Tuple elements separated by commas. -/
def TupleElement.textOfList : List TupleElement → String
  | [] => ""
  | [element] => element.text
  | element :: next :: rest => element.text ++ ", " ++ TupleElement.textOfList (next :: rest)

end

namespace TypeExpr

/-- The span of a type. -/
def span : TypeExpr → Span
  | predefined _ span | named _ _ span | nullable _ span | array _ _ span | pointer _ span
  | tuple _ span => span

/-- Whether a type is the keyword `void`. -/
def isVoid : TypeExpr → Bool
  | predefined keyword _ => keyword == "void"
  | _ => false

end TypeExpr

end ErrorAccessors
