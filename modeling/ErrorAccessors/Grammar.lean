/-
# Which return types are results

A method that reports errors returns the result type, with or without one type
argument, or an asynchronous wrapper around it; an asynchronous method has to
return a wrapper.  Names are compared by their last part.  The same rules serve
for types as they are written and for bound types, through the small interface
`TypeView`.
-/

import ErrorAccessors.BoundType
import ErrorAccessors.Settings
import ErrorAccessors.TypeExpr

namespace ErrorAccessors

/-- What the grammar sees of a type: the simple name of a plain named type, and
the type arguments of that name. -/
class TypeView (τ : Type) where
  head? : τ → Option String
  arguments : τ → List τ

/-- Whether a type is called `void`. -/
def TypeView.isVoid {τ : Type} [TypeView τ] (type : τ) : Bool :=
  TypeView.head? type == some "void"

instance : TypeView TypeExpr where
  head?
    | .predefined keyword _ => some keyword
    | .named _ segments _ => segments.getLast?.map (·.name)
    | _ => none
  arguments
    | .named _ segments _ => (segments.getLast?.map (·.arguments)).getD []
    | _ => []

/-- The simple name of a bound type that is no tuple and has no suffix. -/
def BoundType.head? (type : BoundType) : Option String :=
  if type.suffix = "" ∧ !type.isTuple ∧ type.name ≠ "" then some type.name else none

instance : TypeView BoundType where
  head? := BoundType.head?
  arguments type := if type.head?.isSome then type.arguments else []

/-- What a result carries. -/
inductive Payload (τ : Type) where
  /-- Nothing beside success or failure. -/
  | void
  /-- A value. -/
  | value (type : τ)
  /-- A value under an asynchronous wrapper. -/
  | asyncValue (type : τ)
deriving DecidableEq, Repr, Inhabited

/-- The same payload with another view of its type. -/
def Payload.map {σ τ : Type} (view : σ → τ) : Payload σ → Payload τ
  | void => void
  | value type => value (view type)
  | asyncValue type => asyncValue (view type)

/-- The type of the value, if there is one. -/
def Payload.type? {τ : Type} : Payload τ → Option τ
  | void => none
  | value type | asyncValue type => some type

namespace ResultGrammar

variable {τ : Type} [TypeView τ]

/-- The wrapper used where one has to be made up. -/
def defaultWrapper (grammar : ResultGrammar) : String :=
  grammar.asyncWrappers.headD "Task"

/-- Whether a name is that of a wrapper. -/
def isWrapper (grammar : ResultGrammar) (name : String) : Bool :=
  grammar.asyncWrappers.contains name

/-- The type under a wrapper. -/
def unwrap? (grammar : ResultGrammar) (type : τ) : Option τ :=
  match TypeView.head? type, TypeView.arguments type with
  | some name, [inner] => if grammar.isWrapper name then some inner else none
  | _, _ => none

/-- Whether a type is a wrapper around nothing. -/
def isUnitWrapper (grammar : ResultGrammar) (type : τ) : Bool :=
  (TypeView.head? type).any grammar.isWrapper && (TypeView.arguments type).isEmpty

/-- Whether a type is the result type with at most one argument. -/
def isResult (grammar : ResultGrammar) (type : τ) : Bool :=
  TypeView.head? type == some grammar.resultType && (TypeView.arguments type).length ≤ 1

/-- Whether a method, asynchronous or not, may return a type. -/
def conforms (grammar : ResultGrammar) (type : τ) (isAsync : Bool) : Bool :=
  match grammar.unwrap? type with
  | some inner => grammar.isResult inner
  | none => !isAsync && grammar.isResult type

/-- What a type carries: the single argument of the type under at most one
wrapper. -/
def payload (grammar : ResultGrammar) (type : τ) : Payload τ :=
  match grammar.unwrap? type with
  | some inner =>
    match TypeView.arguments inner with
    | [carried] => .asyncValue carried
    | _ => .void
  | none =>
    match TypeView.arguments type with
    | [carried] => .value carried
    | _ => .void

end ResultGrammar

end ErrorAccessors
