/-
# Types with their meaning

A bound type knows, as far as the sources tell, which declaration it refers to:
the namespace and the enclosing types of the declaration, or the qualifier as it
was written if the declaration is unknown.  `BoundType.render` spells a bound
type so that generated code can use it.
-/

import ErrorAccessors.Text.Split

namespace ErrorAccessors

mutual

/-- A type after binding.  A tuple has elements and no name; every other type
has a name. -/
structure BoundType where
  /-- The simple name; empty for tuples. -/
  name : String
  /-- The namespace of a declared type, or the qualifier as it was written. -/
  space : Option String
  /-- The types around a nested type, separated by dots. -/
  container : Option String
  arguments : List BoundType
  elements : List BoundElement
  /-- The nullable, array and pointer suffixes, innermost first. -/
  suffix : String
  /-- Whether the name is that of a type parameter in scope. -/
  isParameter : Bool

/-- An element of a tuple type, possibly named. -/
structure BoundElement where
  type : BoundType
  name : Option String

end

namespace BoundType

/-- A type without qualifier, arguments and suffix. -/
def simple (name : String) : BoundType :=
  ⟨name, none, none, [], [], "", false⟩

instance : Inhabited BoundType := ⟨simple ""⟩
instance : Inhabited BoundElement := ⟨⟨default, none⟩⟩

/-- A type parameter in scope. -/
def parameter (name : String) : BoundType :=
  { simple name with isParameter := true }

/-- A tuple type. -/
def tuple (elements : List BoundElement) : BoundType :=
  { simple "" with elements }

/-- A type with a further suffix. -/
def withSuffix (type : BoundType) (suffix : String) : BoundType :=
  { type with suffix := type.suffix ++ suffix }

/-- Whether a type is a tuple. -/
def isTuple (type : BoundType) : Bool :=
  !type.elements.isEmpty

/-- A qualifier in front of a name, if there is one. -/
def qualifierText : Option String → String
  | none => ""
  | some qualifier => qualifier ++ "."

end BoundType

mutual

/-- The spelling of a type in generated code, where the given generic
parameters are left bare. -/
def BoundType.render (generics : List String) : BoundType → String
  | ⟨name, space, container, arguments, elements, suffix, _⟩ =>
    match elements with
    | element :: rest =>
      "(" ++ BoundElement.renderList generics (element :: rest) ++ ")" ++ suffix
    | [] =>
      match arguments with
      | [] =>
        if generics.contains name then name ++ suffix
        else BoundType.qualifierText space ++ BoundType.qualifierText container ++ name ++ suffix
      | argument :: rest =>
        BoundType.qualifierText space ++ BoundType.qualifierText container ++ name ++ "<" ++
          BoundType.renderList generics (argument :: rest) ++ ">" ++ suffix

/-- Types separated by commas. -/
def BoundType.renderList (generics : List String) : List BoundType → String
  | [] => ""
  | [type] => type.render generics
  | type :: next :: rest =>
    type.render generics ++ ", " ++ BoundType.renderList generics (next :: rest)

/-- A tuple element with its name, if it has one. -/
def BoundElement.render (generics : List String) : BoundElement → String
  | ⟨type, none⟩ => type.render generics
  | ⟨type, some name⟩ => type.render generics ++ " " ++ name

/-- Tuple elements separated by commas. -/
def BoundElement.renderList (generics : List String) : List BoundElement → String
  | [] => ""
  | [element] => element.render generics
  | element :: next :: rest =>
    element.render generics ++ ", " ++ BoundElement.renderList generics (next :: rest)

end

/-- The full spelling of a type. -/
def BoundType.text (type : BoundType) : String :=
  type.render []

end ErrorAccessors
