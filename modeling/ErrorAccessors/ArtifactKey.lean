/-
# Generated artifacts and their names

An artifact is a generated source file.  Some artifacts belong to a type and
some to one of its methods, and the key of an artifact says which kind it is
and what it belongs to.  The name of an artifact is made from its key, leaving
out parts that are empty.
-/

import ErrorAccessors.Json

namespace ErrorAccessors

/-- The artifacts of a type. -/
inductive TypeArtifact where
  /-- The entry point of a type in the factory of results. -/
  | resultsFactory
  /-- The shell of the type in the repository of error codes. -/
  | errorRepository
  /-- The shell of the class that provides the errors of the type. -/
  | classErrorsProvider
deriving DecidableEq, Repr, Inhabited

/-- The artifacts of a method. -/
inductive MethodArtifact where
  /-- The property through which the accessors are reached. -/
  | errorsProvider
  /-- The accessors. -/
  | methodErrors
  /-- The constants for the codes. -/
  | methodErrorCodes
deriving DecidableEq, Repr, Inhabited

/-- What identifies an artifact. -/
inductive ArtifactKey where
  | ofType (kind : TypeArtifact) (space typeName : String)
  | ofMethod (kind : MethodArtifact) (space typeName method : String)
deriving DecidableEq, Repr, Inhabited

/-- The word for an artifact of a type, in names and in reports. -/
def TypeArtifact.label : TypeArtifact → String
  | resultsFactory => "ResultsFactory"
  | errorRepository => "ErrorRepository"
  | classErrorsProvider => "ClassErrorsProvider"

namespace MethodArtifact

/-- The word for an artifact of a method in reports. -/
def label : MethodArtifact → String
  | errorsProvider => "ErrorsProvider"
  | methodErrors => "MethodErrors"
  | methodErrorCodes => "MethodErrorCodes"

/-- The word for an artifact of a method in names. -/
def ending : MethodArtifact → String
  | errorsProvider => "ErrorsProvider"
  | methodErrors => "Errors"
  | methodErrorCodes => "ErrorCodes"

end MethodArtifact

namespace ArtifactKey

/-- Whether artifacts of this key are generated once per run.  The accessors
and constants of a method are generated whenever they are asked for. -/
def isShared : ArtifactKey → Bool
  | ofType .. => true
  | ofMethod kind .. => kind == .errorsProvider

/-- The parts of the name: namespace, type, method and kind. -/
def segments (key : ArtifactKey) : List String :=
  let parts :=
    match key with
    | ofType kind space typeName => [space, typeName, kind.label]
    | ofMethod kind space typeName method => [space, typeName, method, kind.ending]
  parts.filter fun part => part ≠ ""

/-- The key as a text. -/
def text (key : ArtifactKey) : String :=
  "_".intercalate key.segments

/-- The name of the artifact, with the beginning that all names of a project
share. -/
def name (key : ArtifactKey) (beginning : String) : String :=
  "_".intercalate ((beginning :: key.segments).filter fun part => part ≠ "")

/-- The JSON form of a key. -/
def toJson : ArtifactKey → Json
  | ofType kind space typeName =>
    .obj [(kind.label, .obj [("namespace", .str space), ("type_name", .str typeName)])]
  | ofMethod kind space typeName method =>
    .obj [(kind.label, .obj [("namespace", .str space), ("type_name", .str typeName),
      ("method", .str method)])]

end ArtifactKey

end ErrorAccessors
