/-
# The texts of generated sources

Each artifact has a template, a function from names and entries to the text of
a source file.  Templates do not care about layout, which is added afterwards.
A frame places the text into its namespace and imports the namespace of the
result types; further imports stand inside the namespace, where they mean what
they meant at the method.
-/

import ErrorAccessors.Settings
import ErrorAccessors.SiteModel
import ErrorAccessors.Token.StringLiteral

namespace ErrorAccessors

/-- An error entry with the name of its accessor. -/
structure NamedEntry where
  name : String
  entry : ErrorEntry
deriving DecidableEq, Repr, Inhabited

/-- Where a generated source stands and what it imports. -/
structure Frame where
  /-- The namespace of the source, empty outside every namespace. -/
  space : String
  /-- The namespace of the result types. -/
  runtimeNamespace : String
  imports : List String
deriving DecidableEq, Repr, Inhabited

namespace Template

/-- Lines in the order given, without a line end behind the last. -/
def lines (texts : List String) : String :=
  "\n".intercalate texts

/-- A declaration with its members between braces. -/
def block (head : String) (members : List String) : String :=
  head ++ "\n\x7b\n" ++ lines members ++ "\n\x7d"

/-- A declaration without members. -/
def emptyBlock (head : String) : String :=
  head ++ "\n\x7b\x7d"

/-- A declaration in its frame. -/
def inFrame (frame : Frame) (body : String) : String :=
  let imports := lines frame.imports
  "using " ++ frame.runtimeNamespace ++ ";\n" ++
    (if frame.space = "" then imports ++ "\n" ++ body
    else block ("namespace " ++ frame.space) [imports, body]) ++ "\n"

/-- The class that provides the results of a type. -/
def providerClass (typeName : String) : String :=
  "public partial class " ++ typeName ++ "ResultsProvider"

/-- The repository of error codes. -/
def repositoryClass : String :=
  "public static partial class ErrorCodeRepository"

/-- The class that holds the errors of a type. -/
def errorsClass (typeName : String) : String :=
  "public static partial class " ++ typeName ++ "Errors"

/-- The entry point of a type in the factory of results. -/
def resultsFactory (frame : Frame) (typeName : String) : String :=
  inFrame frame (block "public static partial class ResultsFactory"
    ["public static " ++ typeName ++ "ResultsProvider " ++ typeName ++ " => new();"])

/-- The property of a type's provider that leads to the accessors of a
method. -/
def errorsProvider (frame : Frame) (typeName method : String) : String :=
  inFrame frame (block (providerClass typeName)
    ["public " ++ method ++ "Errors " ++ method ++ " => new();"])

/-- The empty shell of a type in the repository of error codes. -/
def errorRepository (frame : Frame) (typeName : String) : String :=
  inFrame frame (block repositoryClass [emptyBlock (errorsClass typeName)])

/-- The empty shell of the class with the errors of a type. -/
def classErrorsProvider (frame : Frame) (typeName : String) : String :=
  inFrame frame (emptyBlock (errorsClass typeName))

/-- The type of the constant for a code. -/
def codeType (code : Int) : String :=
  if -2147483648 ≤ code ∧ code ≤ 2147483647 then "int" else "long"

/-- The constant for one code. -/
def codeConstant (named : NamedEntry) : String :=
  "public const " ++ codeType named.entry.code ++ " " ++ named.name ++ " = " ++
    toString named.entry.code ++ ";"

/-- The constants for the codes of a method. -/
def errorCodes (frame : Frame) (typeName method : String) (entries : List NamedEntry) : String :=
  inFrame frame (block repositoryClass
    [block (errorsClass typeName)
      [block ("public static class " ++ method) (entries.map codeConstant)]])

/-- Generic parameters behind a name, if there are any. -/
def genericList (generics : List String) : String :=
  if generics = [] then "" else "<" ++ ", ".intercalate generics ++ ">"

/-- The accessor for one error.  It is a property if nothing is carried, and
otherwise a method that takes what is carried. -/
def accessor (resultType : String) (shape : ReturnShape) (withMessage : Bool)
    (named : NamedEntry) : String :=
  let code := toString named.entry.code
  let message :=
    if withMessage then ", errorMessage: " ++ StringLiteral.encode named.entry.message else ""
  match shape.payload.type? with
  | none =>
    "public " ++ resultType ++ " " ++ named.name ++ " => new " ++ resultType ++
      "(succeeded: false, errorCode: " ++ code ++ message ++ ");"
  | some carried =>
    let result := resultType ++ "<" ++ carried ++ ">"
    "public " ++ result ++ " " ++ named.name ++ genericList shape.generics ++ "(" ++ carried ++
      " response = default) => new " ++ result ++ "(succeeded: false, errorCode: " ++ code ++
      ", response: response" ++ message ++ ");"

/-- The class with the accessors of a method. -/
def accessorClass (method resultType : String) (shape : ReturnShape) (entries : List NamedEntry)
    (withMessage : Bool) : String :=
  block ("public class " ++ method ++ "Errors")
    (entries.map (accessor resultType shape withMessage))

/-- The text for a build variant, given the texts with and without messages. -/
def inVariant (variant : Variant) (debugSymbol : String) (text : Bool → String) : String :=
  match variant with
  | .debug => text true
  | .release => text false
  | .both => lines ["#if " ++ debugSymbol, text true, "#else", text false, "#endif"]

/-- The accessors of a method. -/
def methodErrors (frame : Frame) (typeName method resultType : String) (shape : ReturnShape)
    (entries : List NamedEntry) (variant : Variant) (debugSymbol : String) : String :=
  inFrame frame (block (providerClass typeName)
    [inVariant variant debugSymbol (accessorClass method resultType shape entries)])

/-- A text on one line. -/
def oneLine (text : String) : String :=
  text.map fun c => if c = '\r' ∨ c = '\n' then ' ' else c

/-- The source that lists the faults of a run in comments. -/
def trace (faults : List String) : String :=
  "// resultgen trace\n" ++ String.join (faults.map fun fault => "// " ++ oneLine fault ++ "\n")

/-- The name of the source that lists the faults of a run. -/
def traceName (beginning : String) : String :=
  if beginning = "" then "ResultsGenerator_Trace" else beginning ++ "_ResultsGenerator_Trace"

end Template

end ErrorAccessors
