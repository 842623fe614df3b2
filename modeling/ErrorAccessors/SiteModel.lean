/-
# What is generated for a marked method

A site model holds everything that the sources of one method are made from: its
error entries, the shape of what it returns, and the using directives that it
sees.  Reading a model looks the method up among the declared types.  An
annotation without a usable code and message is skipped with a warning, and the
warning stands even if the method is rejected for another reason.
-/

import ErrorAccessors.Diagnostic.Code
import ErrorAccessors.Grammar
import ErrorAccessors.MarkedSite
import ErrorAccessors.TypeTable

namespace ErrorAccessors

/-- One annotated error: a code and its message. -/
structure ErrorEntry where
  code : Int
  message : String
deriving DecidableEq, Repr, Inhabited

/-- What the accessors of a method return: the spelled payload, and the
method's own generic parameters. -/
structure ReturnShape where
  payload : Payload String
  generics : List String
deriving DecidableEq, Repr, Inhabited

/-- Everything that is generated from for one method. -/
structure SiteModel where
  site : MarkedSite
  /-- The annotated errors in source order. -/
  entries : List ErrorEntry
  shape : ReturnShape
  /-- The using directives seen at the method. -/
  imports : List UsingDirective
deriving DecidableEq, Repr, Inhabited

/-- Why nothing is generated for a site. -/
inductive SiteError where
  | missingMethod (typeName method : String)
  | duplicateCode (method : String) (code : Int)
  | nameCollision (method name : String)
  | unrenderableType (text : String)
deriving DecidableEq, Repr, Inhabited

/-- What is said about a rejected site. -/
def SiteError.message : SiteError → String
  | missingMethod typeName method =>
    "method `" ++ method ++ "` is not declared on `" ++ typeName ++ "`"
  | duplicateCode method code =>
    "error code " ++ toString code ++ " appears more than once on `" ++ method ++ "`"
  | nameCollision method name =>
    "messages on `" ++ method ++ "` both derive the accessor name `" ++ name ++ "`"
  | unrenderableType text => "return type `" ++ text ++ "` cannot be rendered"

/-- The error that an annotation declares, if both arguments are usable. -/
def AppliedAttribute.errorEntry? (applied : AppliedAttribute) (marker : Marker) :
    Option ErrorEntry :=
  match applied.intArgument? 0 marker.codeParameter,
    applied.strArgument? 1 marker.messageParameter with
  | some code, some message => some ⟨code, message⟩
  | _, _ => none

namespace MethodSymbol

/-- The marker attributes of a method. -/
def annotations (method : MethodSymbol) (marker : Marker) : List AppliedAttribute :=
  method.attributes.filter fun applied => marker.accepts applied.name

/-- Whether a method carries the marker. -/
def isMarked (method : MethodSymbol) (marker : Marker) : Bool :=
  method.attributes.any fun applied => marker.accepts applied.name

/-- The errors that a method declares, in source order. -/
def errorEntries (method : MethodSymbol) (marker : Marker) : List ErrorEntry :=
  (method.annotations marker).filterMap fun applied => applied.errorEntry? marker

/-- The warning about an annotation without a usable code and message. -/
def unusableAttribute (method : MethodSymbol) (marker : Marker) (applied : AppliedAttribute) :
    Diagnostic :=
  .warning .unusableAttribute
    ("[" ++ applied.name ++ "] on `" ++ method.name ++ "` needs an integer `" ++
      marker.codeParameter ++ "` and a string `" ++ marker.messageParameter ++
      "`; annotation skipped")
    applied.span

/-- The warnings about the annotations of a method. -/
def annotationWarnings (method : MethodSymbol) (marker : Marker) : List Diagnostic :=
  ((method.annotations marker).filter fun applied => (applied.errorEntry? marker).isNone).map
    (method.unusableAttribute marker)

/-- The spelling of a payload type.  A type without any spelling is
rejected. -/
def spell (method : MethodSymbol) (type : BoundType) : Except SiteError String :=
  let spelled := type.render method.typeParameters
  if spelled = "" then .error (.unrenderableType method.returnExpr.text) else .ok spelled

/-- What the accessors of a method return. -/
def returnShape (method : MethodSymbol) (grammar : ResultGrammar) :
    Except SiteError ReturnShape := do
  let payload : Payload String ←
    match grammar.payload method.returnType with
    | .void => pure .void
    | .value type => .value <$> method.spell type
    | .asyncValue type => .asyncValue <$> method.spell type
  return ⟨payload, method.typeParameters⟩

end MethodSymbol

/-- The method of a type that a name stands for: the first marked one, or else
the first one of that name. -/
def TypeSymbol.method? (type : TypeSymbol) (marker : Marker) (name : String) :
    Option MethodSymbol :=
  let named := type.methods.filter fun method => method.name == name
  (named.find? fun method => method.isMarked marker).or named.head?

/-- What is found out about one site.  The outcome is `none` if the type is not
declared at all. -/
structure SiteReading where
  outcome : Except SiteError (Option SiteModel)
  warnings : List Diagnostic

/-- Read the model of a site. -/
def MarkedSite.read (site : MarkedSite) (table : TypeTable) (marker : Marker)
    (grammar : ResultGrammar) : SiteReading :=
  match table.find? site.fullName with
  | none => ⟨.ok none, []⟩
  | some type =>
    match type.method? marker site.method with
    | none => ⟨.error (.missingMethod type.name site.method), []⟩
    | some method =>
      ⟨(method.returnShape grammar).map fun shape =>
        some ⟨site, method.errorEntries marker, shape, method.imports⟩,
        method.annotationWarnings marker⟩

end ErrorAccessors
