/-
# Declarations

The outline of a source file: its using directives, namespaces, type
declarations and methods, with their attributes and modifiers.  Method bodies
are recorded only by their form, and members that are not methods or types are
not recorded at all.
-/

import ErrorAccessors.TypeExpr

namespace ErrorAccessors

/-- What a using directive brings into scope. -/
inductive UsingKind where
  /-- All types of a namespace. -/
  | ofNamespace (name : String)
  /-- The static members of a type. -/
  | ofStatic (type : String)
  /-- A new name for a type. -/
  | ofAlias (name target : String)
deriving DecidableEq, Repr, Inhabited

/-- A using directive; a global one holds for all files. -/
structure UsingDirective where
  span : Span
  isGlobal : Bool
  kind : UsingKind
deriving DecidableEq, Repr, Inhabited

/-- The spelling of what a directive brings into scope. -/
def UsingKind.text : UsingKind → String
  | ofNamespace name => "using " ++ name ++ ";"
  | ofStatic type => "using static " ++ type ++ ";"
  | ofAlias name target => "using " ++ name ++ " = " ++ target ++ ";"

/-- The canonical spelling of a directive. -/
def UsingDirective.text (directive : UsingDirective) : String :=
  if directive.isGlobal then "global " ++ directive.kind.text else directive.kind.text

/-- The value of an attribute argument.  Anything but a literal is kept as the
text that was written. -/
inductive AttributeValue where
  | int (value : Int)
  | str (value : String)
  | bool (value : Bool)
  | other (text : String)
deriving DecidableEq, Repr, Inhabited

/-- An argument of an attribute, positional or named. -/
structure AttributeArgument where
  span : Span
  name : Option String
  value : AttributeValue
deriving DecidableEq, Repr, Inhabited

/-- An attribute with the parts of its dotted name. -/
structure Attribute where
  span : Span
  name : List String
  arguments : List AttributeArgument
deriving DecidableEq, Repr, Inhabited

/-- The name by which an attribute is recognised: the last part as written. -/
def Attribute.simpleName (applied : Attribute) : String :=
  applied.name.getLastD ""

/-- Attributes between one pair of brackets, possibly with a target. -/
structure AttributeList where
  span : Span
  target : Option String
  attributes : List Attribute
deriving DecidableEq, Repr, Inhabited

/-- A modifier keyword. -/
structure Modifier where
  keyword : String
  span : Span
deriving DecidableEq, Repr, Inhabited

/-- The form of a method's body. -/
inductive MethodBody where
  | block
  | expression
  | absent
deriving DecidableEq, Repr, Inhabited

/-- A method declaration.  Its span covers everything from the attributes to
the end of the body. -/
structure MethodDecl where
  span : Span
  attributeLists : List AttributeList
  modifiers : List Modifier
  returnType : TypeExpr
  name : String
  nameSpan : Span
  typeParameters : List String
  body : MethodBody
deriving Inhabited

namespace MethodDecl

/-- Whether a method carries a modifier. -/
def hasModifier (method : MethodDecl) (keyword : String) : Bool :=
  method.modifiers.any fun modifier => modifier.keyword == keyword

/-- Whether a method is asynchronous. -/
def isAsync (method : MethodDecl) : Bool :=
  method.hasModifier "async"

/-- The attributes of all lists, in source order. -/
def attributes (method : MethodDecl) : List Attribute :=
  method.attributeLists.flatMap (·.attributes)

end MethodDecl

/-- The kinds of type declarations. -/
inductive TypeKind where
  | classType
  | structType
  | interfaceType
  | recordType
  | recordStruct
  | enumType
deriving DecidableEq, Repr, Inhabited

mutual

/-- A type declaration. -/
structure TypeDecl where
  span : Span
  kind : TypeKind
  name : String
  nameSpan : Span
  typeParameters : List String
  attributeLists : List AttributeList
  modifiers : List Modifier
  members : List TypeMember

/-- A member of a type that is recorded. -/
inductive TypeMember where
  | type (decl : TypeDecl)
  | method (decl : MethodDecl)

end

instance : Inhabited TypeMember := ⟨.method default⟩
instance : Inhabited TypeDecl := ⟨⟨default, default, "", default, [], [], [], []⟩⟩

mutual

/-- A namespace declaration with its own using directives.  A file-scoped one
extends to the end of the file. -/
structure NamespaceDecl where
  span : Span
  name : String
  isFileScoped : Bool
  usings : List UsingDirective
  members : List NamespaceMember

/-- A member of a namespace or file. -/
inductive NamespaceMember where
  | space (decl : NamespaceDecl)
  | type (decl : TypeDecl)

end

instance : Inhabited NamespaceMember := ⟨.type default⟩
instance : Inhabited NamespaceDecl := ⟨⟨default, "", false, [], []⟩⟩

/-- The outline of one source file. -/
structure SourceUnit where
  path : String
  span : Span
  usings : List UsingDirective
  members : List NamespaceMember

mutual

/-- The methods of a type and of the types nested in it, in source order. -/
def TypeDecl.methods : TypeDecl → List MethodDecl
  | ⟨_, _, _, _, _, _, _, members⟩ => TypeMember.methodsOfList members

/-- The methods among members of a type. -/
def TypeMember.methodsOfList : List TypeMember → List MethodDecl
  | [] => []
  | .method decl :: rest => decl :: TypeMember.methodsOfList rest
  | .type decl :: rest => decl.methods ++ TypeMember.methodsOfList rest

end

mutual

/-- The methods declared in a namespace, in source order. -/
def NamespaceDecl.methods : NamespaceDecl → List MethodDecl
  | ⟨_, _, _, _, members⟩ => NamespaceMember.methodsOfList members

/-- The methods among members of a namespace. -/
def NamespaceMember.methodsOfList : List NamespaceMember → List MethodDecl
  | [] => []
  | .space decl :: rest => decl.methods ++ NamespaceMember.methodsOfList rest
  | .type decl :: rest => decl.methods ++ NamespaceMember.methodsOfList rest

end

namespace SourceUnit

/-- Every method of a file, in source order. -/
def methods (unit : SourceUnit) : List MethodDecl :=
  NamespaceMember.methodsOfList unit.members

/-- The method with the shorter span; the first one if they are equal. -/
def shorter (best : Option MethodDecl) (method : MethodDecl) : Option MethodDecl :=
  match best with
  | none => some method
  | some held => if method.span.length < held.span.length then some method else some held

/-- The innermost method whose span contains an offset. -/
def methodAt? (unit : SourceUnit) (offset : Nat) : Option MethodDecl :=
  (unit.methods.filter fun method => method.span.contains offset).foldl shorter none

end SourceUnit

end ErrorAccessors
