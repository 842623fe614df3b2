/-
# The contract of marked methods

A marked method has to return a result, and an asynchronous one a wrapped
result.  A violation is reported at the name of the method, with the repair of
the return type as a suggestion if there is one.
-/

import ErrorAccessors.Diagnostic.Order
import ErrorAccessors.MarkedSite
import ErrorAccessors.Repair

namespace ErrorAccessors

/-- How the contract applies to a method. -/
inductive ContractState where
  | notAnnotated
  | annotatedSync
  | annotatedAsync
deriving DecidableEq, Repr, Inhabited

namespace MethodDecl

/-- How the contract applies to a method. -/
def contractState (method : MethodDecl) (marker : Marker) : ContractState :=
  if !method.isMarked marker then .notAnnotated
  else if method.isAsync then .annotatedAsync
  else .annotatedSync

/-- What is said about a method that breaks the contract. -/
def contractMessage (method : MethodDecl) (marker : Marker) (grammar : ResultGrammar) : String :=
  let result := grammar.resultType
  let expected :=
    if method.isAsync then
      let wrapper := grammar.defaultWrapper
      wrapper ++ "<" ++ result ++ "> or " ++ wrapper ++ "<" ++ result ++ "<T>>"
    else result ++ " or " ++ result ++ "<T>"
  (if method.isAsync then "Async method '" else "Method '") ++ method.name ++ "' defines " ++
    marker.shortName ++ " but doesn't return a " ++ expected ++ " value"

/-- The suggestion to repair the return type, if it can be repaired. -/
def repairSuggestions (method : MethodDecl) (grammar : ResultGrammar) : List Suggestion :=
  match method.repair grammar with
  | .ok edit => [⟨"Fix return type", [edit]⟩]
  | .error _ => []

/-- The violation of the contract by a method, if there is one. -/
def violation? (method : MethodDecl) (marker : Marker) (grammar : ResultGrammar) :
    Option Diagnostic :=
  if method.contractState marker = .notAnnotated then none
  else if grammar.conforms method.returnType method.isAsync then none
  else
    some { Diagnostic.error .invalidReturnType (method.contractMessage marker grammar)
        method.nameSpan with
      suggestions := method.repairSuggestions grammar }

end MethodDecl

/-- The violations in a file, in the order in which they are reported. -/
def SourceUnit.violations (unit : SourceUnit) (marker : Marker) (grammar : ResultGrammar) :
    List Diagnostic :=
  Diagnostic.sort (unit.methods.filterMap fun method => method.violation? marker grammar)

/-- The violations in a set of files, in the order in which they are
reported. -/
def ReturnContract.violations (units : List SourceUnit) (marker : Marker)
    (grammar : ResultGrammar) : List Diagnostic :=
  Diagnostic.sort (units.flatMap fun unit => unit.violations marker grammar)

end ErrorAccessors
