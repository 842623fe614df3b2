/-
# Naming the accessors of a method

Each entry of a method gets an accessor name, derived from its message.  The
accessors stand in a class `MErrors` and the constants in a class `M`, so these
two names are taken from the start, and so are the names of earlier entries.
Depending on the settings a repeated code or a taken name rejects the method or
is only warned about.  Warnings given before a rejection stand.
-/

import ErrorAccessors.AccessorName
import ErrorAccessors.Template

namespace ErrorAccessors

/-- An outcome together with the warnings given on the way to it. -/
structure Warned (α : Type) where
  outcome : Except SiteError α
  warnings : List Diagnostic

namespace Naming

/-- The names that no accessor of a method may have. -/
def reserved (method : String) : List String :=
  [method ++ "Errors", method]

/-- The names to try for an entry whose derived name is taken: the name with
its code, and then with a number from two on behind it. -/
def suffixed (base : String) (code : Int) (attempt : Nat) : String :=
  let numbered := base ++ toString code.natAbs
  if attempt = 0 then numbered else numbered ++ "_" ++ toString (attempt + 1)

/-- The first suffixed name that is not taken.  Among one name more than are
taken there is one. -/
def freshName (base : String) (code : Int) (taken : List String) : String :=
  let names := (List.range (taken.length + 1)).map (suffixed base code)
  (names.find? fun name => !taken.contains name).getD base

/-- The warning about a repeated code. -/
def repeatedCode (site : MarkedSite) (code : Int) : Diagnostic :=
  .warning .duplicateErrorCode
    ("error code " ++ toString code ++ " is used more than once on `" ++ site.qualifiedId ++ "`")
    site.span

/-- The warning about a taken name. -/
def takenName (site : MarkedSite) (message base name : String) : Diagnostic :=
  .warning .identifierCollision
    ("message \"" ++ message ++ "\" on `" ++ site.qualifiedId ++ "` derives the taken name `" ++
      base ++ "`; using `" ++ name ++ "`")
    site.span

/-- Check the code of an entry against those of earlier entries. -/
def checkCode (policy : DuplicateCodes) (site : MarkedSite) (earlier : List NamedEntry)
    (code : Int) : Warned Unit :=
  if earlier.any fun named => named.entry.code == code then
    match policy with
    | .error => ⟨.error (.duplicateCode site.qualifiedId code), []⟩
    | .warn => ⟨.ok (), [repeatedCode site code]⟩
    | .allow => ⟨.ok (), []⟩
  else ⟨.ok (), []⟩

/-- Choose the name of an entry, given the names of earlier entries. -/
def chooseName (policy : NameCollisions) (site : MarkedSite) (earlier : List NamedEntry)
    (entry : ErrorEntry) : Warned String :=
  let taken := reserved site.method ++ earlier.map (·.name)
  let base := AccessorName.ofMessage entry.message entry.code
  if taken.contains base then
    match policy with
    | .error => ⟨.error (.nameCollision site.qualifiedId base), []⟩
    | .suffix =>
      let name := freshName base entry.code taken
      ⟨.ok name, [takenName site entry.message base name]⟩
  else ⟨.ok base, []⟩

/-- Name the entries behind those that have names already. -/
def nameBehind (emission : Emission) (site : MarkedSite) (earlier : List NamedEntry) :
    List ErrorEntry → Warned (List NamedEntry)
  | [] => ⟨.ok earlier, []⟩
  | entry :: rest =>
    let code := checkCode emission.duplicateCodes site earlier entry.code
    match code.outcome with
    | .error error => ⟨.error error, code.warnings⟩
    | .ok () =>
      let chosen := chooseName emission.nameCollisions site earlier entry
      match chosen.outcome with
      | .error error => ⟨.error error, code.warnings ++ chosen.warnings⟩
      | .ok name =>
        let later := nameBehind emission site (earlier ++ [⟨name, entry⟩]) rest
        ⟨later.outcome, code.warnings ++ chosen.warnings ++ later.warnings⟩

end Naming

/-- The entries of a model with the names of their accessors. -/
def SiteModel.named (model : SiteModel) (emission : Emission) : Warned (List NamedEntry) :=
  Naming.nameBehind emission model.site [] model.entries

end ErrorAccessors
