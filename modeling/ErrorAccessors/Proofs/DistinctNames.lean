/-
# The names of one method's accessors differ

An entry whose derived name is taken gets the first suffixed name that is not.
Suffixed names differ, so one more of them than there are taken names suffices,
and a name that is chosen is never one that was taken.  By induction on the
entries, the names of a method differ from each other and from those of its two
classes, whatever the settings say about names that clash.
-/

import ErrorAccessors.Naming
import Mathlib.Data.List.Nodup
import Mathlib.Data.List.Perm.Subperm

namespace ErrorAccessors

namespace Naming

/-- Every attempt gives another name. -/
theorem suffixed_injective (base : String) (code : Int) :
    Function.Injective (suffixed base code) := by
  have longer (attempt : Nat) :
      base ++ toString code.natAbs ≠
        base ++ toString code.natAbs ++ "_" ++ toString (attempt + 2) := by
    intro same
    have lengths := congrArg String.length same
    simp only [String.length_append] at lengths
    have : "_".length = 1 := rfl
    omega
  intro first second same
  cases first with
  | zero =>
      cases second with
      | zero => rfl
      | succ second => exact absurd same (longer second)
  | succ first =>
      cases second with
      | zero => exact absurd same.symm (longer first)
      | succ second =>
          have numerals : toString (first + 2) = toString (second + 2) :=
            (String.append_right_inj _).mp same
          have numbers : first + 2 = second + 2 := by
            have read := congrArg (fun text : String => Nat.ofDigitChars 10 text.toList 0) numerals
            simpa only [Nat.toString_eq_ofList_toDigits, String.toList_ofList,
              Nat.ofDigitChars_ten_toDigits] using read
          omega

/-- The name that is found is not taken. -/
theorem freshName_not_mem (base : String) (code : Int) (taken : List String) :
    freshName base code taken ∉ taken := by
  let names := (List.range (taken.length + 1)).map (suffixed base code)
  have differ : names.Nodup := List.nodup_range.map (suffixed_injective base code)
  have exceeds : ¬names ⊆ taken := by
    intro within
    have lengths := (differ.subperm within).length_le
    simp only [names, List.length_map, List.length_range] at lengths
    omega
  have isFound : freshName base code taken =
      (names.find? fun name => !taken.contains name).getD base := rfl
  rw [isFound]
  cases found : names.find? fun name => !taken.contains name with
  | none =>
      refine absurd (fun name member => ?_) exceeds
      simpa using List.find?_eq_none.mp found name member
  | some name => simpa using List.find?_some found

variable {emission : Emission} {site : MarkedSite}

theorem chooseName_not_mem {policy : NameCollisions} {earlier : List NamedEntry}
    {entry : ErrorEntry} {name : String}
    (chosen : (chooseName policy site earlier entry).outcome = .ok name) :
    name ∉ reserved site.method ++ earlier.map (·.name) := by
  simp only [chooseName] at chosen
  split at chosen
  · cases policy with
    | error => cases chosen
    | suffix =>
        cases chosen
        exact freshName_not_mem _ _ _
  · next free =>
      cases chosen
      simpa using free

/-- Each name differs from those in front of it. -/
theorem nodup_nameBehind {earlier named : List NamedEntry} {entries : List ErrorEntry}
    (differ : (reserved site.method ++ earlier.map (·.name)).Nodup)
    (isNamed : (nameBehind emission site earlier entries).outcome = .ok named) :
    (reserved site.method ++ named.map (·.name)).Nodup := by
  induction entries generalizing earlier with
  | nil =>
      cases isNamed
      exact differ
  | cons entry rest ih =>
      unfold nameBehind at isNamed
      cases checked : (checkCode emission.duplicateCodes site earlier entry.code).outcome with
      | error error => simp [checked] at isNamed
      | ok done =>
          cases chosen : (chooseName emission.nameCollisions site earlier entry).outcome with
          | error error => simp [checked, chosen] at isNamed
          | ok name =>
              simp only [checked, chosen] at isNamed
              refine ih ?_ isNamed
              rw [List.map_append, ← List.append_assoc]
              exact differ.append (List.nodup_singleton name)
                (List.disjoint_singleton.mpr (chooseName_not_mem chosen))

theorem nodup_reserved (method : String) : (reserved method).Nodup := by
  simp [reserved]

end Naming

/-- The names of the accessors of a method differ from each other and from the
names of the classes around them. -/
theorem SiteModel.nodup_named {model : SiteModel} {emission : Emission}
    {entries : List NamedEntry} (named : (model.named emission).outcome = .ok entries) :
    (Naming.reserved model.site.method ++ entries.map (·.name)).Nodup :=
  Naming.nodup_nameBehind (by simpa using Naming.nodup_reserved _) named

end ErrorAccessors
