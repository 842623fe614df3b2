/-
# Names are derived from messages

The accessor of an entry is named after its message.  If that name is taken, digits and
underscores are put behind it, and nothing else happens to it.  So the entries keep their
order, and whatever digits and underscores do not spoil is true of the names if it is true
of what is made from the messages.
-/

import ErrorAccessors.Naming
import Mathlib.Data.List.Basic

namespace ErrorAccessors

/-- A name that is made from the message of its entry, possibly with digits and underscores
behind it. -/
def NamedEntry.IsDerived (named : NamedEntry) : Prop :=
  ∃ more, named.name.toList =
      (AccessorName.ofMessage named.entry.message named.entry.code).toList ++ more ∧
    ∀ c ∈ more, c = '_' ∨ c.isDigit = true

namespace Naming

/-- The numeral of a number consists of digits. -/
theorem isDigit_of_mem_numeral {n : Nat} {c : Char} (member : c ∈ (toString n).toList) :
    c.isDigit = true := by
  rw [Nat.toString_eq_ofList_toDigits, String.toList_ofList] at member
  exact Nat.isDigit_of_mem_toDigits (by decide) (by decide) member

/-- The names that are tried have digits and underscores behind the derived name. -/
private theorem exists_of_suffixed (base : String) (code : Int) (attempt : Nat) :
    ∃ more, (suffixed base code attempt).toList = base.toList ++ more ∧
      ∀ c ∈ more, c = '_' ∨ c.isDigit = true := by
  unfold suffixed
  simp only []
  split
  · exact ⟨_, String.toList_append, fun c member => .inr (isDigit_of_mem_numeral member)⟩
  · refine ⟨(toString code.natAbs).toList ++ '_' :: (toString (attempt + 1)).toList,
      by simp, fun c member => ?_⟩
    rcases List.mem_append.mp member with first | second
    · exact .inr (isDigit_of_mem_numeral first)
    · rcases List.mem_cons.mp second with rfl | last
      · exact .inl rfl
      · exact .inr (isDigit_of_mem_numeral last)

/-- A fresh name is one of those that are tried, unless none of them is free. -/
theorem freshName_cases (base : String) (code : Int) (taken : List String) :
    freshName base code taken = base ∨
      ∃ attempt, freshName base code taken = suffixed base code attempt := by
  unfold freshName
  simp only []
  cases found : List.find? _ _ with
  | none => exact .inl rfl
  | some name =>
      obtain ⟨attempt, -, rfl⟩ := List.mem_map.mp (List.mem_of_find?_eq_some found)
      exact .inr ⟨attempt, rfl⟩

/-- A chosen name is derived from the message. -/
theorem isDerived_chooseName {policy : NameCollisions} {site : MarkedSite}
    {earlier : List NamedEntry} {entry : ErrorEntry} {name : String}
    (chosen : (chooseName policy site earlier entry).outcome = .ok name) :
    (NamedEntry.mk name entry).IsDerived := by
  have plain : (NamedEntry.mk (AccessorName.ofMessage entry.message entry.code) entry).IsDerived :=
    ⟨[], (List.append_nil _).symm, List.forall_mem_nil _⟩
  unfold chooseName at chosen
  simp only [] at chosen
  split at chosen
  · cases policy with
    | error => cases chosen
    | suffix =>
        obtain rfl := Except.ok.inj chosen
        rcases freshName_cases _ entry.code _ with same | ⟨attempt, isAttempt⟩
        · rw [same]
          exact plain
        · rw [isAttempt]
          exact exists_of_suffixed _ _ attempt
  · obtain rfl := Except.ok.inj chosen
    exact plain

/-- All entries get derived names, in their order. -/
theorem derived_nameBehind {emission : Emission} {site : MarkedSite} {entries : List ErrorEntry}
    {earlier named : List NamedEntry}
    (outcome : (nameBehind emission site earlier entries).outcome = .ok named) :
    ∃ later, named = earlier ++ later ∧ later.map (·.entry) = entries ∧
      ∀ entry ∈ later, entry.IsDerived := by
  induction entries generalizing earlier with
  | nil =>
      obtain rfl := Except.ok.inj outcome
      exact ⟨[], (List.append_nil _).symm, rfl, List.forall_mem_nil _⟩
  | cons entry entries ih =>
      unfold nameBehind at outcome
      simp only [] at outcome
      split at outcome
      · cases outcome
      · split at outcome
        · cases outcome
        · next name chosen =>
          obtain ⟨later, rfl, areEntries, areDerived⟩ := ih outcome
          exact ⟨⟨name, entry⟩ :: later, by rw [List.append_assoc, List.singleton_append],
            by rw [List.map_cons, areEntries],
            List.forall_mem_cons.mpr ⟨isDerived_chooseName chosen, areDerived⟩⟩

end Naming

/-- The entries of a model get derived names, in their order. -/
theorem SiteModel.derived_named {model : SiteModel} {emission : Emission}
    {entries : List NamedEntry} (outcome : (model.named emission).outcome = .ok entries) :
    entries.map (·.entry) = model.entries ∧ ∀ named ∈ entries, named.IsDerived := by
  obtain ⟨later, rfl, areEntries, areDerived⟩ := Naming.derived_nameBehind outcome
  exact ⟨areEntries, areDerived⟩

end ErrorAccessors
