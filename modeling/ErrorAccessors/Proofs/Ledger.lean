/-
# What the ledger lets through

The ledger decides which shared artifacts are made.  Selecting from two lists in
turn is selecting from one, so a run may be read as one selection from all the
artifacts that it asked for.  Of those the ledger lets through every key that it
does not hold yet, and each only once.

The order in which artifacts come out is that of their first requests.  No law
here is about that order, because none of the results on runs depends on it.
-/

import ErrorAccessors.Artifact
import Mathlib.Data.List.Dedup

namespace ErrorAccessors.Ledger

theorem admits_iff {ledger : Ledger} {key : ArtifactKey} (shared : key.isShared = true) :
    ledger.admits key = true ↔ key ∉ ledger.keys := by
  simp [admits, contains, shared]

/-- Entering a shared key makes the ledger hold that key and nothing else that
is new. -/
theorem mem_keys_enter {ledger : Ledger} {entered key : ArtifactKey}
    (shared : entered.isShared = true) :
    key ∈ (ledger.enter entered).keys ↔ key = entered ∨ key ∈ ledger.keys := by
  unfold enter
  split
  · simp
  · next held =>
      have present : entered ∈ ledger.keys := by simpa [shared, contains] using held
      constructor
      · exact Or.inr
      · rintro (rfl | known)
        · exact present
        · exact known

theorem select_nil (ledger : Ledger) : ledger.select [] = ([], ledger) := rfl

theorem select_cons (ledger : Ledger) (artifact : Artifact) (rest : List Artifact) :
    ledger.select (artifact :: rest) =
      if ledger.admits artifact.key then
        (artifact :: ((ledger.enter artifact.key).select rest).1,
          ((ledger.enter artifact.key).select rest).2)
      else ledger.select rest := rfl

/-- Selecting from two lists in turn is selecting from the two behind each
other. -/
theorem select_append (ledger : Ledger) (first second : List Artifact) :
    ledger.select (first ++ second) =
      ((ledger.select first).1 ++ ((ledger.select first).2.select second).1,
        ((ledger.select first).2.select second).2) := by
  induction first generalizing ledger with
  | nil => simp [select_nil]
  | cons artifact rest ih =>
      simp only [List.cons_append, select_cons]
      split
      · simp [ih]
      · exact ih ledger

/-- What is selected was asked for. -/
theorem mem_of_mem_select {ledger : Ledger} {artifacts : List Artifact} {artifact : Artifact}
    (selected : artifact ∈ (ledger.select artifacts).1) : artifact ∈ artifacts := by
  induction artifacts generalizing ledger with
  | nil => simp [select_nil] at selected
  | cons first rest ih =>
      simp only [select_cons] at selected
      split at selected
      · rcases List.mem_cons.mp selected with rfl | later
        · exact List.mem_cons_self
        · exact List.mem_cons_of_mem _ (ih later)
      · exact List.mem_cons_of_mem _ (ih selected)

section Shared

variable {artifacts : List Artifact} (shared : ∀ artifact ∈ artifacts, artifact.key.isShared = true)

include shared

/-- No key that the ledger holds already is let through. -/
theorem key_notMem_of_mem_select {ledger : Ledger} {artifact : Artifact}
    (selected : artifact ∈ (ledger.select artifacts).1) : artifact.key ∉ ledger.keys := by
  induction artifacts generalizing ledger with
  | nil => simp [select_nil] at selected
  | cons first rest ih =>
      obtain ⟨firstShared, restShared⟩ := List.forall_mem_cons.mp shared
      simp only [select_cons] at selected
      split at selected
      · next admitted =>
          rcases List.mem_cons.mp selected with rfl | later
          · exact (admits_iff firstShared).mp admitted
          · have outside := ih restShared later
            rw [mem_keys_enter firstShared] at outside
            exact fun held => outside (Or.inr held)
      · exact ih restShared selected

/-- No key is let through twice. -/
theorem nodup_map_key_select (ledger : Ledger) :
    ((ledger.select artifacts).1.map (·.key)).Nodup := by
  induction artifacts generalizing ledger with
  | nil => simp [select_nil]
  | cons first rest ih =>
      obtain ⟨firstShared, restShared⟩ := List.forall_mem_cons.mp shared
      simp only [select_cons]
      split
      · rw [List.map_cons, List.nodup_cons]
        refine ⟨fun repeated => ?_, ih restShared _⟩
        obtain ⟨later, selected, sameKey⟩ := List.mem_map.mp repeated
        have outside := key_notMem_of_mem_select restShared selected
        exact outside ((mem_keys_enter firstShared).mpr (Or.inl sameKey))
      · exact ih restShared _

/-- Every key that the ledger does not hold is let through, when it is asked
for. -/
theorem exists_mem_select (ledger : Ledger) {artifact : Artifact} (asked : artifact ∈ artifacts)
    (absent : artifact.key ∉ ledger.keys) :
    ∃ selected ∈ (ledger.select artifacts).1, selected.key = artifact.key := by
  induction artifacts generalizing ledger with
  | nil => simp at asked
  | cons first rest ih =>
      obtain ⟨firstShared, restShared⟩ := List.forall_mem_cons.mp shared
      by_cases sameKey : first.key = artifact.key
      · have admitted : ledger.admits first.key = true :=
          (admits_iff firstShared).mpr (sameKey ▸ absent)
        exact ⟨first, by simp [select_cons, admitted], sameKey⟩
      · have later : artifact ∈ rest := by
          rcases List.mem_cons.mp asked with rfl | later
          · exact absurd rfl sameKey
          · exact later
        simp only [select_cons]
        split
        · have stillAbsent : artifact.key ∉ (ledger.enter first.key).keys := by
            rw [mem_keys_enter firstShared]
            rintro (same | held)
            · exact sameKey same.symm
            · exact absent held
          obtain ⟨selected, member, same⟩ := ih restShared _ later stillAbsent
          exact ⟨selected, List.mem_cons_of_mem _ member, same⟩
        · exact ih restShared _ later absent

end Shared

/-- Asking an empty ledger for artifacts that are made from their keys gives one
artifact for each key. -/
theorem select_empty_perm {make : ArtifactKey → Artifact} (made : ∀ key, (make key).key = key)
    {keys : List ArtifactKey} (shared : ∀ key ∈ keys, key.isShared = true) :
    (empty.select (keys.map make)).1.Perm (keys.dedup.map make) := by
  have allShared : ∀ artifact ∈ keys.map make, artifact.key.isShared = true := by
    intro artifact member
    obtain ⟨key, asked, rfl⟩ := List.mem_map.mp member
    rw [made]
    exact shared key asked
  have injective : Function.Injective make := fun first second same => by
    rw [← made first, ← made second, same]
  rw [List.perm_ext_iff_of_nodup (List.Nodup.of_map _ (nodup_map_key_select allShared empty))
    ((List.nodup_dedup keys).map injective)]
  intro artifact
  constructor
  · intro selected
    obtain ⟨key, asked, rfl⟩ := List.mem_map.mp (mem_of_mem_select selected)
    exact List.mem_map_of_mem (List.mem_dedup.mpr asked)
  · intro wanted
    obtain ⟨key, asked, rfl⟩ := List.mem_map.mp wanted
    obtain ⟨selected, member, sameKey⟩ := exists_mem_select allShared empty
      (List.mem_map_of_mem (List.mem_dedup.mp asked)) (by simp [empty])
    obtain ⟨other, _, rfl⟩ := List.mem_map.mp (mem_of_mem_select member)
    have same : other = key := by simpa only [made] using sameKey
    exact same ▸ member

end ErrorAccessors.Ledger
