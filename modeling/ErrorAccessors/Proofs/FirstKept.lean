/-
# Keeping the first item of every key

Sites, heads of types and other items are collected in turn, and an item is left out if
its key is taken.  What is kept then has different keys, a search by key finds the first
item of the key, and where the keys differ from the start nothing is left out.
-/

import Mathlib.Data.List.Nodup

namespace ErrorAccessors

variable {α β γ δ : Type}

/-- Put what is kept of an item behind the others, unless its key is taken. -/
def keepFirst (key : α → String) (view : α → β) (keyOf : β → String) (kept : List β) (item : α) :
    List β :=
  if kept.any fun earlier => keyOf earlier == key item then kept else kept ++ [view item]

variable {key : α → String} {view : α → β} {keyOf : β → String}

theorem keepFirst_eq (kept : List β) (item : α) :
    keepFirst key view keyOf kept item =
      if kept.any fun earlier => keyOf earlier == key item then kept else kept ++ [view item] := rfl

theorem mem_foldl_keepFirst {items : List α} {kept : List β} {found : β}
    (member : found ∈ items.foldl (keepFirst key view keyOf) kept) :
    found ∈ kept ∨ ∃ item ∈ items, found = view item := by
  induction items generalizing kept with
  | nil => exact .inl member
  | cons item rest ih =>
      rcases ih member with known | ⟨other, later, isOther⟩
      · rw [keepFirst_eq] at known
        split at known
        · exact .inl known
        · rcases List.mem_append.mp known with held | new
          · exact .inl held
          · exact .inr ⟨item, List.mem_cons_self, List.mem_singleton.mp new⟩
      · exact .inr ⟨other, List.mem_cons_of_mem _ later, isOther⟩

section Keys

variable (same : ∀ item, keyOf (view item) = key item)
include same

theorem nodup_map_foldl_keepFirst (items : List α) {kept : List β}
    (unique : (kept.map keyOf).Nodup) :
    ((items.foldl (keepFirst key view keyOf) kept).map keyOf).Nodup := by
  induction items generalizing kept with
  | nil => exact unique
  | cons item rest ih =>
      refine ih ?_
      rw [keepFirst_eq]
      split
      · exact unique
      · next fresh =>
          rw [List.map_append, List.map_singleton, same]
          refine List.Nodup.append unique (List.nodup_singleton _) ?_
          rw [List.disjoint_singleton]
          intro known
          obtain ⟨earlier, member, isKey⟩ := List.mem_map.mp known
          exact fresh (List.any_eq_true.mpr ⟨earlier, member, by simpa using isKey⟩)

/-- Where the keys differ, all items are kept. -/
theorem foldl_keepFirst_of_nodup {items : List α} {kept : List β}
    (unique : (kept.map keyOf ++ items.map key).Nodup) :
    items.foldl (keepFirst key view keyOf) kept = kept ++ items.map view := by
  induction items generalizing kept with
  | nil => rw [List.foldl_nil, List.map_nil, List.append_nil]
  | cons item rest ih =>
      have fresh : ¬ kept.any fun earlier => keyOf earlier == key item := by
        intro known
        obtain ⟨earlier, member, isKey⟩ := List.any_eq_true.mp known
        apply List.disjoint_of_nodup_append unique (List.mem_map_of_mem member)
        rw [beq_iff_eq.mp isKey]
        exact List.mem_cons_self
      have behind : ((kept ++ [view item]).map keyOf ++ rest.map key).Nodup := by
        rwa [List.map_append, List.map_singleton, same, ← List.append_cons]
      rw [List.foldl_cons, keepFirst_eq, if_neg fresh, ih behind, List.map_cons, ← List.append_cons]

/-- What is found first under a key is what was there first. -/
theorem find?_foldl_keepFirst (name : String) (items : List α) (kept : List β) :
    (items.foldl (keepFirst key view keyOf) kept).find? (fun item => keyOf item == name) =
      (kept.find? fun item => keyOf item == name).or
        ((items.find? fun item => key item == name).map view) := by
  induction items generalizing kept with
  | nil => simp
  | cons item rest ih =>
      rw [List.foldl_cons, ih, keepFirst_eq]
      by_cases isIt : key item = name
      · rw [List.find?_cons_of_pos (by simpa using isIt)]
        split
        · next taken =>
          -- the key is taken already, so the item counts neither way
          have found : (kept.find? fun item => keyOf item == name).isSome = true := by
            rw [List.find?_isSome]
            simpa [isIt] using taken
          obtain ⟨earlier, found⟩ := Option.isSome_iff_exists.mp found
          rw [found, Option.some_or, Option.some_or]
        · rw [List.find?_append, List.find?_cons_of_pos (by simpa [same] using isIt),
            Option.or_assoc, Option.some_or]
          rfl
      · rw [List.find?_cons_of_neg (by simpa using isIt)]
        split
        · rfl
        · rw [List.find?_append, List.find?_cons_of_neg (by simpa [same] using isIt),
            List.find?_nil, Option.or_none]

end Keys

/-- Items that keep their keys when they are changed are kept alike. -/
theorem foldl_keepFirst_map {change : α → γ} {changeKept : β → δ} {otherKey : γ → String}
    {otherView : γ → δ} {otherKeyOf : δ → String}
    (sameKey : ∀ item, otherKey (change item) = key item)
    (sameView : ∀ item, otherView (change item) = changeKept (view item))
    (sameKeyOf : ∀ item, otherKeyOf (changeKept item) = keyOf item) (items : List α)
    (kept : List β) :
    (items.map change).foldl (keepFirst otherKey otherView otherKeyOf) (kept.map changeKept) =
      (items.foldl (keepFirst key view keyOf) kept).map changeKept := by
  induction items generalizing kept with
  | nil => rfl
  | cons item rest ih =>
      have step : keepFirst otherKey otherView otherKeyOf (kept.map changeKept) (change item) =
          (keepFirst key view keyOf kept item).map changeKept := by
        have taken : (kept.map changeKept).any (fun earlier =>
              otherKeyOf earlier == otherKey (change item)) =
            kept.any fun earlier => keyOf earlier == key item := by
          simp only [List.any_map, Function.comp_def, sameKeyOf, sameKey]
        simp only [keepFirst_eq, taken]
        split
        · rfl
        · rw [List.map_append, List.map_singleton, sameView]
      rw [List.map_cons, List.foldl_cons, step, ih, List.foldl_cons]

end ErrorAccessors
