/-
# Edits that do not meet

Edits are applied from back to front.  As long as they replace stretches of a file that do
not meet, the text in front of the last edit that was applied is still that of the file, and
there every offset of the edits to come cuts the text as it cuts the file.  So such edits
can always be applied, in whatever order they are given.
-/

import ErrorAccessors.Proofs.CoherentOutline
import ErrorAccessors.Source.Edit
import Mathlib.Data.List.Perm.Basic

namespace ErrorAccessors

/-- A place of a file in the front of its text divides the front. -/
theorem SourceFile.IsPlace.divides {file : SourceFile} {offset : Nat}
    (place : file.IsPlace offset) {front rest : List Char}
    (isText : file.text.toList = front ++ rest) (within : offset ≤ Text.byteLength front) :
    ∃ first second, front = first ++ second ∧ Text.byteLength first = offset := by
  obtain ⟨before, after, isCut, rfl⟩ := place
  have cut := Text.cutAt?_append before after
  rw [← isCut, isText, Text.cutAt?_append_of_le within] at cut
  obtain ⟨⟨first, second⟩, cutFront, -⟩ := Option.map_eq_some_iff.mp cut
  exact ⟨first, second, Text.cutAt?_eq_some cutFront⟩

/-- A stretch of a text is replaced by other characters. -/
theorem Text.replaceRange?_stretch {text : String} {before covered after : List Char}
    (isText : text.toList = before ++ (covered ++ after)) (replacement : String) :
    replaceRange? text (byteLength before) (byteLength before + byteLength covered) replacement =
      some (String.ofList (before ++ replacement.toList ++ after)) := by
  rw [replaceRange?, if_pos (Nat.le_add_right _ _), isText, cutAt?_append, Nat.add_sub_cancel_left]
  simp only [Option.bind_eq_bind, Option.bind_some, cutAt?_append]
  rfl

namespace Edit

/-- An edit replaces some characters of a file. -/
structure IsIn (edit : Edit) (file : SourceFile) : Prop where
  start : file.IsPlace edit.span.start.offset
  stop : file.IsPlace edit.span.stop.offset
  covers : edit.span.start.offset < edit.span.stop.offset

/-- One of two edits ends where the other one starts, or earlier. -/
def Apart (first second : Edit) : Prop :=
  first.span.Precedes second.span ∨ second.span.Precedes first.span

theorem Apart.symm {first second : Edit} (apart : first.Apart second) : second.Apart first :=
  Or.symm apart

section Order

/-- Edits in the order in which they are applied: none starts in front of a later one. -/
def FromBack (edits : List Edit) : Prop :=
  edits.Pairwise fun edit later => later.span.start.offset ≤ edit.span.start.offset

theorem insertFromBack_perm (edit : Edit) (edits : List Edit) :
    (insertFromBack edit edits).Perm (edit :: edits) := by
  induction edits with
  | nil => exact .refl _
  | cons first rest ih =>
      rw [insertFromBack]
      split
      · exact .refl _
      · exact (ih.cons first).trans (.swap edit first rest)

theorem fromBack_insertFromBack (edit : Edit) {edits : List Edit} (ordered : FromBack edits) :
    FromBack (insertFromBack edit edits) := by
  induction edits with
  | nil => exact List.pairwise_singleton _ _
  | cons first rest ih =>
      obtain ⟨behindFirst, restOrdered⟩ := List.pairwise_cons.mp ordered
      rw [insertFromBack]
      split
      · next startsEarlier =>
        refine List.pairwise_cons.mpr ⟨?_, ordered⟩
        intro later member
        obtain rfl | inRest := List.mem_cons.mp member
        · exact startsEarlier.le
        · exact (behindFirst later inRest).trans startsEarlier.le
      · next startsLater =>
        refine List.pairwise_cons.mpr ⟨?_, ih restOrdered⟩
        intro later member
        obtain rfl | inRest := List.mem_cons.mp ((insertFromBack_perm edit rest).mem_iff.mp member)
        · exact not_lt.mp startsLater
        · exact behindFirst later inRest

/-- Ordering edits loses none of them. -/
theorem fromBack_perm (edits : List Edit) : (fromBack edits).Perm edits := by
  suffices ∀ held, (edits.foldl (fun ordered edit => insertFromBack edit ordered) held).Perm
      (edits ++ held) by simpa [fromBack] using this []
  induction edits with
  | nil => exact fun held => .refl _
  | cons edit edits ih =>
      intro held
      refine (ih _).trans ?_
      exact ((insertFromBack_perm edit held).append_left edits).trans List.perm_middle

theorem fromBack_fromBack (edits : List Edit) : FromBack (fromBack edits) := by
  suffices ∀ held, FromBack held →
      FromBack (edits.foldl (fun ordered edit => insertFromBack edit ordered) held) from
    this [] .nil
  induction edits with
  | nil => exact fun held ordered => ordered
  | cons edit edits ih => exact fun held ordered => ih _ (fromBack_insertFromBack edit ordered)

/-- Where edits are in order, one that is put among them stands at the same place among those
of some kind. -/
theorem filter_insertFromBack (kind : Edit → Bool) (edit : Edit) {edits : List Edit}
    (ordered : FromBack edits) :
    (insertFromBack edit edits).filter kind =
      if kind edit then insertFromBack edit (edits.filter kind) else edits.filter kind := by
  induction edits with
  | nil => cases isKind : kind edit <;> simp [insertFromBack, isKind]
  | cons first rest ih =>
      obtain ⟨behindFirst, restOrdered⟩ := List.pairwise_cons.mp ordered
      by_cases startsEarlier : first.span.start.offset < edit.span.start.offset
      · -- whatever is left of the others starts earlier, too
        have inFront : insertFromBack edit ((first :: rest).filter kind) =
            edit :: (first :: rest).filter kind := by
          cases left : (first :: rest).filter kind with
          | nil => rfl
          | cons other others =>
              have among : other ∈ first :: rest :=
                List.mem_of_mem_filter (left ▸ List.mem_cons_self)
              have starts : other.span.start.offset ≤ first.span.start.offset := by
                obtain rfl | inRest := List.mem_cons.mp among
                · exact le_refl _
                · exact behindFirst other inRest
              rw [insertFromBack, if_pos (starts.trans_lt startsEarlier)]
        rw [insertFromBack, if_pos startsEarlier, inFront]
        cases isKind : kind edit <;> simp [isKind]
      · rw [insertFromBack, if_neg startsEarlier]
        cases isKind : kind first with
        | false =>
            rw [List.filter_cons_of_neg (by simp [isKind]), ih restOrdered,
              List.filter_cons_of_neg (by simp [isKind])]
        | true =>
            rw [List.filter_cons_of_pos isKind, ih restOrdered, List.filter_cons_of_pos isKind,
              insertFromBack, if_neg startsEarlier]
            split <;> rfl

/-- Ordering edits keeps the order of those of some kind among each other. -/
theorem filter_fromBack (kind : Edit → Bool) (edits : List Edit) :
    (fromBack edits).filter kind = fromBack (edits.filter kind) := by
  suffices ∀ held, FromBack held →
      (edits.foldl (fun ordered edit => insertFromBack edit ordered) held).filter kind =
        (edits.filter kind).foldl (fun ordered edit => insertFromBack edit ordered)
          (held.filter kind) from this [] .nil
  induction edits with
  | nil => exact fun held ordered => rfl
  | cons edit edits ih =>
      intro held ordered
      rw [List.foldl_cons, ih _ (fromBack_insertFromBack edit ordered),
        filter_insertFromBack kind edit ordered]
      cases isKind : kind edit with
      | false => rw [List.filter_cons_of_neg (by simp [isKind]), if_neg (by simp)]
      | true => rw [List.filter_cons_of_pos isKind, List.foldl_cons, if_pos rfl]

/-- Edits that start at one place are in order as they are given. -/
theorem fromBack_of_start {start : Nat} {edits : List Edit}
    (starts : ∀ edit ∈ edits, edit.span.start.offset = start) : fromBack edits = edits := by
  have last (edit : Edit) {held : List Edit} (starts : edit.span.start.offset = start)
      (here : ∀ other ∈ held, other.span.start.offset = start) :
      insertFromBack edit held = held ++ [edit] := by
    induction held with
    | nil => rfl
    | cons first rest ih =>
        obtain ⟨firstHere, restHere⟩ := List.forall_mem_cons.mp here
        rw [insertFromBack, if_neg (by omega), ih restHere, List.cons_append]
  suffices ∀ held, (∀ edit ∈ held, edit.span.start.offset = start) →
      edits.foldl (fun ordered edit => insertFromBack edit ordered) held = held ++ edits from
    this [] nofun
  induction edits with
  | nil => exact fun held _ => (List.append_nil held).symm
  | cons edit edits ih =>
      obtain ⟨here, there⟩ := List.forall_mem_cons.mp starts
      intro held heldHere
      rw [List.foldl_cons, last edit here heldHere, ih there, List.append_assoc]
      · rfl
      · intro other member
        obtain earlier | isEdit := List.mem_append.mp member
        · exact heldHere other earlier
        · rw [List.mem_singleton.mp isEdit, here]

theorem dropAfter_sublist (kept : Edit) (edits : List Edit) :
    (dropRepeated.dropAfter kept edits).Sublist edits := by
  induction edits generalizing kept with
  | nil => exact .slnil
  | cons edit rest ih =>
      rw [dropRepeated.dropAfter]
      split
      · exact (ih kept).cons edit
      · exact (ih edit).cons_cons edit

theorem dropRepeated_sublist (edits : List Edit) : (dropRepeated edits).Sublist edits := by
  cases edits with
  | nil => exact .slnil
  | cons edit rest => exact (dropAfter_sublist edit rest).cons_cons edit

theorem sameRange_iff {first second : Edit} :
    first.sameRange second = true ↔ first.span.start.offset = second.span.start.offset ∧
      first.span.stop.offset = second.span.stop.offset := by
  simp [sameRange]

/-- The first edit of a kind that can be told from the range stays where repetitions are
dropped. -/
theorem find?_dropRepeated {kind : Edit → Bool}
    (ranged : ∀ first second : Edit, first.sameRange second = true → kind first = kind second)
    (edits : List Edit) : (dropRepeated edits).find? kind = edits.find? kind := by
  cases edits with
  | nil => rfl
  | cons edit rest =>
      rw [dropRepeated]
      induction rest generalizing edit with
      | nil => rfl
      | cons next rest ih =>
          rw [dropRepeated.dropAfter]
          split
          · next same =>
            -- the repetition is of the kind only if the edit in front of it is
            rw [ih edit, List.find?_cons, List.find?_cons, List.find?_cons, ranged edit next same]
            split <;> rfl
          · rw [List.find?_cons, ih next, ← List.find?_cons]

end Order

section Application

variable {file : SourceFile}

/-- A text is still that of a file up to an offset. -/
def KeepsFront (file : SourceFile) (text : String) (offset : Nat) : Prop :=
  ∃ front rest changed, file.text.toList = front ++ rest ∧ text.toList = front ++ changed ∧
    Text.byteLength front = offset

/-- An edit of a stretch of a text that is not reversed puts its replacement there. -/
theorem applyTo?_stretch {text : String} {edit : Edit} {before covered after : List Char}
    (isText : text.toList = before ++ (covered ++ after))
    (starts : Text.byteLength before = edit.span.start.offset)
    (stops : Text.byteLength before + Text.byteLength covered = edit.span.stop.offset) :
    applyTo? text edit = some (String.ofList (before ++ edit.replacement.toList ++ after)) := by
  have fits : edit.fits text = true := by
    rw [fits, Bool.and_eq_true, decide_eq_true_iff, decide_eq_true_iff, Text.utf8ByteSize_eq,
      isText, Text.byteLength_append, Text.byteLength_append]
    omega
  rw [applyTo?, if_pos fits, ← stops, ← starts]
  exact Text.replaceRange?_stretch isText edit.replacement

/-- An edit in the front of a file that a text has kept can be applied to the text, and what
stands in front of the edit is kept. -/
theorem applyTo?_of_keepsFront {text : String} {offset : Nat} (keeps : KeepsFront file text offset)
    {edit : Edit} (isIn : edit.IsIn file) (inFront : edit.span.stop.offset ≤ offset) :
    ∃ fixed, applyTo? text edit = some fixed ∧
      KeepsFront file fixed edit.span.start.offset := by
  obtain ⟨front, rest, changed, isFile, isText, rfl⟩ := keeps
  obtain ⟨upTo, kept, rfl, stops⟩ := isIn.stop.divides isFile inFront
  rw [List.append_assoc] at isFile isText
  have inside : edit.span.start.offset ≤ Text.byteLength upTo := stops ▸ isIn.covers.le
  obtain ⟨before, covered, rfl, starts⟩ := isIn.start.divides isFile inside
  rw [List.append_assoc] at isFile isText
  rw [Text.byteLength_append] at stops
  refine ⟨String.ofList (before ++ edit.replacement.toList ++ (kept ++ changed)),
    applyTo?_stretch isText starts stops, ?_⟩
  refine ⟨before, _, edit.replacement.toList ++ (kept ++ changed), isFile, ?_, starts⟩
  rw [String.toList_ofList, List.append_assoc]

/-- Edits one in front of the other can be applied one after the other. -/
theorem foldlM_applyTo?_of_keepsFront {edits : List Edit}
    (ordered : edits.Pairwise fun edit later => later.span.Precedes edit.span)
    (areIn : ∀ edit ∈ edits, edit.IsIn file) {text : String} {offset : Nat}
    (keeps : KeepsFront file text offset)
    (inFront : ∀ edit ∈ edits, edit.span.stop.offset ≤ offset) :
    ∃ fixed, edits.foldlM applyTo? text = some fixed := by
  induction edits generalizing text offset with
  | nil => exact ⟨text, rfl⟩
  | cons edit rest ih =>
      obtain ⟨precede, restOrdered⟩ := List.pairwise_cons.mp ordered
      obtain ⟨here, there⟩ := List.forall_mem_cons.mp areIn
      obtain ⟨applied, applies, keepsOn⟩ :=
        applyTo?_of_keepsFront keeps here (inFront edit List.mem_cons_self)
      obtain ⟨fixed, rest⟩ := ih restOrdered there keepsOn precede
      exact ⟨fixed, by rw [List.foldlM_cons, applies]; exact rest⟩

/-- Edits of a file that do not meet can be applied to its text. -/
theorem applyAll?_of_apart {edits : List Edit} (areIn : ∀ edit ∈ edits, edit.IsIn file)
    (apart : edits.Pairwise Apart) : ∃ fixed, applyAll? file.text edits = some fixed := by
  have among : (dropRepeated (fromBack edits)).Sublist (fromBack edits) := dropRepeated_sublist _
  have orderedIn : ∀ edit ∈ fromBack edits, edit.IsIn file := fun edit member =>
    areIn edit ((fromBack_perm edits).mem_iff.mp member)
  have orderedApart : (fromBack edits).Pairwise Apart :=
    (fromBack_perm edits).symm.pairwise apart Apart.symm
  have ordered : (fromBack edits).Pairwise fun edit later => later.span.Precedes edit.span := by
    apply ((fromBack_fromBack edits).and orderedApart).imp_of_mem
    intro edit later member _ ⟨startsLater, apart⟩
    obtain precedes | follows := apart
    · -- an edit that starts no earlier cannot stand in front, because it covers something
      exact absurd (startsLater.trans_lt (orderedIn edit member).covers) (not_lt.mpr precedes)
    · exact follows
  have keeps : KeepsFront file file.text file.size :=
    ⟨file.text.toList, [], [], (List.append_nil _).symm, (List.append_nil _).symm,
      (Text.utf8ByteSize_eq _).symm⟩
  apply foldlM_applyTo?_of_keepsFront (ordered.sublist among)
    (fun edit member => orderedIn edit (among.subset member)) keeps
  · intro edit member
    exact (orderedIn edit (among.subset member)).stop.le_size

end Application

end Edit

end ErrorAccessors
