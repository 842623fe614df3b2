/-
# Which edits count

Of the edits of a source those are meant to count that fit the source, each range once and
with the first edit that is given for it.  What is applied is decided along the way instead:
an edit counts if it fits the text that the edits before it have left, and it counts as a
repetition only right behind an edit of the same range.

Both come to the same, whatever the replacements are, if no edit that reaches beyond the end of
the source is applied behind one that fits, and if edits of one range stand together in the
order of application.  For a source of ASCII characters that is also necessary: some
replacements of the same spans make the text long enough for an edit that does not fit the
source, or let a repetition show.
-/

import ErrorAccessors.Proofs.AppliedEdits
import Mathlib.Algebra.GroupWithZero.Nat
import Mathlib.Data.List.Chain
import Mathlib.Data.List.Induction

namespace ErrorAccessors

/-- A text of ASCII characters. -/
def Text.IsAscii (text : String) : Prop :=
  ∀ c ∈ text.toList, c.toNat < 128

instance (text : String) : Decidable (Text.IsAscii text) :=
  List.decidableBAll (fun c : Char => c.toNat < 128) text.toList

/-- A text of ASCII characters can be cut anywhere. -/
theorem Text.exists_cut {text : List Char} (ascii : ∀ c ∈ text, c.toNat < 128) {offset : Nat}
    (within : offset ≤ byteLength text) :
    ∃ before after, text = before ++ after ∧ byteLength before = offset := by
  induction text generalizing offset with
  | nil => exact ⟨[], [], rfl, (Nat.le_zero.mp within).symm⟩
  | cons c rest ih =>
      obtain ⟨here, there⟩ := List.forall_mem_cons.mp ascii
      have size : c.utf8Size = 1 := Char.utf8Size_eq_one_iff.mpr (Nat.le_of_lt_succ here)
      cases offset with
      | zero => exact ⟨[], c :: rest, rfl, rfl⟩
      | succ offset =>
          rw [byteLength_cons, size] at within
          have inRest : offset ≤ byteLength rest := by omega
          obtain ⟨before, after, rfl, cuts⟩ := ih there inRest
          exact ⟨c :: before, after, rfl, by rw [byteLength_cons, size, cuts, Nat.add_comm]⟩

namespace Span

/-- Whether a span lies in a text. -/
def fits (span : Span) (source : String) : Bool :=
  span.start.offset ≤ span.stop.offset && span.stop.offset ≤ source.utf8ByteSize

/-- Whether a span that is not reversed ends behind the end of a text. -/
def reachesBeyond (span : Span) (source : String) : Bool :=
  span.start.offset ≤ span.stop.offset && source.utf8ByteSize < span.stop.offset

/-- Whether two spans are the same range of bytes. -/
def sameRange (first second : Span) : Bool :=
  first.start.offset == second.start.offset && first.stop.offset == second.stop.offset

theorem sameRange_iff {first second : Span} :
    first.sameRange second = true ↔
      first.start.offset = second.start.offset ∧ first.stop.offset = second.stop.offset := by
  simp [sameRange]

/-- Spans, in the order in which they are replaced, of which just those count that fit a
source, each range once. -/
structure AreHonoured (source : String) (ordered : List Span) : Prop where
  noneGrowsInto : ordered.Pairwise fun first later =>
    first.fits source = true → later.reachesBeyond source = false
  repeatedTogether : ∀ first middle last, [first, middle, last].Sublist ordered →
    first.fits source = true → first.sameRange last = true → first.sameRange middle = true

end Span

namespace Edit

/-- The edits of each range without those behind the first one. -/
def firstOfRange : List Edit → List Edit
  | [] => []
  | edit :: rest => edit :: (firstOfRange rest).filter fun later => !edit.sameRange later

/-- The edits that are meant to count: those that fit the source, and of each range the first
one given. -/
def honoured (source : String) (edits : List Edit) : List Edit :=
  firstOfRange (edits.filter (·.fits source))

section Ranges

theorem sameRange_refl (edit : Edit) : edit.sameRange edit = true := by simp [sameRange]

theorem sameRange_symm {first second : Edit} (same : first.sameRange second = true) :
    second.sameRange first = true :=
  sameRange_iff.mpr ⟨(sameRange_iff.mp same).1.symm, (sameRange_iff.mp same).2.symm⟩

/-- An edit is in the same range as one of two edits of one range just if it is in that of the
other. -/
theorem sameRange_congr {first second : Edit} (same : first.sameRange second = true)
    (edit : Edit) : first.sameRange edit = second.sameRange edit := by
  rw [sameRange, sameRange, (sameRange_iff.mp same).1, (sameRange_iff.mp same).2]

theorem fits_congr {first second : Edit} (same : first.sameRange second = true)
    (source : String) : first.fits source = second.fits source := by
  rw [fits, fits, (sameRange_iff.mp same).1, (sameRange_iff.mp same).2]

theorem firstOfRange_sublist (edits : List Edit) : (firstOfRange edits).Sublist edits := by
  induction edits with
  | nil => exact .slnil
  | cons edit rest ih => exact (List.filter_sublist.trans ih).cons_cons edit

theorem pairwise_firstOfRange (edits : List Edit) :
    (firstOfRange edits).Pairwise fun first later => first.sameRange later = false := by
  induction edits with
  | nil => exact .nil
  | cons edit rest ih =>
      refine List.pairwise_cons.mpr ⟨fun later member => ?_, ih.filter _⟩
      simpa using List.of_mem_filter member

/-- Where no edit repeats the range of one before, none is dropped. -/
theorem dropRepeated_of_pairwise {edits : List Edit}
    (differ : edits.Pairwise fun first later => first.sameRange later = false) :
    dropRepeated edits = edits := by
  cases edits with
  | nil => rfl
  | cons edit rest =>
      rw [dropRepeated]
      congr 1
      induction rest generalizing edit with
      | nil => rfl
      | cons next rest ih =>
          obtain ⟨behind, tail⟩ := List.pairwise_cons.mp differ
          rw [dropRepeated.dropAfter, behind next List.mem_cons_self, if_neg Bool.false_ne_true,
            ih next tail]

/-- An edit that is added at the end is left out if its range is taken. -/
theorem firstOfRange_concat (edits : List Edit) (edit : Edit) :
    firstOfRange (edits ++ [edit]) =
      if edits.any (·.sameRange edit) then firstOfRange edits
      else firstOfRange edits ++ [edit] := by
  induction edits with
  | nil => rfl
  | cons first rest ih =>
      rw [List.cons_append, firstOfRange, ih, firstOfRange, List.any_cons]
      cases taken : rest.any (·.sameRange edit) with
      | true => rw [if_pos rfl, Bool.or_true, if_pos rfl]
      | false =>
          rw [if_neg Bool.false_ne_true, Bool.or_false, List.filter_append]
          cases same : first.sameRange edit <;> simp [same]

/-- An edit that is put among edits in order is left out if its range is taken. -/
theorem firstOfRange_insertFromBack (edit : Edit) {edits : List Edit} (ordered : FromBack edits) :
    firstOfRange (insertFromBack edit edits) =
      if edits.any (·.sameRange edit) then firstOfRange edits
      else insertFromBack edit (firstOfRange edits) := by
  induction edits with
  | nil => rfl
  | cons first rest ih =>
      obtain ⟨behindFirst, restOrdered⟩ := List.pairwise_cons.mp ordered
      by_cases startsEarlier : first.span.start.offset < edit.span.start.offset
      · -- the edit comes to stand in front of edits that start elsewhere
        have differs : ∀ other ∈ first :: rest, edit.sameRange other = false := by
          intro other member
          have : other.span.start.offset ≤ first.span.start.offset := by
            obtain rfl | inRest := List.mem_cons.mp member
            · exact le_refl _
            · exact behindFirst other inRest
          rw [Bool.eq_false_iff]
          intro same
          have := (sameRange_iff.mp same).1
          omega
        have untaken : (first :: rest).any (·.sameRange edit) = false := by
          rw [List.any_eq_false]
          intro other member same
          exact Bool.false_ne_true ((differs other member).symm.trans (sameRange_symm same))
        have allKept : (firstOfRange (first :: rest)).filter (fun later => !edit.sameRange later) =
            firstOfRange (first :: rest) := by
          rw [List.filter_eq_self]
          intro other member
          rw [differs other ((firstOfRange_sublist _).subset member)]
          rfl
        rw [untaken, if_neg Bool.false_ne_true, insertFromBack, if_pos startsEarlier, firstOfRange,
          allKept, firstOfRange, insertFromBack, if_pos startsEarlier]
      · rw [insertFromBack, if_neg startsEarlier, firstOfRange, ih restOrdered, List.any_cons]
        cases taken : rest.any (·.sameRange edit) with
        | true => rw [if_pos rfl, Bool.or_true, if_pos rfl, firstOfRange]
        | false =>
            have restKept : FromBack (firstOfRange rest) :=
              restOrdered.sublist (firstOfRange_sublist rest)
            rw [if_neg Bool.false_ne_true, Bool.or_false, filter_insertFromBack _ _ restKept]
            cases same : first.sameRange edit with
            | true => rw [Bool.not_true, if_neg Bool.false_ne_true, if_pos rfl, firstOfRange]
            | false =>
                rw [Bool.not_false, if_pos rfl, if_neg Bool.false_ne_true, firstOfRange,
                  insertFromBack, if_neg startsEarlier]

/-- The first edits of the ranges are the same before and after ordering. -/
theorem firstOfRange_fromBack (edits : List Edit) :
    firstOfRange (fromBack edits) = fromBack (firstOfRange edits) := by
  induction edits using List.reverseRecOn with
  | nil => rfl
  | append_singleton edits edit ih =>
      have concat (edits : List Edit) (edit : Edit) :
          fromBack (edits ++ [edit]) = insertFromBack edit (fromBack edits) := by
        rw [fromBack, List.foldl_append]
        rfl
      rw [concat, firstOfRange_insertFromBack edit (fromBack_fromBack edits), firstOfRange_concat,
        (fromBack_perm edits).any_eq, ih]
      split
      · rfl
      · rw [concat]

/-- Where edits that fit stand together with those of the same range, dropping repetitions
leaves of those that fit the first of each range. -/
theorem filter_dropRepeated {source : String} {edits : List Edit}
    (together : ∀ first middle last, [first, middle, last].Sublist edits →
      first.fits source = true → first.sameRange last = true → first.sameRange middle = true) :
    (dropRepeated edits).filter (·.fits source) =
      firstOfRange (edits.filter (·.fits source)) := by
  cases edits with
  | nil => rfl
  | cons edit rest =>
      rw [dropRepeated]
      induction rest generalizing edit with
      | nil => cases isIn : edit.fits source <;> simp [dropRepeated.dropAfter, firstOfRange, isIn]
      | cons next rest ih =>
          rw [dropRepeated.dropAfter]
          cases same : edit.sameRange next with
          | true =>
              have shorter := (List.sublist_cons_self next rest).cons_cons edit
              have tail := ih edit fun first middle last isPart =>
                together first middle last (isPart.trans shorter)
              have alike : next.sameRange = edit.sameRange :=
                (funext (sameRange_congr same)).symm
              rw [if_pos rfl, tail]
              cases isIn : edit.fits source with
              | false => simp [isIn, fits_congr same source ▸ isIn]
              | true =>
                  simp [isIn, fits_congr same source ▸ isIn, firstOfRange, same, alike,
                    List.filter_filter]
          | false =>
              have tail := ih next fun first middle last isPart =>
                together first middle last (isPart.cons edit)
              rw [if_neg Bool.false_ne_true]
              cases isIn : edit.fits source with
              | false =>
                  rw [List.filter_cons_of_neg (by simp [isIn]), tail,
                    List.filter_cons_of_neg (a := edit) (by simp [isIn])]
              | true =>
                  -- an edit of the same range would have to stand right behind
                  have noneBehind : ∀ later ∈ firstOfRange ((next :: rest).filter (·.fits source)),
                      (!edit.sameRange later) = true := by
                    intro later member
                    have among : later ∈ next :: rest :=
                      List.mem_of_mem_filter ((firstOfRange_sublist _).subset member)
                    rw [Bool.not_eq_true', Bool.eq_false_iff]
                    intro repeats
                    refine Bool.false_ne_true (same.symm.trans ?_)
                    obtain rfl | inRest := List.mem_cons.mp among
                    · exact repeats
                    · exact together edit next later
                        (((List.singleton_sublist.mpr inRest).cons_cons next).cons_cons edit) isIn
                        repeats
                  rw [List.filter_cons_of_pos (a := edit) (by simp [isIn]), tail,
                    List.filter_cons_of_pos (a := edit) (by simp [isIn]), firstOfRange,
                    List.filter_eq_self.mpr noneBehind]

end Ranges

section Spans

/-- Where an edit is put depends on the spans only. -/
theorem map_span_insertFromBack {first second : Edit} (same : first.span = second.span)
    {edits others : List Edit} (spans : edits.map (·.span) = others.map (·.span)) :
    (insertFromBack first edits).map (·.span) = (insertFromBack second others).map (·.span) := by
  induction edits generalizing others with
  | nil =>
      cases others with
      | nil => simpa [insertFromBack] using same
      | cons other others => simp at spans
  | cons edit edits ih =>
      cases others with
      | nil => simp at spans
      | cons other others =>
          obtain ⟨head, tail⟩ := List.cons.inj spans
          have head : edit.span = other.span := head
          rw [insertFromBack, insertFromBack, head, same]
          split
          · simpa [head, same] using tail
          · simpa [head] using ih tail

/-- The order of edits depends on their spans only. -/
theorem map_span_fromBack {edits others : List Edit}
    (spans : edits.map (·.span) = others.map (·.span)) :
    (fromBack edits).map (·.span) = (fromBack others).map (·.span) := by
  suffices ∀ held heldOther : List Edit, held.map (·.span) = heldOther.map (·.span) →
      (edits.foldl (fun ordered edit => insertFromBack edit ordered) held).map (·.span) =
        (others.foldl (fun ordered edit => insertFromBack edit ordered) heldOther).map (·.span) from
    this [] [] rfl
  induction edits generalizing others with
  | nil =>
      cases others with
      | nil => exact fun _ _ held => held
      | cons other others => simp at spans
  | cons edit edits ih =>
      cases others with
      | nil => simp at spans
      | cons other others =>
          obtain ⟨head, tail⟩ := List.cons.inj spans
          exact fun held heldOther sameHeld => ih tail _ _ (map_span_insertFromBack head sameHeld)

end Spans

section Sufficient

variable {source : String} {edits : List Edit}

/-- An edit that neither fits a source nor reaches beyond its end is reversed and has no
effect on any text. -/
theorem applyTo?_of_reversed {edit : Edit} (unfit : edit.fits source = false)
    (inside : edit.span.reachesBeyond source = false) (text : String) :
    applyTo? text edit = some text := by
  have reversed : edit.span.stop.offset < edit.span.start.offset := by
    simp only [fits, Span.reachesBeyond, Bool.and_eq_false_iff, decide_eq_false_iff_not]
      at unfit inside
    omega
  rw [applyTo?, if_neg]
  simp only [fits, Bool.and_eq_true, decide_eq_true_iff]
  omega

/-- As long as no edit behind one that fits reaches beyond the end, the edits that do not fit
a source have no effect on it. -/
theorem foldlM_applyTo?_filter_fits
    (none : edits.Pairwise fun first later =>
      first.fits source = true → later.span.reachesBeyond source = false) :
    edits.foldlM applyTo? source = (edits.filter (·.fits source)).foldlM applyTo? source := by
  have behind {edits : List Edit}
      (inside : ∀ edit ∈ edits, edit.span.reachesBeyond source = false) (text : String) :
      edits.foldlM applyTo? text = (edits.filter (·.fits source)).foldlM applyTo? text := by
    induction edits generalizing text with
    | nil => rfl
    | cons edit rest ih =>
        obtain ⟨here, there⟩ := List.forall_mem_cons.mp inside
        cases isIn : edit.fits source with
        | true =>
            rw [List.filter_cons_of_pos (a := edit) (by simp [isIn]), List.foldlM_cons,
              List.foldlM_cons]
            exact bind_congr fun fixed => ih there fixed
        | false =>
            rw [List.filter_cons_of_neg (a := edit) (by simp [isIn]), List.foldlM_cons,
              applyTo?_of_reversed isIn here, ← ih there text]
            rfl
  induction edits with
  | nil => rfl
  | cons edit rest ih =>
      obtain ⟨here, there⟩ := List.pairwise_cons.mp none
      cases isIn : edit.fits source with
      | true =>
          rw [List.filter_cons_of_pos (a := edit) (by simp [isIn]), List.foldlM_cons,
            List.foldlM_cons]
          exact bind_congr fun fixed => behind (fun later member => here later member isIn) fixed
      | false =>
          -- nothing has been applied yet, so the edit is judged by the source
          rw [List.filter_cons_of_neg (a := edit) (by simp [isIn]), List.foldlM_cons, ← ih there,
            applyTo?, if_neg (by simp [isIn])]
          rfl

/-- The edits that count are applied each for itself. -/
theorem applyAll?_honoured (source : String) (edits : List Edit) :
    applyAll? source (honoured source edits) =
      (firstOfRange ((fromBack edits).filter (·.fits source))).foldlM applyTo? source := by
  have ordered : fromBack (honoured source edits) =
      firstOfRange ((fromBack edits).filter (·.fits source)) := by
    rw [honoured, ← firstOfRange_fromBack, filter_fromBack]
  rw [applyAll?, ordered, dropRepeated_of_pairwise (pairwise_firstOfRange _)]

/-- Edits whose spans are honoured leave what those of them leave that count. -/
theorem applyAll?_of_areHonoured
    (honours : Span.AreHonoured source ((fromBack edits).map (·.span))) :
    applyAll? source edits = applyAll? source (honoured source edits) := by
  have grows := List.pairwise_map.mp honours.noneGrowsInto
  have together : ∀ first middle last, [first, middle, last].Sublist (fromBack edits) →
      first.fits source = true → first.sameRange last = true → first.sameRange middle = true :=
    fun first middle last isPart =>
      honours.repeatedTogether first.span middle.span last.span (isPart.map Edit.span)
  rw [applyAll?, foldlM_applyTo?_filter_fits (grows.sublist (dropRepeated_sublist _)),
    filter_dropRepeated together, applyAll?_honoured]

end Sufficient

section Necessary

variable {source : String} {edits : List Edit} {growth : Nat → Nat → Nat}

/-- How far an edit makes a text grow, if that depends on the range. -/
def gain (growth : Nat → Nat → Nat) (edit : Edit) : Nat :=
  growth edit.span.start.offset edit.span.stop.offset

/-- An edit writes ASCII characters, as many as it replaces and those that it gains. -/
structure Grows (growth : Nat → Nat → Nat) (edit : Edit) : Prop where
  ascii : Text.IsAscii edit.replacement
  size : edit.replacement.utf8ByteSize = edit.span.length + edit.gain growth

/-- Edits fit a text of some size one after the other, each with what the ones before gain. -/
def FitInTurn (growth : Nat → Nat → Nat) : List Edit → Nat → Prop
  | [], _ => True
  | edit :: rest, size =>
    edit.span.start.offset ≤ edit.span.stop.offset ∧ edit.span.stop.offset ≤ size ∧
      FitInTurn growth rest (size + edit.gain growth)

theorem FitInTurn.mono {size larger : Nat} (fit : FitInTurn growth edits size)
    (le : size ≤ larger) : FitInTurn growth edits larger := by
  induction edits generalizing size larger with
  | nil => trivial
  | cons edit rest ih =>
      obtain ⟨ordered, within, restFit⟩ := fit
      exact ⟨ordered, within.trans le, ih restFit (Nat.add_le_add_right le _)⟩

/-- A growing edit can be applied to a text of ASCII characters, and if it fits, the text
grows by what it gains. -/
theorem Grows.applyTo? {edit : Edit} (grows : edit.Grows growth) {text : String}
    (ascii : Text.IsAscii text) :
    ∃ fixed, Edit.applyTo? text edit = some fixed ∧ Text.IsAscii fixed ∧
      fixed.utf8ByteSize =
        text.utf8ByteSize + if edit.fits text then edit.gain growth else 0 := by
  cases isIn : edit.fits text with
  | false => exact ⟨text, by rw [Edit.applyTo?, if_neg (by simp [isIn])], ascii, rfl⟩
  | true =>
      have bounds := isIn
      rw [fits, Bool.and_eq_true, decide_eq_true_iff, decide_eq_true_iff,
        Text.utf8ByteSize_eq] at bounds
      obtain ⟨before, rest, isText, starts⟩ := Text.exists_cut ascii (bounds.1.trans bounds.2)
      have restAscii : ∀ c ∈ rest, c.toNat < 128 := fun c member =>
        ascii c (isText ▸ List.mem_append_right before member)
      have restSize : edit.span.stop.offset - edit.span.start.offset ≤ Text.byteLength rest := by
        rw [isText, Text.byteLength_append] at bounds
        omega
      obtain ⟨covered, after, rfl, covers⟩ := Text.exists_cut restAscii restSize
      refine ⟨_, applyTo?_stretch isText starts (by omega), ?_, ?_⟩
      · rw [Text.IsAscii, String.toList_ofList]
        intro c member
        obtain (inFront | written) | behind :=
          (List.mem_append.trans (or_congr_left List.mem_append)).mp member
        · exact ascii c (isText ▸ List.mem_append_left _ inFront)
        · exact grows.ascii c written
        · exact restAscii c (List.mem_append_right _ behind)
      · have written := grows.size
        rw [Text.utf8ByteSize_eq, Span.length] at written
        rw [if_pos rfl, Text.utf8ByteSize_eq, Text.utf8ByteSize_eq, isText, String.toList_ofList]
        simp only [Text.byteLength_append]
        omega

/-- Growing edits make a text grow at least by what those of them gain that fit in turn. -/
theorem foldlM_applyTo?_grows (grow : ∀ edit ∈ edits, edit.Grows growth) {text : String}
    (ascii : Text.IsAscii text) {chosen : List Edit} (part : chosen.Sublist edits)
    (fit : FitInTurn growth chosen text.utf8ByteSize) :
    ∃ fixed, edits.foldlM Edit.applyTo? text = some fixed ∧
      text.utf8ByteSize + (chosen.map (gain growth)).sum ≤ fixed.utf8ByteSize := by
  induction part generalizing text with
  | slnil => exact ⟨text, rfl, le_refl _⟩
  | cons edit part ih =>
      obtain ⟨here, there⟩ := List.forall_mem_cons.mp grow
      obtain ⟨next, applied, nextAscii, size⟩ := here.applyTo? ascii
      obtain ⟨fixed, rest, larger⟩ := ih there nextAscii (fit.mono (by omega))
      exact ⟨fixed, by rw [List.foldlM_cons, applied]; exact rest, by omega⟩
  | cons_cons edit part ih =>
      obtain ⟨here, there⟩ := List.forall_mem_cons.mp grow
      obtain ⟨ordered, within, restFit⟩ := fit
      obtain ⟨next, applied, nextAscii, size⟩ := here.applyTo? ascii
      have isIn : edit.fits text = true := by
        rw [fits, Bool.and_eq_true, decide_eq_true_iff, decide_eq_true_iff]
        exact ⟨ordered, within⟩
      rw [isIn, if_pos rfl] at size
      obtain ⟨fixed, rest, larger⟩ := ih there nextAscii (size ▸ restFit)
      refine ⟨fixed, by rw [List.foldlM_cons, applied]; exact rest, ?_⟩
      rw [List.map_cons, List.sum_cons]
      omega

/-- Growing edits that fit a text make it grow by what all of them gain. -/
theorem foldlM_applyTo?_of_fits (grow : ∀ edit ∈ edits, edit.Grows growth) {text : String}
    (ascii : Text.IsAscii text)
    (fit : ∀ edit ∈ edits, edit.span.start.offset ≤ edit.span.stop.offset ∧
      edit.span.stop.offset ≤ text.utf8ByteSize) :
    ∃ fixed, edits.foldlM Edit.applyTo? text = some fixed ∧
      fixed.utf8ByteSize = text.utf8ByteSize + (edits.map (gain growth)).sum := by
  induction edits generalizing text with
  | nil => exact ⟨text, rfl, rfl⟩
  | cons edit rest ih =>
      obtain ⟨here, there⟩ := List.forall_mem_cons.mp grow
      obtain ⟨ordered, within⟩ := fit edit List.mem_cons_self
      obtain ⟨next, applied, nextAscii, size⟩ := here.applyTo? ascii
      have isIn : edit.fits text = true := by
        rw [fits, Bool.and_eq_true, decide_eq_true_iff, decide_eq_true_iff]
        exact ⟨ordered, within⟩
      rw [isIn, if_pos rfl] at size
      obtain ⟨fixed, applies, larger⟩ := ih there nextAscii fun later member => by
        obtain ⟨ordered, within⟩ := fit later (List.mem_cons_of_mem _ member)
        exact ⟨ordered, by omega⟩
      refine ⟨fixed, by rw [List.foldlM_cons, applied]; exact applies, ?_⟩
      rw [larger, size, List.map_cons, List.sum_cons, Nat.add_assoc]

/-- If only one range gains something, edits of different ranges gain no more than it. -/
theorem sum_gain_le {range : Span}
    (differ : edits.Pairwise fun first later => first.sameRange later = false)
    (only : ∀ edit ∈ edits, range.sameRange edit.span = false → edit.gain growth = 0) :
    (edits.map (gain growth)).sum ≤ growth range.start.offset range.stop.offset := by
  induction edits with
  | nil => exact Nat.zero_le _
  | cons edit rest ih =>
      obtain ⟨behind, restDiffer⟩ := List.pairwise_cons.mp differ
      obtain ⟨here, there⟩ := List.forall_mem_cons.mp only
      rw [List.map_cons, List.sum_cons]
      cases same : range.sameRange edit.span with
      | false =>
          rw [here same, Nat.zero_add]
          exact ih restDiffer there
      | true =>
          obtain ⟨sameStart, sameStop⟩ := Span.sameRange_iff.mp same
          have noMore : (rest.map (gain growth)).sum = 0 := by
            rw [List.sum_eq_zero_iff_forall_eq_nat]
            intro gains member
            obtain ⟨later, inRest, rfl⟩ := List.mem_map.mp member
            apply there later inRest
            rw [Span.sameRange, sameStart, sameStop]
            exact behind later inRest
          rw [noMore, Nat.add_zero, gain, sameStart, sameStop]

/-- Of edits none of which repeats the one before, dropping repetitions leaves edits of the
same ranges in the same order. -/
theorem exists_sublist_dropRepeated {chosen : List Edit}
    (part : chosen.Sublist edits)
    (differ : chosen.IsChain fun first next => first.sameRange next = false) :
    ∃ kept, kept.Sublist (dropRepeated edits) ∧
      List.Forall₂ (fun first second : Edit => first.sameRange second = true) chosen kept := by
  cases edits with
  | nil => exact ⟨[], .slnil, by rw [List.sublist_nil.mp part]; exact .nil⟩
  | cons edit rest =>
      rw [dropRepeated]
      induction rest generalizing edit chosen with
      | nil =>
          refine ⟨chosen, part, ?_⟩
          exact List.forall₂_same.mpr fun edit _ => sameRange_refl edit
      | cons next rest ih =>
          rw [dropRepeated.dropAfter]
          cases same : edit.sameRange next with
          | false =>
              rw [if_neg Bool.false_ne_true]
              obtain inRest | ⟨others, rfl, othersIn⟩ := List.sublist_cons_iff.mp part
              · obtain ⟨kept, isKept, alike⟩ := ih differ next inRest
                exact ⟨kept, isKept.cons edit, alike⟩
              · obtain ⟨kept, isKept, alike⟩ := ih differ.of_cons next othersIn
                exact ⟨edit :: kept, isKept.cons_cons edit, .cons (sameRange_refl edit) alike⟩
          | true =>
              rw [if_pos rfl]
              obtain inRest | ⟨others, rfl, othersIn⟩ := List.sublist_cons_iff.mp part
              · obtain inTail | ⟨others, rfl, othersIn⟩ := List.sublist_cons_iff.mp inRest
                · exact ih differ edit (inTail.cons edit)
                · -- the edit in front takes the place of the one that is dropped
                  have chain : (edit :: others).IsChain fun first next =>
                      first.sameRange next = false := by
                    cases others with
                    | nil => exact .singleton edit
                    | cons other others =>
                        rw [List.isChain_cons_cons] at differ ⊢
                        exact ⟨sameRange_congr same other ▸ differ.1, differ.2⟩
                  obtain ⟨kept, isKept, alike⟩ := ih chain edit (othersIn.cons_cons edit)
                  cases alike with
                  | cons head tail =>
                      exact ⟨_, isKept, .cons (sameRange_congr same _ ▸ head) tail⟩
              · obtain inTail | ⟨more, rfl, -⟩ := List.sublist_cons_iff.mp othersIn
                · exact ih differ edit (inTail.cons_cons edit)
                · rw [List.isChain_cons_cons, same] at differ
                  exact absurd differ.1.symm Bool.false_ne_true

/-- If growing edits leave just what those leave that count, no edits that are kept and fit in
turn gain more. -/
theorem sum_gain_le_honoured (ascii : Text.IsAscii source)
    (grow : ∀ edit ∈ edits, edit.Grows growth)
    (same : applyAll? source edits = applyAll? source (honoured source edits))
    {chosen : List Edit} (part : chosen.Sublist (dropRepeated (fromBack edits)))
    (fit : FitInTurn growth chosen source.utf8ByteSize) :
    (chosen.map (gain growth)).sum ≤
      ((firstOfRange ((fromBack edits).filter (·.fits source))).map (gain growth)).sum := by
  have given {edit : Edit} (member : edit ∈ fromBack edits) : edit.Grows growth :=
    grow edit ((fromBack_perm edits).mem_iff.mp member)
  obtain ⟨fixed, applied, larger⟩ := foldlM_applyTo?_grows
    (fun edit member => given ((dropRepeated_sublist _).subset member)) ascii part fit
  have counted : ∀ edit ∈ firstOfRange ((fromBack edits).filter (·.fits source)),
      edit.Grows growth ∧ edit.span.start.offset ≤ edit.span.stop.offset ∧
        edit.span.stop.offset ≤ source.utf8ByteSize := by
    intro edit member
    obtain ⟨isGiven, isIn⟩ := List.mem_filter.mp ((firstOfRange_sublist _).subset member)
    rw [fits, Bool.and_eq_true, decide_eq_true_iff, decide_eq_true_iff] at isIn
    exact ⟨given isGiven, isIn⟩
  obtain ⟨other, otherApplied, size⟩ := foldlM_applyTo?_of_fits
    (fun edit member => (counted edit member).1) ascii fun edit member => (counted edit member).2
  rw [applyAll?_honoured, applyAll?, applied, otherApplied, Option.some.injEq] at same
  rw [same, size] at larger
  exact Nat.le_of_add_le_add_left larger

/-- An edit of the same span that writes as many characters as it replaces and some more. -/
def widened (growth : Nat → Nat → Nat) (edit : Edit) : Edit :=
  ⟨edit.span, String.ofList (List.replicate (edit.span.length + edit.gain growth) 'x')⟩

theorem grows_widened (growth : Nat → Nat → Nat) (edit : Edit) :
    (edit.widened growth).Grows growth where
  ascii := by
    intro c member
    rw [widened, String.toList_ofList] at member
    rw [List.eq_of_mem_replicate member]
    decide
  size := by
    have count (n : Nat) : Text.byteLength (List.replicate n 'x') = n := by
      induction n with
      | zero => rfl
      | succ n ih => rw [List.replicate_succ, Text.byteLength_cons, ih, Nat.add_comm]; rfl
    rw [Text.utf8ByteSize_eq, widened, String.toList_ofList, count]
    rfl

/-- If edits leave what those leave that count, whatever they write, and only one range that
fits gains something, no edits that are kept gain more than that range if they fit in turn. -/
theorem exists_kept_of_same (ascii : Text.IsAscii source)
    (same : ∀ others : List Edit, others.map (·.span) = edits.map (·.span) →
      applyAll? source others = applyAll? source (honoured source others))
    {spans : List Span} (part : spans.Sublist ((fromBack edits).map (·.span)))
    (differ : spans.IsChain fun first next => first.sameRange next = false)
    (growth : Nat → Nat → Nat) {range : Span}
    (only : ∀ span : Span, span.fits source = true → range.sameRange span = false →
      growth span.start.offset span.stop.offset = 0) :
    ∃ kept : List Edit,
      List.Forall₂ (fun (span : Span) (edit : Edit) => span.sameRange edit.span = true) spans kept ∧
      ∀ chosen : List Edit, chosen.Sublist kept → FitInTurn growth chosen source.utf8ByteSize →
        (chosen.map (gain growth)).sum ≤ growth range.start.offset range.stop.offset := by
  have sameSpans : (edits.map (widened growth)).map (·.span) = edits.map (·.span) := by
    rw [List.map_map]
    rfl
  have grow : ∀ edit ∈ edits.map (widened growth), edit.Grows growth := by
    intro edit member
    obtain ⟨original, -, rfl⟩ := List.mem_map.mp member
    exact grows_widened growth original
  rw [← map_span_fromBack sameSpans] at part
  obtain ⟨placed, isPart, rfl⟩ := List.sublist_map_iff.mp part
  obtain ⟨kept, isKept, alike⟩ := exists_sublist_dropRepeated isPart
    ((List.isChain_map _).mp differ)
  refine ⟨kept, List.forall₂_map_left_iff.mpr alike, fun chosen isChosen fit => ?_⟩
  refine (sum_gain_le_honoured ascii grow (same _ sameSpans) (isChosen.trans isKept) fit).trans ?_
  refine sum_gain_le (pairwise_firstOfRange _) fun edit member => only edit.span ?_
  exact List.of_mem_filter (p := fun edit => edit.fits source)
    ((firstOfRange_sublist _).subset member)

/-- Where an edit that fits is applied in front of one that reaches beyond the end, it can make
room for it. -/
theorem reachesBeyond_of_same (ascii : Text.IsAscii source)
    (same : ∀ others : List Edit, others.map (·.span) = edits.map (·.span) →
      applyAll? source others = applyAll? source (honoured source others)) {first later : Span}
    (part : [first, later].Sublist ((fromBack edits).map (·.span)))
    (firstFits : first.fits source = true) : later.reachesBeyond source = false := by
  rw [Bool.eq_false_iff]
  intro reaches
  simp only [Span.fits, Span.reachesBeyond, Bool.and_eq_true, decide_eq_true_iff]
    at firstFits reaches
  have differ : first.sameRange later = false := by
    rw [Bool.eq_false_iff]
    intro sameRange
    have := (Span.sameRange_iff.mp sameRange).2
    omega
  -- the later range gains more than the first one, and only that one counts
  let growth (start stop : Nat) : Nat :=
    if start = first.start.offset ∧ stop = first.stop.offset then later.stop.offset
    else if stop = later.stop.offset then later.stop.offset + 1 else 0
  have only (span : Span) (spanFits : span.fits source = true)
      (other : first.sameRange span = false) : growth span.start.offset span.stop.offset = 0 := by
    simp only [Span.fits, Bool.and_eq_true, decide_eq_true_iff] at spanFits
    have notFirst : ¬ (span.start.offset = first.start.offset ∧
        span.stop.offset = first.stop.offset) := fun isFirst =>
      Bool.false_ne_true (other.symm.trans
        (Span.sameRange_iff.mpr ⟨isFirst.1.symm, isFirst.2.symm⟩))
    simp only [growth]
    rw [if_neg notFirst, if_neg (by omega)]
  obtain ⟨kept, alike, bound⟩ :=
    exists_kept_of_same ascii same part (by simpa using differ) growth only
  obtain _ | @⟨_, one, _, _, isFirst, _ | @⟨_, two, _, _, isLater, ⟨⟩⟩⟩ := alike
  obtain ⟨firstStart, firstStop⟩ := Span.sameRange_iff.mp isFirst
  obtain ⟨laterStart, laterStop⟩ := Span.sameRange_iff.mp isLater
  have firstGain : one.gain growth = later.stop.offset := by
    simp [gain, growth, ← firstStart, ← firstStop]
  have laterGain : two.gain growth = later.stop.offset + 1 := by
    simp only [gain, growth, ← laterStart, ← laterStop]
    rw [if_neg (by omega), if_pos trivial]
  have fit : FitInTurn growth [one, two] source.utf8ByteSize := by
    refine ⟨by omega, by omega, by omega, ?_, trivial⟩
    rw [firstGain, ← laterStop]
    exact Nat.le_add_left _ _
  have atMost := bound _ (List.Sublist.refl _) fit
  simp only [List.map_cons, List.map_nil, List.sum_cons, List.sum_nil, firstGain, laterGain, growth,
    and_self, if_true] at atMost
  omega

/-- Where an edit of another range is applied between two of a range that fits, the second one
of them is applied, too. -/
theorem sameRange_of_same (ascii : Text.IsAscii source)
    (same : ∀ others : List Edit, others.map (·.span) = edits.map (·.span) →
      applyAll? source others = applyAll? source (honoured source others))
    {first middle last : Span}
    (part : [first, middle, last].Sublist ((fromBack edits).map (·.span)))
    (firstFits : first.fits source = true) (repeats : first.sameRange last = true) :
    first.sameRange middle = true := by
  by_contra differ
  rw [Bool.not_eq_true] at differ
  simp only [Span.fits, Bool.and_eq_true, decide_eq_true_iff] at firstFits
  obtain ⟨lastStart, lastStop⟩ := Span.sameRange_iff.mp repeats
  have differLast : middle.sameRange last = false := by
    rw [Bool.eq_false_iff] at differ ⊢
    intro sameRange
    obtain ⟨sameStart, sameStop⟩ := Span.sameRange_iff.mp sameRange
    exact differ (Span.sameRange_iff.mpr ⟨by omega, by omega⟩)
  -- the repeated range gains something both times, but counts once
  let growth (start stop : Nat) : Nat :=
    if start = first.start.offset ∧ stop = first.stop.offset then 1 else 0
  have only (span : Span) (_ : span.fits source = true)
      (other : first.sameRange span = false) : growth span.start.offset span.stop.offset = 0 :=
    if_neg fun isFirst => Bool.false_ne_true (other.symm.trans
      (Span.sameRange_iff.mpr ⟨isFirst.1.symm, isFirst.2.symm⟩))
  obtain ⟨kept, alike, bound⟩ := exists_kept_of_same ascii same part
    (by simp [differ, differLast]) growth only
  obtain _ | @⟨_, one, _, _, isFirst,
    _ | @⟨_, two, _, _, -, _ | @⟨_, three, _, _, isLast, ⟨⟩⟩⟩⟩ := alike
  obtain ⟨oneStart, oneStop⟩ := Span.sameRange_iff.mp isFirst
  obtain ⟨threeStart, threeStop⟩ := Span.sameRange_iff.mp isLast
  have oneGain : one.gain growth = 1 := if_pos ⟨oneStart.symm, oneStop.symm⟩
  have threeGain : three.gain growth = 1 := if_pos ⟨by omega, by omega⟩
  have fit : FitInTurn growth [one, three] source.utf8ByteSize :=
    ⟨by omega, by omega, by omega, by omega, trivial⟩
  have both : [one, three].Sublist [one, two, three] :=
    ((List.Sublist.refl [three]).cons two).cons_cons one
  have atMost := bound _ both fit
  simp only [List.map_cons, List.map_nil, List.sum_cons, List.sum_nil, oneGain, threeGain, growth,
    and_self, if_true] at atMost
  omega

end Necessary

/-- For a source of ASCII characters, edits leave what those of them leave that count, whatever
they write, just if no edit that reaches beyond the end of the source is applied behind one
that fits and edits of one range that fits stand together in the order of application. -/
theorem applyAll?_eq_honoured_iff {source : String} (ascii : Text.IsAscii source)
    (edits : List Edit) :
    (∀ others : List Edit, others.map (·.span) = edits.map (·.span) →
      applyAll? source others = applyAll? source (honoured source others)) ↔
    Span.AreHonoured source ((fromBack edits).map (·.span)) := by
  constructor
  · intro same
    constructor
    · rw [List.pairwise_iff_forall_sublist]
      exact fun part => reachesBeyond_of_same ascii same part
    · exact fun first middle last part => sameRange_of_same ascii same part
  · intro honours others spans
    exact applyAll?_of_areHonoured (map_span_fromBack spans ▸ honours)

/-- An insertion at the end of a text and a range that ends behind it. -/
private def growingEdits : List Edit :=
  [⟨⟨"T.cs", ⟨2, 1, 3⟩, ⟨2, 1, 3⟩⟩, "xx"⟩, ⟨⟨"T.cs", ⟨1, 1, 2⟩, ⟨3, 1, 4⟩⟩, "Y"⟩]

/-- The insertion makes room for the edit that reaches beyond the end. -/
theorem applyAll?_eq_honoured_iff_of_growing :
    Text.IsAscii "ab" ∧ applyAll? "ab" growingEdits = some "aYx" ∧
      applyAll? "ab" (honoured "ab" growingEdits) = some "abxx" ∧
      ¬ Span.AreHonoured "ab" ((fromBack growingEdits).map (·.span)) := by
  have ascii : Text.IsAscii "ab" := by decide
  have given : applyAll? "ab" growingEdits = some "aYx" := by decide
  have counted : applyAll? "ab" (honoured "ab" growingEdits) = some "abxx" := by decide
  refine ⟨ascii, given, counted, fun honours => ?_⟩
  have same := (applyAll?_eq_honoured_iff ascii growingEdits).mpr honours growingEdits rfl
  rw [given, counted] at same
  exact absurd same (by decide)

end Edit

end ErrorAccessors
