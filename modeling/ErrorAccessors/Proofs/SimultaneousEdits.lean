/-
# Edits made at once

Edits are applied one after the other, each to the text that the edits behind it have left.
As long as the ranges do not overlap and start at different places, nothing of that can be
seen in the outcome: it is the text that comes out when every range of the source is replaced
at once, with the first replacement that was given for the range.  Replacements may be longer
or shorter than what they replace, and empty ranges insert something.

The outcome at once is a function of the source and of what is found of the edits at each
place, so the order in which edits of different ranges are given does not matter.
-/

import ErrorAccessors.Proofs.AppliedEdits

namespace ErrorAccessors

/-- Where a text can be cut there is a place of it. -/
theorem SourceFile.IsPlace.of_cut {file : SourceFile} {offset : Nat}
    (cuts : (Text.cutAt? offset file.text.toList).isSome = true) : file.IsPlace offset := by
  obtain ⟨⟨before, after⟩, cut⟩ := Option.isSome_iff_exists.mp cuts
  obtain ⟨isText, rfl⟩ := Text.cutAt?_eq_some cut
  exact ⟨before, after, isText, rfl⟩

namespace Edit

/-- Whether an edit replaces what stands at an offset. -/
def covers (edit : Edit) (offset : Nat) : Bool :=
  edit.span.start.offset ≤ offset && offset < edit.span.stop.offset

/-- Whether an edit starts at an offset. -/
def startsAt (offset : Nat) (edit : Edit) : Bool :=
  edit.span.start.offset == offset

/-- What the first of the edits that start at an offset writes there. -/
def writtenAt (edits : List Edit) (offset : Nat) : List Char :=
  ((edits.find? (startsAt offset)).map (·.replacement.toList)).getD []

/-- The text that stands behind an offset of a source with edits made at once: where edits
start, the first one is written, and what an edit covers is left out. -/
def madeFrom (edits : List Edit) : Nat → List Char → List Char
  | offset, [] => writtenAt edits offset
  | offset, c :: rest =>
    writtenAt edits offset ++ (if edits.any (·.covers offset) then [] else [c]) ++
      madeFrom edits (offset + c.utf8Size) rest

/-- A source with edits made at once. -/
def madeAtOnce (edits : List Edit) (source : String) : String :=
  String.ofList (madeFrom edits 0 source.toList)

/-- An edit replaces a stretch of a file, which may be empty. -/
structure LiesIn (edit : Edit) (file : SourceFile) : Prop where
  start : file.IsPlace edit.span.start.offset
  stop : file.IsPlace edit.span.stop.offset
  ordered : edit.span.start.offset ≤ edit.span.stop.offset

/-- Edits of different ranges do not overlap and start at different places. -/
def Separate (first second : Edit) : Prop :=
  first.sameRange second = false →
    first.Apart second ∧ first.span.start.offset ≠ second.span.start.offset

instance (first second : Edit) : Decidable (first.Separate second) :=
  inferInstanceAs (Decidable (_ = false → (_ ≤ _ ∨ _ ≤ _) ∧ _ ≠ _))

/-- One of two edits stands in front of the other one and starts earlier. -/
def StartsBehind (edit earlier : Edit) : Prop :=
  earlier.span.Precedes edit.span ∧ earlier.span.start.offset < edit.span.start.offset

section Outcome

variable {edits others : List Edit} {offset : Nat}

/-- Where no edit starts, nothing is written. -/
theorem writtenAt_of_noStart (elsewhere : ∀ edit ∈ edits, edit.span.start.offset ≠ offset) :
    writtenAt edits offset = [] := by
  have notFound : edits.find? (startsAt offset) = none := by
    rw [List.find?_eq_none]
    intro edit member
    simpa [startsAt] using elsewhere edit member
  rw [writtenAt, notFound]
  rfl

theorem writtenAt_cons_of_ne {edit : Edit} (elsewhere : edit.span.start.offset ≠ offset) :
    writtenAt (edit :: edits) offset = writtenAt edits offset := by
  rw [writtenAt, List.find?_cons_of_neg (by simpa [startsAt] using elsewhere), writtenAt]

/-- The outcome depends on what is written and what is covered at each place. -/
theorem madeFrom_congr (written : ∀ offset, writtenAt edits offset = writtenAt others offset)
    (covered : ∀ offset, edits.any (·.covers offset) = others.any (·.covers offset))
    (text : List Char) : madeFrom edits offset text = madeFrom others offset text := by
  induction text generalizing offset with
  | nil => exact written offset
  | cons c rest ih => rw [madeFrom, madeFrom, written, covered, ih]

/-- Behind all edits the source is kept. -/
theorem madeFrom_behind (text : List Char)
    (behind : ∀ edit ∈ edits, edit.span.start.offset < offset ∧ edit.span.stop.offset ≤ offset) :
    madeFrom edits offset text = text := by
  induction text generalizing offset with
  | nil => exact writtenAt_of_noStart fun edit member => (behind edit member).1.ne
  | cons c rest ih =>
      have uncovered : edits.any (·.covers offset) = false := by
        rw [List.any_eq_false]
        intro edit member
        have := (behind edit member).2
        simp only [covers, Bool.and_eq_true, decide_eq_true_iff]
        omega
      rw [madeFrom, writtenAt_of_noStart fun edit member => (behind edit member).1.ne, uncovered,
        ih fun edit member => ?_]
      · rfl
      · obtain ⟨starts, stops⟩ := behind edit member
        exact ⟨by omega, by omega⟩

/-- What the last edit covers behind its start is left out, and the source behind it is
kept. -/
theorem madeFrom_inside {edit : Edit} (covered kept : List Char)
    (member : edit ∈ edits) (starts : edit.span.start.offset ≤ offset)
    (stops : edit.span.stop.offset = offset + Text.byteLength covered)
    (last : ∀ other ∈ edits, other.span.start.offset < offset ∧
      other.span.stop.offset ≤ edit.span.stop.offset) :
    madeFrom edits offset (covered ++ kept) = kept := by
  induction covered generalizing offset with
  | nil =>
      have here : edit.span.stop.offset = offset := stops
      exact madeFrom_behind kept fun other member => here ▸ last other member
  | cons c rest ih =>
      rw [Text.byteLength_cons] at stops
      have size := c.utf8Size_pos
      have isCovered : edits.any (·.covers offset) = true := by
        rw [List.any_eq_true]
        refine ⟨edit, member, ?_⟩
        simp only [covers, Bool.and_eq_true, decide_eq_true_iff]
        omega
      rw [List.cons_append, madeFrom, isCovered,
        writtenAt_of_noStart fun other member => (last other member).1.ne,
        ih (starts.trans (Nat.le_add_right _ _)) (by omega) fun other member => ?_]
      · rfl
      · obtain ⟨earlier, inside⟩ := last other member
        exact ⟨by omega, inside⟩

/-- From its start on, the last edit replaces what it covers by what it writes. -/
theorem madeFrom_last {edit : Edit} (covered kept : List Char)
    (stops : edit.span.stop.offset = edit.span.start.offset + Text.byteLength covered)
    (behind : ∀ other ∈ edits, edit.StartsBehind other) :
    madeFrom (edit :: edits) edit.span.start.offset (covered ++ kept) =
      edit.replacement.toList ++ kept := by
  have written : writtenAt (edit :: edits) edit.span.start.offset = edit.replacement.toList := by
    rw [writtenAt, List.find?_cons_of_pos (by simp [startsAt])]
    rfl
  have last {offset : Nat} (later : edit.span.start.offset < offset) :
      ∀ other ∈ edit :: edits, other.span.start.offset < offset ∧
        other.span.stop.offset ≤ edit.span.stop.offset := by
    intro other member
    obtain rfl | earlier := List.mem_cons.mp member
    · exact ⟨later, le_refl _⟩
    · obtain ⟨precedes, starts⟩ := behind other earlier
      have precedes : other.span.stop.offset ≤ edit.span.start.offset := precedes
      exact ⟨by omega, by omega⟩
  cases covered with
  | nil =>
      -- an insertion: what stands behind it is kept from its first character on
      have here : edit.span.stop.offset = edit.span.start.offset := stops
      cases kept with
      | nil => rw [List.append_nil, List.append_nil, madeFrom, written]
      | cons c rest =>
          have size := c.utf8Size_pos
          have uncovered : (edit :: edits).any (·.covers edit.span.start.offset) = false := by
            rw [List.any_eq_false]
            intro other member
            obtain ⟨-, inside⟩ := last (Nat.lt_succ_self _) other member
            simp only [covers, Bool.and_eq_true, decide_eq_true_iff]
            omega
          rw [List.nil_append, madeFrom, written, uncovered,
            madeFrom_behind rest fun other member => ?_]
          · simp
          · obtain ⟨starts, inside⟩ := last (Nat.lt_add_of_pos_right size) other member
            exact ⟨starts, by omega⟩
  | cons c rest =>
      have size := c.utf8Size_pos
      rw [Text.byteLength_cons] at stops
      have isCovered : (edit :: edits).any (·.covers edit.span.start.offset) = true := by
        rw [List.any_eq_true]
        refine ⟨edit, List.mem_cons_self, ?_⟩
        simp only [covers, Bool.and_eq_true, decide_eq_true_iff]
        omega
      rw [List.cons_append, madeFrom, written, isCovered,
        madeFrom_inside rest kept List.mem_cons_self (Nat.le_add_right _ _) (by omega)
          (last (Nat.lt_add_of_pos_right size))]
      simp

/-- In front of the last edit there is only the work of the others. -/
theorem madeFrom_before {edit : Edit} (before rest : List Char)
    (starts : edit.span.start.offset = offset + Text.byteLength before)
    (behind : ∀ other ∈ edits, edit.StartsBehind other) :
    madeFrom (edit :: edits) offset (before ++ rest) =
      madeFrom edits offset before ++ madeFrom (edit :: edits) edit.span.start.offset rest := by
  induction before generalizing offset with
  | nil =>
      have here : edit.span.start.offset = offset := starts
      have nothing : writtenAt edits offset = [] :=
        writtenAt_of_noStart fun other member => here ▸ (behind other member).2.ne
      rw [List.nil_append, madeFrom, nothing, here, List.nil_append]
  | cons c before ih =>
      have size := c.utf8Size_pos
      rw [Text.byteLength_cons] at starts
      have uncovered : edit.covers offset = false := by
        simp only [covers, Bool.and_eq_false_iff, decide_eq_false_iff_not]
        omega
      rw [List.cons_append, madeFrom, madeFrom, writtenAt_cons_of_ne (by omega), List.any_cons,
        uncovered, Bool.false_or, ih (by omega)]
      simp only [List.append_assoc]

end Outcome

section Application

variable {file : SourceFile} {edits : List Edit}

/-- Edits that are given from back to front, each in front of the one before, are applied to
the front of a file as if they were made at once.  What stands behind is left as it is. -/
theorem foldlM_applyTo?_eq (ordered : edits.Pairwise StartsBehind)
    (within : ∀ edit ∈ edits, edit.LiesIn file) {text : String} {front rest behind : List Char}
    (isFile : file.text.toList = front ++ rest) (isText : text.toList = front ++ behind)
    (inFront : ∀ edit ∈ edits, edit.span.stop.offset ≤ Text.byteLength front) :
    edits.foldlM applyTo? text = some (String.ofList (madeFrom edits 0 front ++ behind)) := by
  induction edits generalizing text front rest behind with
  | nil =>
      rw [madeFrom_behind front (List.forall_mem_nil _), ← isText, String.ofList_toList]
      rfl
  | cons edit edits ih =>
      obtain ⟨isBehind, restOrdered⟩ := List.pairwise_cons.mp ordered
      obtain ⟨here, there⟩ := List.forall_mem_cons.mp within
      obtain ⟨upTo, kept, rfl, stops⟩ := here.stop.divides isFile (inFront edit List.mem_cons_self)
      rw [List.append_assoc] at isFile isText
      have inside : edit.span.start.offset ≤ Text.byteLength upTo := stops ▸ here.ordered
      obtain ⟨before, covered, rfl, starts⟩ := here.start.divides isFile inside
      rw [List.append_assoc] at isFile isText
      rw [Text.byteLength_append] at stops
      have applied := applyTo?_stretch isText starts stops
      have next : (String.ofList (before ++ edit.replacement.toList ++ (kept ++ behind))).toList =
          before ++ (edit.replacement.toList ++ (kept ++ behind)) := by
        rw [String.toList_ofList, List.append_assoc]
      rw [List.foldlM_cons, applied, Option.bind_eq_bind, Option.bind_some,
        ih restOrdered there isFile next fun other member => starts ▸ (isBehind other member).1,
        List.append_assoc before covered kept, madeFrom_before before (covered ++ kept)
          (by rw [Nat.zero_add]; exact starts.symm) isBehind,
        madeFrom_last covered kept (by rw [← stops, starts]) isBehind]
      simp only [List.append_assoc]

/-- Where repetitions are dropped of separate edits in order, each one stands in front of the
one before. -/
theorem startsBehind_dropRepeated (ordered : FromBack edits)
    (within : ∀ edit ∈ edits, edit.LiesIn file)
    (separate : ∀ first ∈ edits, ∀ second ∈ edits, first.Separate second) :
    (dropRepeated edits).Pairwise StartsBehind := by
  cases edits with
  | nil => exact .nil
  | cons edit rest =>
      rw [dropRepeated]
      induction rest generalizing edit with
      | nil => exact List.pairwise_singleton _ _
      | cons next rest ih =>
          obtain ⟨behindEdit, restOrdered⟩ := List.pairwise_cons.mp ordered
          obtain ⟨editIn, restIn⟩ := List.forall_mem_cons.mp within
          rw [dropRepeated.dropAfter]
          split
          · apply ih
            · exact ordered.sublist ((List.sublist_cons_self next rest).cons_cons edit)
            · exact fun other member => within other
                (((List.sublist_cons_self next rest).cons_cons edit).subset member)
            · exact fun first isFirst second isSecond => separate first
                (((List.sublist_cons_self next rest).cons_cons edit).subset isFirst) second
                (((List.sublist_cons_self next rest).cons_cons edit).subset isSecond)
          · next differ =>
            have tail := ih next restOrdered restIn fun first isFirst second isSecond =>
              separate first (List.mem_cons_of_mem _ isFirst) second
                (List.mem_cons_of_mem _ isSecond)
            refine List.pairwise_cons.mpr ⟨fun other member => ?_, tail⟩
            have among : other ∈ next :: rest :=
              ((dropAfter_sublist next rest).cons_cons next).subset member
            have startsEarlier : other.span.start.offset < edit.span.start.offset := by
              have apart := (separate edit List.mem_cons_self next
                (List.mem_cons_of_mem _ List.mem_cons_self) (Bool.eq_false_iff.mpr differ)).2
              have nextEarlier := behindEdit next List.mem_cons_self
              obtain rfl | later := List.mem_cons.mp member
              · omega
              · have := ((List.pairwise_cons.mp tail).1 other later).2
                omega
            have otherRange : edit.sameRange other = false := by
              rw [Bool.eq_false_iff]
              intro same
              have := (sameRange_iff.mp same).1
              omega
            obtain ⟨follows | precedes, -⟩ := separate edit List.mem_cons_self other
              (List.mem_cons_of_mem _ among) otherRange
            · -- an edit that starts later does not stand in front, not even as an insertion
              have follows : edit.span.stop.offset ≤ other.span.start.offset := follows
              have := editIn.ordered
              omega
            · exact ⟨precedes, startsEarlier⟩

/-- Neither ordering edits nor dropping repetitions changes what is made of them at once. -/
theorem madeAtOnce_fromBack (edits : List Edit) (source : String) :
    madeAtOnce (dropRepeated (fromBack edits)) source = madeAtOnce edits source := by
  have written (offset : Nat) :
      writtenAt (dropRepeated (fromBack edits)) offset = writtenAt edits offset := by
    have ranged (first second : Edit) (same : first.sameRange second = true) :
        startsAt offset first = startsAt offset second := by
      rw [startsAt, startsAt, (sameRange_iff.mp same).1]
    have starting : fromBack (edits.filter (startsAt offset)) = edits.filter (startsAt offset) :=
      fromBack_of_start fun edit member => by simpa [startsAt] using List.of_mem_filter member
    rw [writtenAt, find?_dropRepeated ranged, ← List.head?_filter, filter_fromBack, starting,
      List.head?_filter, writtenAt]
  have covered (offset : Nat) :
      (dropRepeated (fromBack edits)).any (·.covers offset) = edits.any (·.covers offset) := by
    have ranged (first second : Edit) (same : first.sameRange second = true) :
        first.covers offset = second.covers offset := by
      rw [covers, covers, (sameRange_iff.mp same).1, (sameRange_iff.mp same).2]
    rw [← List.isSome_find?, find?_dropRepeated ranged, List.isSome_find?]
    exact (fromBack_perm edits).any_eq
  rw [madeAtOnce, madeFrom_congr written covered, madeAtOnce]

/-- Separate edits of a file, in whatever order they are given and however often a range
occurs, leave what they leave when they are made at once.  So it does not matter in which
order edits of different ranges are given. -/
theorem applyAll?_eq_madeAtOnce (within : ∀ edit ∈ edits, edit.LiesIn file)
    (separate : ∀ first ∈ edits, ∀ second ∈ edits, first.Separate second) :
    applyAll? file.text edits = some (madeAtOnce edits file.text) ∧
      ∀ others : List Edit, others.Perm edits →
        (∀ edit ∈ edits, others.filter edit.sameRange = edits.filter edit.sameRange) →
        applyAll? file.text others = applyAll? file.text edits := by
  have atOnce {edits : List Edit} (within : ∀ edit ∈ edits, edit.LiesIn file)
      (separate : ∀ first ∈ edits, ∀ second ∈ edits, first.Separate second) :
      applyAll? file.text edits = some (madeAtOnce edits file.text) := by
    have given {edit : Edit} (member : edit ∈ fromBack edits) : edit ∈ edits :=
      (fromBack_perm edits).mem_iff.mp member
    have kept {edit : Edit} (member : edit ∈ dropRepeated (fromBack edits)) : edit.LiesIn file :=
      within edit (given ((dropRepeated_sublist _).subset member))
    have ordered : (dropRepeated (fromBack edits)).Pairwise StartsBehind :=
      startsBehind_dropRepeated (fromBack_fromBack edits)
        (fun edit member => within edit (given member))
        fun first isFirst second isSecond => separate first (given isFirst) second (given isSecond)
    have isText : file.text.toList = file.text.toList ++ [] := (List.append_nil _).symm
    rw [applyAll?, foldlM_applyTo?_eq ordered (fun edit => kept) isText isText fun edit member =>
        Text.utf8ByteSize_eq _ ▸ (kept member).stop.le_size,
      List.append_nil, ← madeAtOnce_fromBack edits]
    rfl
  refine ⟨atOnce within separate, fun others perm sameOrder => ?_⟩
  have given {edit : Edit} : edit ∈ others → edit ∈ edits := perm.mem_iff.mp
  rw [atOnce within separate, atOnce (fun edit member => within edit (given member))
      fun first isFirst second isSecond => separate first (given isFirst) second (given isSecond),
    madeAtOnce, madeAtOnce, madeFrom_congr ?_ fun offset => perm.any_eq]
  intro offset
  cases found : edits.find? (startsAt offset) with
  | none =>
      have elsewhere {edit : Edit} (member : edit ∈ edits) : edit.span.start.offset ≠ offset := by
        simpa [startsAt] using List.find?_eq_none.mp found edit member
      rw [writtenAt_of_noStart fun edit member => elsewhere (given member),
        writtenAt_of_noStart fun edit member => elsewhere member]
  | some edit =>
      have member := List.mem_of_find?_eq_some found
      have starts : edit.span.start.offset = offset := by
        simpa [startsAt] using List.find?_some found
      -- what starts here replaces one and the same range, and such edits are in the same order
      have ofRange {other : Edit} (isOther : other ∈ edits) :
          startsAt offset other = edit.sameRange other := by
        rw [Bool.eq_iff_iff, startsAt, beq_iff_eq]
        refine ⟨fun here => ?_, fun same => (sameRange_iff.mp same).1 ▸ starts⟩
        by_contra differ
        exact (separate edit member other isOther (Bool.eq_false_iff.mpr differ)).2
          (starts.trans here.symm)
      have filtered : others.filter (startsAt offset) = edits.filter (startsAt offset) := by
        rw [List.filter_congr fun other isOther => ofRange (given isOther),
          List.filter_congr fun other isOther => ofRange isOther, sameOrder edit member]
      rw [writtenAt, writtenAt, ← List.head?_filter, filtered, List.head?_filter]

end Application

/-- An edit between two offsets. -/
private def between (start stop : Nat) (replacement : String) : Edit :=
  ⟨⟨"T.cs", ⟨start, 1, start + 1⟩, ⟨stop, 1, stop + 1⟩⟩, replacement⟩

/-- A removal, a range that is given twice, an insertion right behind the removal, one at the
end and a longer replacement. -/
private def mixedEdits : List Edit :=
  [between 1 3 "", between 5 6 "ccc", between 3 3 "<>", between 6 6 "!", between 0 1 "ä",
    between 5 6 "d"]

/-- The same edits, those of the range that is given twice in the same order. -/
private def shuffledEdits : List Edit :=
  [between 6 6 "!", between 5 6 "ccc", between 0 1 "ä", between 5 6 "d", between 3 3 "<>",
    between 1 3 ""]

/-- Of the edits of one range the first one counts, whatever stands between them. -/
theorem applyAll?_eq_madeAtOnce_of_mixedEdits :
    (∀ edit ∈ mixedEdits, edit.LiesIn (.ofText "T.cs" "aéb:c")) ∧
      (∀ first ∈ mixedEdits, ∀ second ∈ mixedEdits, first.Separate second) ∧
      shuffledEdits.Perm mixedEdits ∧
      applyAll? "aéb:c" mixedEdits = some "ä<>b:ccc!" ∧
      applyAll? "aéb:c" shuffledEdits = some "ä<>b:ccc!" := by
  have cuts : ∀ edit ∈ mixedEdits,
      (Text.cutAt? edit.span.start.offset "aéb:c".toList).isSome = true ∧
      (Text.cutAt? edit.span.stop.offset "aéb:c".toList).isSome = true ∧
      edit.span.start.offset ≤ edit.span.stop.offset := by
    decide
  have within (edit : Edit) (member : edit ∈ mixedEdits) :
      edit.LiesIn (.ofText "T.cs" "aéb:c") :=
    ⟨.of_cut (cuts edit member).1, .of_cut (cuts edit member).2.1, (cuts edit member).2.2⟩
  have separate : ∀ first ∈ mixedEdits, ∀ second ∈ mixedEdits, first.Separate second := by decide
  have perm : shuffledEdits.Perm mixedEdits := by decide
  obtain ⟨made, reordered⟩ := applyAll?_eq_madeAtOnce within separate
  have outcome : madeAtOnce mixedEdits "aéb:c" = "ä<>b:ccc!" := by decide
  have inOrder : applyAll? "aéb:c" mixedEdits = some "ä<>b:ccc!" := outcome ▸ made
  exact ⟨within, separate, perm, inOrder, (reordered _ perm (by decide)).trans inOrder⟩

end Edit

end ErrorAccessors
