/-
# Positions count line feeds

Lines and columns can be counted in the bytes of a file, without a table.  The line of an
offset is one more than the line feeds in front of it, and its column counts the bytes behind
the last of them, or from the beginning if there is none.  An offset inside a character or
beyond the end is no exception.  There is one exception: an offset may be any machine word,
and if no line feed stands in front of the greatest one, its column is no word any more.

A byte of a line feed is part of no other character, so the table of line starts holds the
beginning of the file and the offset behind each such byte, and it increases.  Whoever looks
up an offset in it finds as many line starts as line feeds in front, and the last of them.

A span keeps the positions of its ends, and merging takes each of them from either side.
Since a position belongs to its offset, the merged span is the one between the outermost
offsets.
-/

import ErrorAccessors.Source.File
import Mathlib.Data.List.Sort
import Mathlib.Tactic.SplitIfs

namespace ErrorAccessors

namespace Text

/-- Whether the byte at an offset of a text is a line feed.  There is none beyond the end. -/
def isLineFeedAt (text : String) (offset : Nat) : Bool :=
  text.toUTF8.data[offset]? == some 10

/-- The offsets of the line feeds in front of an offset, in increasing order. -/
def lineFeedsBefore (text : String) (offset : Nat) : List Nat :=
  (List.range offset).filter (isLineFeedAt text)

theorem mem_lineFeedsBefore {text : String} {offset feed : Nat} :
    feed ∈ lineFeedsBefore text offset ↔ feed < offset ∧ isLineFeedAt text feed = true := by
  rw [lineFeedsBefore, List.mem_filter, List.mem_range]

/-- The line feeds in front of an offset come first among those in front of a later one. -/
theorem lineFeedsBefore_prefix (text : String) {offset later : Nat} (less : offset ≤ later) :
    lineFeedsBefore text offset <+: lineFeedsBefore text later := by
  obtain ⟨more, rfl⟩ := Nat.exists_eq_add_of_le less
  rw [lineFeedsBefore, lineFeedsBefore, List.range_add, List.filter_append]
  exact List.prefix_append ..

section LineStarts

/-- A byte of an encoded character is its code, or no byte of an ASCII character. -/
private theorem toNat_of_mem_utf8EncodeChar {c : Char} {byte : UInt8}
    (member : byte ∈ String.utf8EncodeChar c) : byte.toNat = c.toNat ∨ 128 ≤ byte.toNat := by
  have ofNat (code : Nat) (most : code < 256) : (UInt8.ofNat code).toNat = code := by
    rw [UInt8.toNat_ofNat', Nat.mod_eq_of_lt most]
  have leading (code : Nat) (least : 128 ≤ code) (most : code < 256) :
      128 ≤ (UInt8.ofNat code).toNat := by
    rw [ofNat code most]
    exact least
  simp only [String.utf8EncodeChar] at member
  split_ifs at member
  · rw [List.mem_singleton.mp member, ofNat _ (by omega)]
    exact .inl rfl
  all_goals
    right
    simp only [List.mem_cons, List.not_mem_nil, or_false] at member
    rcases member with rfl | rfl | rfl | rfl
    all_goals exact leading _ (by omega) (by omega)

/-- The line starts behind an offset belong to the bytes that are line feeds. -/
private theorem mem_lineStartsFrom {base start : Nat} {text : List Char} :
    start ∈ lineStartsFrom base text ↔
      ∃ feed, (text.flatMap String.utf8EncodeChar)[feed]? = some 10 ∧ start = base + feed + 1 := by
  induction text generalizing base with
  | nil => simp [lineStartsFrom]
  | cons c rest ih =>
      have size : (String.utf8EncodeChar c).length = c.utf8Size := String.length_utf8EncodeChar c
      rw [List.flatMap_cons, lineStartsFrom]
      by_cases isFeed : c = '\n'
      · subst isFeed
        simp only [if_true, List.mem_cons, ih]
        constructor
        · rintro (rfl | ⟨feed, isByte, rfl⟩)
          · exact ⟨0, rfl, rfl⟩
          · exact ⟨feed + 1, isByte, by rw [show '\n'.utf8Size = 1 from rfl]; omega⟩
        · rintro ⟨feed, isByte, rfl⟩
          cases feed with
          | zero => exact .inl rfl
          | succ feed => exact .inr ⟨feed, isByte, by rw [show '\n'.utf8Size = 1 from rfl]; omega⟩
      · simp only [if_neg isFeed, ih]
        have noByte : 10 ∉ String.utf8EncodeChar c := by
          intro member
          rcases toNat_of_mem_utf8EncodeChar member with same | large
          · exact isFeed (Char.toNat_inj.mp same.symm)
          · simp at large
        constructor
        · rintro ⟨feed, isByte, rfl⟩
          refine ⟨c.utf8Size + feed, ?_, by omega⟩
          rw [← size, List.getElem?_append_right (Nat.le_add_right ..), Nat.add_sub_cancel_left]
          exact isByte
        · rintro ⟨feed, isByte, rfl⟩
          by_cases inside : feed < (String.utf8EncodeChar c).length
          · rw [List.getElem?_append_left inside] at isByte
            exact absurd (List.mem_of_getElem? isByte) noByte
          · rw [List.getElem?_append_right (Nat.le_of_not_lt inside)] at isByte
            exact ⟨feed - (String.utf8EncodeChar c).length, isByte, by omega⟩

/-- The lines of a text start at its beginning and behind each byte that is a line feed. -/
theorem mem_lineStarts {text : String} {start : Nat} :
    start ∈ lineStarts text ↔ start = 0 ∨ ∃ feed, isLineFeedAt text feed = true ∧
    start = feed + 1 := by
  have bytes : text.toUTF8.data = (text.toList.flatMap String.utf8EncodeChar).toArray := by
    rw [String.toUTF8_eq_toByteArray, ← String.utf8Encode_toList, List.utf8Encode,
      List.data_toByteArray]
  simp only [lineStarts, List.mem_cons, mem_lineStartsFrom, isLineFeedAt, bytes, Nat.zero_add,
    List.getElem?_toArray, beq_iff_eq]

private theorem lt_of_mem_lineStartsFrom {base start : Nat} {text : List Char}
    (member : start ∈ lineStartsFrom base text) : base < start := by
  obtain ⟨feed, -, rfl⟩ := mem_lineStartsFrom.mp member
  omega

/-- The table of line starts increases. -/
theorem pairwise_lineStarts (text : String) : (lineStarts text).Pairwise (· < ·) := by
  have increases (base : Nat) (chars : List Char) :
      (lineStartsFrom base chars).Pairwise (· < ·) := by
    induction chars generalizing base with
    | nil => exact .nil
    | cons c rest ih =>
        rw [lineStartsFrom]
        split
        · exact .cons (fun _ member => lt_of_mem_lineStartsFrom member) (ih _)
        · exact ih _
  exact .cons (fun _ member => lt_of_mem_lineStartsFrom member) (increases 0 text.toList)

/-- The line starts up to an offset are the beginning and the places behind the line feeds in
front of the offset. -/
theorem filter_lineStarts (text : String) (offset : Nat) :
    (lineStarts text).filter (· ≤ offset) = 0 :: (lineFeedsBefore text offset).map (· + 1) := by
  refine ((pairwise_lineStarts text).filter _).eq_of_mem_iff ?_ fun start => ?_
  · refine .cons (fun start member => ?_) (List.pairwise_map.mpr ?_)
    · obtain ⟨feed, -, rfl⟩ := List.mem_map.mp member
      exact Nat.succ_pos feed
    · exact (List.pairwise_lt_range.filter _).imp Nat.succ_lt_succ
  · rw [List.mem_filter, mem_lineStarts, List.mem_cons, List.mem_map]
    constructor
    · rintro ⟨rfl | ⟨feed, isFeed, rfl⟩, within⟩
      · exact .inl rfl
      · exact .inr ⟨feed, mem_lineFeedsBefore.mpr ⟨of_decide_eq_true within, isFeed⟩, rfl⟩
    · rintro (rfl | ⟨feed, member, rfl⟩)
      · exact ⟨.inl rfl, decide_eq_true (Nat.zero_le offset)⟩
      · obtain ⟨before, isFeed⟩ := mem_lineFeedsBefore.mp member
        exact ⟨.inr ⟨feed, isFeed, rfl⟩, decide_eq_true before⟩

end LineStarts

end Text

/-- Whether a line and column come before others: on an earlier line, or further left on the
same line. -/
def Position.Precedes (position later : Position) : Prop :=
  position.line < later.line ∨ position.line = later.line ∧ position.column < later.column

theorem Position.Precedes.asymm {position later : Position} (precedes : position.Precedes later) :
    ¬ later.Precedes position := by
  unfold Precedes at *
  omega

namespace SourceFile

variable (file : SourceFile)

/-- The position of an offset, counted in the bytes of the file. -/
def countedPosition (offset : Nat) : Position :=
  let feeds := Text.lineFeedsBefore file.text offset
  let lineStart :=
    match feeds.getLast? with
    | none => 0
    | some feed => feed + 1
  ⟨offset, 1 + feeds.length, offset - lineStart + 1⟩

/-- The position that is looked up for an offset is the one that is counted, with the
column as a word. -/
theorem position_eq_counted (offset : Nat) :
    file.position offset =
      { file.countedPosition offset with
        column := (file.countedPosition offset).column % Position.wordCount } := by
  rw [position, file.lineStarts_eq, Text.filter_lineStarts, countedPosition]
  simp only [List.length_cons, List.length_map, List.getLastD_cons, Nat.add_comm 1]
  rw [List.getLastD_eq_getLast?, List.getLast?_map]
  cases (Text.lineFeedsBefore file.text offset).getLast? <;> rfl

/-- Whether an offset is a word and has a column that is one too.  Only the greatest word
may have none, and it has one behind a line feed. -/
def HasColumn (offset : Nat) : Prop :=
  offset + 1 < Position.wordCount ∨
    offset + 1 = Position.wordCount ∧ Text.lineFeedsBefore file.text offset ≠ []

variable {file} {offset later : Nat}

theorem HasColumn.column_lt (fits : file.HasColumn offset) :
    (file.countedPosition offset).column < Position.wordCount := by
  rw [countedPosition]
  simp only []
  rcases fits with less | ⟨last, someFeed⟩
  · omega
  · cases isLast : (Text.lineFeedsBefore file.text offset).getLast? with
    | none => exact absurd (List.getLast?_eq_none_iff.mp isLast) someFeed
    | some feed =>
        have before := (Text.mem_lineFeedsBefore.mp (List.mem_of_getLast? isLast)).1
        simp only []
        omega

theorem HasColumn.position_eq (fits : file.HasColumn offset) :
    file.position offset = file.countedPosition offset := by
  rw [position_eq_counted, Nat.mod_eq_of_lt fits.column_lt]

/-- A later offset stands on a later line, or further right on the same line. -/
theorem HasColumn.precedes_of_lt (first : file.HasColumn offset) (second : file.HasColumn later)
    (less : offset < later) : (file.position offset).Precedes (file.position later) := by
  have isPrefix := Text.lineFeedsBefore_prefix file.text (Nat.le_of_lt less)
  rw [Position.Precedes, first.position_eq, second.position_eq, countedPosition, countedPosition]
  rcases Nat.lt_or_eq_of_le isPrefix.length_le with fewer | same
  · exact .inl (Nat.add_lt_add_left fewer 1)
  · -- no line feed in between, so both are counted from the same line start
    rw [← isPrefix.eq_of_length same]
    refine .inr ⟨rfl, ?_⟩
    simp only []
    split
    · omega
    · next feed isLast =>
      have before := (Text.mem_lineFeedsBefore.mp (List.mem_of_getLast? isLast)).1
      omega

theorem HasColumn.precedes_iff (first : file.HasColumn offset) (second : file.HasColumn later) :
    (file.position offset).Precedes (file.position later) ↔ offset < later := by
  refine ⟨fun precedes => ?_, first.precedes_of_lt second⟩
  by_contra notLess
  rcases Nat.lt_or_eq_of_le (Nat.le_of_not_lt notLess) with less | rfl
  · exact (second.precedes_of_lt first less).asymm precedes
  · exact precedes.asymm precedes

variable (file)

/-- Merging two spans of a file gives the span between the outermost offsets. -/
theorem merge_span_span (start stop other later : Nat) :
    (file.span start stop).merge (file.span other later) =
      file.span (min start other) (max stop later) := by
  have isStart : (if start ≤ other then file.position start else file.position other) =
      file.position (min start other) := by
    rw [Nat.min_def, apply_ite file.position]
  have isStop : (if later ≤ stop then file.position stop else file.position later) =
      file.position (max stop later) := by
    rw [Nat.max_comm, Nat.max_def, apply_ite file.position]
  exact congrArg₂ (Span.mk file.path) isStart isStop

/-- The spans of a file tell where their offsets stand: wherever an offset has a column, lines
and columns are those that are counted in the bytes of the file, and increase with the offset.
Merging two spans gives the one between their outermost offsets, so the order in which spans of
a file are merged, and merging one twice, make no difference. -/
theorem spans_tell_places :
    (∀ start stop, file.HasColumn start → file.HasColumn stop → file.span start stop =
      ⟨file.path, file.countedPosition start, file.countedPosition stop⟩) ∧
    (∀ offset later, file.HasColumn offset → file.HasColumn later →
      ((file.position offset).Precedes (file.position later) ↔ offset < later)) ∧
    (∀ a b c d, (file.span a b).merge (file.span c d) = file.span (min a c) (max b d)) ∧
    (∀ a b c d, (file.span a b).merge (file.span c d) = (file.span c d).merge (file.span a b)) ∧
    (∀ a b c d e f, ((file.span a b).merge (file.span c d)).merge (file.span e f) =
      (file.span a b).merge ((file.span c d).merge (file.span e f))) ∧
    ∀ a b, (file.span a b).merge (file.span a b) = file.span a b := by
  refine ⟨fun start stop first second => ?_, fun _ _ first second => first.precedes_iff second,
    file.merge_span_span, fun a b c d => ?_, fun a b c d e f => ?_, fun a b => ?_⟩
  · rw [span, first.position_eq, second.position_eq]
  · rw [merge_span_span, merge_span_span, Nat.min_comm, Nat.max_comm]
  · rw [merge_span_span, merge_span_span, merge_span_span, merge_span_span, Nat.min_assoc,
      Nat.max_assoc]
  · rw [merge_span_span, Nat.min_self, Nat.max_self]

/-- In a file of two lines the greatest offset has a column.  A span up to it tells where it
stands, and its position comes behind that of an offset before. -/
theorem spans_tell_places_to_last :
    let file := ofText "A.cs" "é\nx"
    let last := Position.wordCount - 1
    file.HasColumn 3 ∧ file.HasColumn last ∧
      file.span 3 last = ⟨"A.cs", file.countedPosition 3, file.countedPosition last⟩ ∧
      (file.span 3 last).stop = ⟨last, 2, last - 2⟩ ∧
      (file.position 3).Precedes (file.position last) := by
  intro file last
  have small : file.HasColumn 3 := .inl (by decide)
  have great : file.HasColumn last := by
    refine .inr ⟨by decide, List.ne_nil_of_mem (a := 2) ?_⟩
    exact Text.mem_lineFeedsBefore.mpr ⟨by decide, by decide⟩
  obtain ⟨told, ordered, -⟩ := spans_tell_places file
  exact ⟨small, great, told 3 last small great, by decide,
    (ordered 3 last small great).mpr (by decide)⟩

/-- In a file without a line feed the greatest offset has no column.  It is given the column
zero, which is not the one that is counted, and does not come behind the beginning. -/
theorem last_without_column :
    let file := ofText "Test.cs" ""
    let last := Position.wordCount - 1
    file.position last = ⟨last, 1, 0⟩ ∧
      (file.countedPosition last).column = Position.wordCount ∧
      file.span last last ≠ ⟨file.path, file.countedPosition last, file.countedPosition last⟩ ∧
      0 < last ∧ ¬ (file.position 0).Precedes (file.position last) := by
  intro file last
  have noFeed : Text.lineFeedsBefore file.text last = [] := by
    refine List.eq_nil_iff_forall_not_mem.mpr fun feed member => ?_
    obtain ⟨-, isFeed⟩ := Text.mem_lineFeedsBefore.mp member
    cases isFeed
  have isLast : file.position last = ⟨last, 1, 0⟩ := by decide
  have counted : (file.countedPosition last).column = Position.wordCount := by
    rw [countedPosition, noFeed]
    rfl
  refine ⟨isLast, counted, fun same => ?_, by decide, ?_⟩
  · have isStart := congrArg (fun span => span.start.column) same
    rw [counted] at isStart
    have isZero : (file.span last last).start.column = 0 := congrArg Position.column isLast
    exact absurd (isZero.symm.trans isStart) (by decide)
  · rw [isLast, Position.Precedes]
    decide

end SourceFile

end ErrorAccessors
