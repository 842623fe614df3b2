/-
# Ranges of characters

Facts about characters of all scripts are read off from the tables of ranges, and for
whole ranges of characters at once: a range that lies inside one of a table, and a
range that no range of a table touches, are found by going through the table once.

A character of a name has an upper case that begins with a character of a name, which
is no lower-case letter of the English alphabet.
-/

import ErrorAccessors.AccessorName
import ErrorAccessors.Token.Lexer
import Mathlib.Tactic.SplitIfs

namespace ErrorAccessors.Unicode

namespace Ranges

/-- Whether a range of code points lies inside a range of a table. -/
def covers : Ranges → Nat → Nat → Bool
  | [], _, _ => false
  | (low, high) :: rest, first, last =>
    bif first.blt low then false
    else bif last.ble high then true
    else bif first.ble high then false
    else covers rest first last

/-- Whether no range of a table touches a range of code points. -/
def avoids : Ranges → Nat → Nat → Bool
  | [], _, _ => true
  | (low, high) :: rest, first, last =>
    bif last.blt low then true
    else bif high.blt first then avoids rest first last
    else false

variable {ranges : Ranges} {first last code : Nat}

/-- A code point of a range inside a table is in the table. -/
theorem containsCode_of_covers (covered : ranges.covers first last = true)
    (within : first ≤ code ∧ code ≤ last) : ranges.containsCode code = true := by
  induction ranges with
  | nil => cases covered
  | cons range rest ih =>
      obtain ⟨low, high⟩ := range
      simp only [covers, Bool.cond_eq_ite, Nat.blt_eq, Nat.ble_eq] at covered
      split_ifs at covered with below inside straddles
      · rw [containsCode, if_neg (by omega), if_pos (by omega)]
      · rw [containsCode, if_neg (by omega), if_neg (by omega)]
        exact ih covered

/-- A code point of a range that a table does not touch is not in the table. -/
theorem containsCode_of_avoids (avoided : ranges.avoids first last = true)
    (within : first ≤ code ∧ code ≤ last) : ranges.containsCode code = false := by
  induction ranges with
  | nil => rfl
  | cons range rest ih =>
      obtain ⟨low, high⟩ := range
      simp only [avoids, Bool.cond_eq_ite, Nat.blt_eq] at avoided
      split_ifs at avoided with below above
      · rw [containsCode, if_pos (by omega)]
      · rw [containsCode]
        split_ifs with before inside
        · rfl
        · omega
        · exact ih avoided

/-- A code point of a table lies in one of its ranges. -/
theorem mem_of_containsCode (contained : ranges.containsCode code = true) :
    ∃ range ∈ ranges, range.1 ≤ code ∧ code ≤ range.2 := by
  induction ranges with
  | nil => cases contained
  | cons range rest ih =>
      obtain ⟨low, high⟩ := range
      simp only [containsCode] at contained
      split_ifs at contained with below inside
      · exact ⟨(low, high), List.mem_cons_self, by omega⟩
      · obtain ⟨found, isFound, within⟩ := ih contained
        exact ⟨found, List.mem_cons_of_mem _ isFound, within⟩

end Ranges

section Spaces

/-- White space is touched by no table of letters, numbers and characters of names. -/
private theorem avoids_spaceRanges :
    (spaceRanges.all fun range =>
      letterRanges.avoids range.1 range.2 && numberRanges.avoids range.1 range.2 &&
        identifierStartExtras.avoids range.1 range.2 &&
        identifierContinueExtras.avoids range.1 range.2) = true := by
  decide +kernel

/-- White space is neither a letter nor a number nor part of a name. -/
theorem notName_of_isSpace {c : Char} (space : isSpace c = true) :
    isLetter c = false ∧ isNumber c = false ∧ isIdentifierContinue c = false := by
  obtain ⟨range, isRange, within⟩ := Ranges.mem_of_containsCode space
  have avoided := List.all_eq_true.mp avoids_spaceRanges range isRange
  simp only [Bool.and_eq_true] at avoided
  obtain ⟨⟨⟨noLetter, noNumber⟩, noStart⟩, noContinue⟩ := avoided
  have letter : isLetter c = false := Ranges.containsCode_of_avoids noLetter within
  have number : isNumber c = false := Ranges.containsCode_of_avoids noNumber within
  have start : identifierStartExtras.contains c = false :=
    Ranges.containsCode_of_avoids noStart within
  have continues : identifierContinueExtras.contains c = false :=
    Ranges.containsCode_of_avoids noContinue within
  exact ⟨letter, number,
    by simp [isIdentifierContinue, isIdentifierStart, letter, start, continues]⟩

/-- A no-break space is white space and stands in no name. -/
example : isSpace '\u00A0' = true ∧ isIdentifierContinue '\u00A0' = false := by
  decide +kernel

end Spaces

section UpperCase

/-- A character that may begin the upper case of a character of a name: it belongs to
names, and it is no lower-case letter of the English alphabet. -/
def IsCapital (c : Char) : Prop :=
  isIdentifierContinue c = true ∧ c.isLower = false

/-- Whether the characters of a range are known to be capitals in this sense. -/
def areCapitals (first last : Nat) : Bool :=
  (last.blt 0xD800 || (Nat.blt 0xDFFF first && last.blt 0x110000)) &&
    (last.blt 0x61 || Nat.blt 0x7A first) &&
      ((letterRanges.covers first last && identifierStartExceptions.avoids first last) ||
        identifierStartExtras.covers first last)

private theorem isLower_of_toNat {c : Char} (outside : c.toNat < 0x61 ∨ 0x7A < c.toNat) :
    c.isLower = false := by
  rw [Bool.eq_false_iff]
  intro lower
  have lower : (decide ('a'.val ≤ c.val) && decide (c.val ≤ 'z'.val)) = true := lower
  simp only [Bool.and_eq_true, decide_eq_true_eq, UInt32.le_iff_toNat_le] at lower
  have atLeast : 0x61 ≤ c.toNat := lower.1
  have atMost : c.toNat ≤ 0x7A := lower.2
  omega

theorem isCapital_of_areCapitals {first last code : Nat} (are : areCapitals first last = true)
    (within : first ≤ code ∧ code ≤ last) : IsCapital (Char.ofNat code) := by
  simp only [areCapitals, Bool.and_eq_true, Bool.or_eq_true, Nat.blt_eq] at are
  obtain ⟨⟨valid, noLower⟩, starts⟩ := are
  have isCode : (Char.ofNat code).toNat = code := by
    rw [Char.ofNat, dif_pos (show code.isValidChar by unfold Nat.isValidChar; omega)]
    rfl
  refine ⟨isIdentifierContinue_of_start ?_, ?_⟩
  · unfold isIdentifierStart isLetter Ranges.contains
    rw [isCode]
    rcases starts with ⟨covered, avoided⟩ | covered
    · rw [Ranges.containsCode_of_covers covered within,
        Ranges.containsCode_of_avoids avoided within]
      rfl
    · rw [Ranges.containsCode_of_covers covered within, Bool.or_true]
  · refine isLower_of_toNat ?_
    rw [isCode]
    omega

/-- Whether the characters of a range have capitals at some distance, or belong to no
name. -/
def haveCapitals (first last : Nat) (shift : Int) : Bool :=
  areCapitals (first + shift).toNat (last + shift).toNat ||
    (letterRanges.avoids first last && identifierStartExtras.avoids first last &&
      identifierContinueExtras.avoids first last)

/-- Whether the characters of a run have capitals or belong to no name. -/
def CaseRun.hasCapitals (run : CaseRun) : Bool :=
  haveCapitals run.first run.last run.shift ||
    (List.range ((run.last - run.first) / run.step + 1)).all fun i =>
      haveCapitals (run.first + i * run.step) (run.first + i * run.step) run.shift

private theorem hasCapitals_upperRuns : upperRuns.all CaseRun.hasCapitals = true := by
  decide +kernel

private theorem areCapitals_upperExpansions :
    (upperExpansions.all fun entry => entry.2.head?.any fun code => areCapitals code code) =
      true := by
  decide +kernel

/-- Outside every run characters stay where they are. -/
private theorem shiftOf_cases (runs : List CaseRun) (code : Nat) :
    CaseRun.shiftOf runs code = 0 ∨ ∃ run ∈ runs, CaseRun.shiftOf runs code = run.shift ∧
      run.first ≤ code ∧ code ≤ run.last ∧ (code - run.first) % run.step = 0 := by
  induction runs with
  | nil => exact .inl rfl
  | cons run runs ih =>
      rw [CaseRun.shiftOf]
      split_ifs with before within
      · exact .inl rfl
      · exact .inr ⟨run, List.mem_cons_self, rfl, by omega, within.1, within.2⟩
      · rcases ih with none | ⟨found, isFound, shifted⟩
        · exact .inl none
        · exact .inr ⟨found, List.mem_cons_of_mem _ isFound, shifted⟩

/-- A character of a name whose code lies in a range with capitals has one. -/
private theorem isCapital_of_haveCapitals {first last : Nat} {shift : Int} {c : Char}
    (capitals : haveCapitals first last shift = true) (within : first ≤ c.toNat ∧ c.toNat ≤ last)
    (continues : isIdentifierContinue c = true) :
    IsCapital (Char.ofNat (Int.ofNat c.toNat + shift).toNat) := by
  simp only [haveCapitals, Bool.or_eq_true, Bool.and_eq_true] at capitals
  rcases capitals with capitals | ⟨⟨noLetter, noStart⟩, noContinue⟩
  · refine isCapital_of_areCapitals capitals ?_
    have : Int.ofNat c.toNat = (c.toNat : Int) := rfl
    omega
  · have letter : isLetter c = false := Ranges.containsCode_of_avoids noLetter within
    have start : identifierStartExtras.contains c = false :=
      Ranges.containsCode_of_avoids noStart within
    have extra : identifierContinueExtras.contains c = false :=
      Ranges.containsCode_of_avoids noContinue within
    simp [isIdentifierContinue, isIdentifierStart, letter, start, extra] at continues

/-- The upper case of a character of a name begins with a capital. -/
theorem upperOf_eq_cons {c : Char} (continues : isIdentifierContinue c = true) :
    ∃ capital more, upperOf c = capital :: more ∧ IsCapital capital := by
  unfold upperOf mapCase
  split
  · next image found =>
    obtain ⟨before, after, isTable, -⟩ := List.lookup_eq_some_iff.mp found
    have entry : (c.toNat, image) ∈ upperExpansions := by simp [isTable]
    have capitals := List.all_eq_true.mp areCapitals_upperExpansions _ entry
    cases image with
    | nil => cases capitals
    | cons code codes =>
        exact ⟨_, _, List.map_cons,
          isCapital_of_areCapitals capitals ⟨Nat.le_refl _, Nat.le_refl _⟩⟩
  · refine ⟨_, [], rfl, ?_⟩
    rcases shiftOf_cases upperRuns c.toNat with none | ⟨run, isRun, shifted, low, high, inStep⟩
    · have same : Char.ofNat (Int.ofNat c.toNat + CaseRun.shiftOf upperRuns c.toNat).toNat = c := by
        rw [none, Int.add_zero]
        exact Char.ofNat_toNat c
      rw [same]
      refine ⟨continues, isLower_of_toNat ?_⟩
      -- the first run takes every letter of the alphabet to another one
      have alphabet : upperRuns = ⟨0x61, 0x7A, 1, -32⟩ :: upperRuns.tail := rfl
      rw [alphabet, CaseRun.shiftOf] at none
      split_ifs at none with before within
      · exact .inl before
      · cases none
      · simp only [Nat.mod_one, and_true] at within
        omega
    · rw [shifted]
      have capitals := List.all_eq_true.mp hasCapitals_upperRuns run isRun
      simp only [CaseRun.hasCapitals, Bool.or_eq_true] at capitals
      rcases capitals with capitals | each
      · exact isCapital_of_haveCapitals capitals ⟨low, high⟩ continues
      · let i := (c.toNat - run.first) / run.step
        have code : run.first + i * run.step = c.toNat := by
          rw [Nat.div_mul_cancel (Nat.dvd_of_mod_eq_zero inStep)]
          omega
        have inRange : i < (run.last - run.first) / run.step + 1 :=
          Nat.lt_succ_of_le (Nat.div_le_div_right (Nat.sub_le_sub_right high _))
        have capital := List.all_eq_true.mp each i (List.mem_range.mpr inRange)
        rw [code] at capital
        exact isCapital_of_haveCapitals capital ⟨Nat.le_refl _, Nat.le_refl _⟩ continues

/-- The upper case of a sharp s is two capitals. -/
example : upperOf 'ß' = ['S', 'S'] := by
  decide +kernel

end UpperCase

end ErrorAccessors.Unicode
