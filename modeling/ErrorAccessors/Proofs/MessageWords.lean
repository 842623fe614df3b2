/-
# Names depend on words only

A message is a row of words with white space and underscores between them, and maybe in
front of them and behind them.  The name of its accessor is made from the words, and it
does not matter how they are kept apart.

The lower case of a character may depend on the characters around it, even on those
behind the next ones, because a sigma has another form at the end of a word.  But what
keeps words apart is neither a letter with a case nor one of the characters that are
passed over when one looks for such a letter, so that the words do not see each other.
-/

import ErrorAccessors.Proofs.CharacterRanges
import Mathlib.Data.List.TakeWhile

namespace ErrorAccessors

open Unicode

namespace AccessorName

/-- A text that consists of some words, in their order.  Each word reaches as far as it
can; around the words, and nowhere else, stand the characters that separate words. -/
inductive HasWords : List (List Char) → List Char → Prop
  | blank {gap : List Char} (separate : ∀ c ∈ gap, separatesWords c = true) : HasWords [] gap
  | word {gap word rest : List Char} {words : List (List Char)}
      (separate : ∀ c ∈ gap, separatesWords c = true) (nonempty : word ≠ [])
      (together : ∀ c ∈ word, separatesWords c = false)
      (ends : ∀ c ∈ rest.head?, separatesWords c = true) (behind : HasWords words rest) :
      HasWords (word :: words) (gap ++ word ++ rest)

/-- Every text consists of some words. -/
theorem exists_hasWords (text : List Char) : ∃ words, HasWords words text := by
  induction length : text.length using Nat.strongRecOn generalizing text with
  | ind size ih =>
  let gap := text.takeWhile separatesWords
  let word := (text.dropWhile separatesWords).takeWhile fun c => !separatesWords c
  let rest := (text.dropWhile separatesWords).dropWhile fun c => !separatesWords c
  have parts : gap ++ (word ++ rest) = text := by
    rw [List.takeWhile_append_dropWhile, List.takeWhile_append_dropWhile]
  have separate : ∀ c ∈ gap, separatesWords c = true := fun c => List.mem_takeWhile_imp
  have together : ∀ c ∈ word, separatesWords c = false := fun c member => by
    simpa using List.mem_takeWhile_imp member
  by_cases nonempty : word = []
  · -- nothing but separators is left
    have ended : text.dropWhile separatesWords = [] := by
      cases behind : text.dropWhile separatesWords with
      | nil => rfl
      | cons c others =>
          have stops := List.head?_dropWhile_not separatesWords text
          rw [behind, List.head?_cons] at stops
          simp [word, behind, stops] at nonempty
    have isGap : text = gap := by rw [← parts, nonempty]; simp [rest, ended]
    exact ⟨[], isGap ▸ .blank separate⟩
  · have shorter : rest.length < size := by
      have whole := congrArg List.length parts
      have some := List.length_pos_iff.mpr nonempty
      simp only [List.length_append] at whole
      omega
    obtain ⟨words, behind⟩ := ih rest.length shorter rest rfl
    have ends : ∀ c ∈ rest.head?, separatesWords c = true := by
      intro c isHead
      have stops := List.head?_dropWhile_not (fun c => !separatesWords c)
        (text.dropWhile separatesWords)
      rw [show ((text.dropWhile separatesWords).dropWhile fun c => !separatesWords c).head? =
        some c from isHead] at stops
      simpa using stops
    refine ⟨word :: words, ?_⟩
    rw [← parts, ← List.append_assoc]
    exact .word separate nonempty together ends behind

section Separators

/-- What separates words has no case, is not passed over where a case is looked for, and
is its own lower case. -/
private theorem caseless_separators :
    (((0x5F, 0x5F) :: spaceRanges).all fun range =>
      (List.range' range.1 (range.2 + 1 - range.1)).all fun code =>
        lowerOf (Char.ofNat code) == [Char.ofNat code] && code != 'Σ'.toNat &&
          !casedRanges.containsCode code && !caseIgnorableRanges.containsCode code) = true := by
  decide +kernel

variable {c : Char}

private theorem exists_range_of_separatesWords (separates : separatesWords c = true) :
    ∃ range ∈ (0x5F, 0x5F) :: spaceRanges, range.1 ≤ c.toNat ∧ c.toNat ≤ range.2 := by
  rw [separatesWords, Bool.or_eq_true, beq_iff_eq] at separates
  rcases separates with space | rfl
  · obtain ⟨range, isRange, within⟩ := Ranges.mem_of_containsCode space
    exact ⟨range, List.mem_cons_of_mem _ isRange, within⟩
  · exact ⟨_, List.mem_cons_self, by decide, by decide⟩

private theorem caseless_of_separatesWords (separates : separatesWords c = true) :
    (lowerOf c = [c] ∧ c ≠ 'Σ') ∧
      casedRanges.contains c = false ∧ caseIgnorableRanges.contains c = false := by
  obtain ⟨range, isRange, least, most⟩ := exists_range_of_separatesWords separates
  have known := List.all_eq_true.mp (List.all_eq_true.mp caseless_separators range isRange)
    c.toNat (List.mem_range'_1.mpr ⟨least, by omega⟩)
  simp only [Bool.and_eq_true, beq_iff_eq, bne_iff_ne, Bool.not_eq_true', Char.ofNat_toNat] at known
  obtain ⟨⟨⟨lower, noSigma⟩, noCase⟩, notIgnored⟩ := known
  exact ⟨⟨lower, fun isSigma => noSigma (congrArg Char.toNat isSigma)⟩, noCase, notIgnored⟩

/-- An em space separates words and is its own lower case. -/
example : separatesWords '\u2003' = true ∧ lowerOf '\u2003' = ['\u2003'] := by
  decide +kernel

end Separators

section LowerCase

variable {text rest outer : List Char}

/-- A separator ends the search for a letter with a case. -/
private theorem nextIsCased_append (ends : ∀ c ∈ rest.head?, separatesWords c = true) :
    nextIsCased (text ++ rest) = nextIsCased text := by
  induction text with
  | nil =>
      cases rest with
      | nil => rfl
      | cons c rest =>
          obtain ⟨-, noCase, notIgnored⟩ := caseless_of_separatesWords (ends c rfl)
          rw [List.nil_append, nextIsCased, List.dropWhile_cons_of_neg (by simp [notIgnored])]
          exact noCase
  | cons c text ih =>
      rw [nextIsCased, nextIsCased] at *
      by_cases ignored : caseIgnorableRanges.contains c = true
      · rw [List.cons_append, List.dropWhile_cons_of_pos ignored, ih,
          List.dropWhile_cons_of_pos ignored]
      · rw [List.cons_append, List.dropWhile_cons_of_neg ignored,
          List.dropWhile_cons_of_neg ignored]

/-- The lower case of a stretch does not depend on what stands beyond the separators
around it. -/
private theorem lowercaseAfter_append (inner : List Char)
    (begins : ∀ c ∈ outer.head?, separatesWords c = true)
    (ends : ∀ c ∈ rest.head?, separatesWords c = true) :
    lowercaseAfter (inner ++ outer) (text ++ rest) =
      lowercaseAfter inner text ++ lowercaseAfter (text.reverse ++ inner ++ outer) rest := by
  induction text generalizing inner with
  | nil => rfl
  | cons c text ih =>
      have later := ih (c :: inner)
      rw [List.cons_append] at later
      rw [List.cons_append, lowercaseAfter, lowercaseAfter, nextIsCased_append begins,
        nextIsCased_append ends, later, List.reverse_cons, List.append_assoc, List.append_assoc,
        List.append_assoc, List.append_assoc, List.singleton_append, List.cons_append]

/-- Behind a separator a new text begins. -/
private theorem lowercaseAfter_of_begins (text : List Char)
    (begins : ∀ c ∈ outer.head?, separatesWords c = true) :
    lowercaseAfter outer text = lowercase text := by
  have alone := @lowercaseAfter_append text [] outer [] begins nofun
  rw [List.nil_append, List.append_nil] at alone
  rw [alone, lowercaseAfter, List.append_nil, lowercase]

private theorem lowercaseAfter_separator {c : Char} (separates : separatesWords c = true)
    (before rest : List Char) :
    lowercaseAfter before (c :: rest) = c :: lowercase rest := by
  obtain ⟨⟨lower, noSigma⟩, -⟩ := caseless_of_separatesWords separates
  have begins : ∀ d ∈ (c :: before).head?, separatesWords d = true :=
    fun d isHead => Option.some.inj isHead ▸ separates
  rw [lowercaseAfter, if_neg noSigma, lower, lowercaseAfter_of_begins rest begins,
    List.singleton_append]

/-- A word is lowered by itself, and so is what stands behind it. -/
private theorem lowercase_word (word : List Char)
    (ends : ∀ c ∈ rest.head?, separatesWords c = true) :
    lowercase (word ++ rest) = lowercase word ++ lowercase rest := by
  have parts := @lowercaseAfter_append word rest [] [] nofun ends
  rw [List.append_nil, List.append_nil] at parts
  rw [lowercase, parts]
  cases rest with
  | nil => rfl
  | cons c rest =>
      have separates := ends c rfl
      rw [lowercase, lowercase, lowercaseAfter_separator separates,
        lowercaseAfter_separator separates]

/-- Separators are left as they are. -/
private theorem lowercase_gap {gap : List Char} (separate : ∀ c ∈ gap, separatesWords c = true)
    (rest : List Char) : lowercase (gap ++ rest) = gap ++ lowercase rest := by
  induction gap with
  | nil => rfl
  | cons c gap ih =>
      obtain ⟨separates, later⟩ := List.forall_mem_cons.mp separate
      rw [List.cons_append, lowercase, lowercaseAfter_separator separates, ih later,
        List.cons_append]

end LowerCase

section Names

variable {rest : List Char}

private theorem ofLowercase_nil : ofLowercase [] = [] := rfl

/-- Around a separator a name is put together from what both sides give. -/
private theorem ofLowercase_append_cons {c : Char} (separates : separatesWords c = true)
    (front rest : List Char) :
    ofLowercase (front ++ c :: rest) = ofLowercase front ++ ofLowercase rest := by
  rw [ofLowercase, Text.splitAt_append_of_separates separates, List.flatMap_append]
  rfl

/-- Separators in front of a text add nothing to its name. -/
private theorem ofLowercase_gap {gap : List Char} (separate : ∀ c ∈ gap, separatesWords c = true)
    (rest : List Char) : ofLowercase (gap ++ rest) = ofLowercase rest := by
  induction gap with
  | nil => rfl
  | cons c gap ih =>
      obtain ⟨separates, later⟩ := List.forall_mem_cons.mp separate
      have behind := ofLowercase_append_cons separates [] (gap ++ rest)
      rw [List.nil_append, ofLowercase_nil, List.nil_append] at behind
      rw [List.cons_append, behind, ih later]

private theorem ofLowercase_word (word : List Char)
    (ends : ∀ c ∈ rest.head?, separatesWords c = true) :
    ofLowercase (word ++ rest) = ofLowercase word ++ ofLowercase rest := by
  cases rest with
  | nil => rw [List.append_nil, ofLowercase_nil, List.append_nil]
  | cons c rest =>
      have separates := ends c rfl
      have behind := ofLowercase_append_cons separates [] rest
      rw [List.nil_append, ofLowercase_nil, List.nil_append] at behind
      rw [ofLowercase_append_cons separates, behind]

/-- The lower case of a text begins with a separator where the text does. -/
private theorem head?_lowercase (ends : ∀ c ∈ rest.head?, separatesWords c = true) :
    ∀ c ∈ (lowercase rest).head?, separatesWords c = true := by
  cases rest with
  | nil => nofun
  | cons c rest =>
      have separates := ends c rfl
      rw [lowercase, lowercaseAfter_separator separates]
      exact fun d isHead => Option.some.inj isHead ▸ separates

/-- What a message gives for its name is what each of its words gives. -/
theorem HasWords.ofLowercase_eq {words : List (List Char)} {text : List Char}
    (hasWords : HasWords words text) :
    ofLowercase (lowercase text) = words.flatMap fun word => ofLowercase (lowercase word) := by
  induction hasWords with
  | @blank gap separate =>
      have lower := lowercase_gap separate []
      have nothing := ofLowercase_gap separate []
      rw [List.append_nil] at lower nothing
      rw [lower, show lowercase [] = [] from rfl, List.append_nil, nothing]
      rfl
  | @word gap word rest words separate _ _ ends _ ih =>
      rw [List.append_assoc, lowercase_gap separate, ofLowercase_gap separate,
        lowercase_word word ends, ofLowercase_word _ (head?_lowercase ends), ih,
        List.flatMap_cons]

end Names

/-- Messages with the same words have the same name, however the words are kept apart. -/
theorem ofMessage_eq_of_words {words : List (List Char)} {first second : String}
    (hasFirst : HasWords words first.toList) (hasSecond : HasWords words second.toList)
    (code : Int) : ofMessage first code = ofMessage second code := by
  rw [ofMessage, ofMessage, hasFirst.ofLowercase_eq, hasSecond.ofLowercase_eq]

/-- A text is cut behind its first word, with the conditions as tests. -/
private theorem HasWords.cut (gap word rest : List Char) {words : List (List Char)}
    (tested : (gap.all separatesWords && word.all (!separatesWords ·) &&
      rest.head?.all separatesWords) = true)
    (nonempty : word ≠ []) (behind : HasWords words rest) :
    HasWords (word :: words) (gap ++ word ++ rest) := by
  simp only [Bool.and_eq_true, List.all_eq_true, Bool.not_eq_true', Option.all_eq_true] at tested
  obtain ⟨⟨separate, together⟩, ends⟩ := tested
  exact .word separate nonempty together ends behind

/-- The final sigma of the first word stays final, whatever stands behind the word, and
the lonely one of the second word stays what it is. -/
theorem ofMessage_eq_of_sigmas :
    (HasWords [['Ο', 'Σ'], ['Σ']] "ΟΣ Σ".toList ∧
      HasWords [['Ο', 'Σ'], ['Σ']] "\t_ΟΣ__\u2003Σ\n".toList) ∧
      ofMessage "ΟΣ Σ" 1 = ofMessage "\t_ΟΣ__\u2003Σ\n" 1 := by
  have lineEnd : ['\n'].all separatesWords = true := by decide +kernel
  have spaced : HasWords [['Ο', 'Σ'], ['Σ']] "ΟΣ Σ".toList :=
    .cut [] ['Ο', 'Σ'] [' ', 'Σ'] (by decide +kernel) nofun
      (.cut [' '] ['Σ'] [] (by decide +kernel) nofun (.blank nofun))
  have mixed : HasWords [['Ο', 'Σ'], ['Σ']] "\t_ΟΣ__\u2003Σ\n".toList :=
    .cut ['\t', '_'] ['Ο', 'Σ'] ['_', '_', '\u2003', 'Σ', '\n'] (by decide +kernel) nofun
      (.cut ['_', '_', '\u2003'] ['Σ'] ['\n'] (by decide +kernel) nofun
        (.blank (List.all_eq_true.mp lineEnd)))
  exact ⟨⟨spaced, mixed⟩, ofMessage_eq_of_words spaced mixed 1⟩

end AccessorName

end ErrorAccessors
