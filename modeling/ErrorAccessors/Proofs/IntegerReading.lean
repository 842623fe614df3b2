/-
# What an integer literal is read as

An integer literal is one token: the integer of its number, taken as a signed machine
word, or a fault if it is too large or has no digit.  This is so where it is a text of
its own, and in front of anything that does not continue it.

A minus sign is a token of its own, so that the least integer is written with the
number of a word that reads as negative already.  Negation takes it to itself: up to
that number, an argument with a minus sign is the negative of the number.
-/

import ErrorAccessors.Proofs.PassingAttributes
import ErrorAccessors.Proofs.SpacedTokens

namespace ErrorAccessors

open ErrorAccessors.Parser

namespace Numeral.IntegerLiteral

variable (literal : IntegerLiteral)

/-- A literal that is a text of its own is its only token. -/
private theorem stream_text (path : String) :
    Token.stream (.ofText path literal.text) =
      [(some literal.kind, (SourceFile.ofText path literal.text).span 0 literal.text.utf8ByteSize),
        (none, (SourceFile.ofText path literal.text).span literal.text.utf8ByteSize
          literal.text.utf8ByteSize)] := by
  obtain ⟨c, more, spelling⟩ := literal.exists_spelling
  have isText : literal.text.toList = c :: more := by rw [text, String.toList_ofList, spelling]
  have read : Lexeme.first c (more ++ []) = _ := Lexeme.first_of_literal literal spelling (by simp)
  rw [List.append_nil] at read
  exact Token.stream_of_single isText read path

/-- The negative of a number within the sign bit, from the word that the number is. -/
theorem negateWord_signedWord {number : Nat} (within : number ≤ signBit) :
    negateWord (signedWord number) = -(number : Int) := by
  have words : (wordCount : Int) = 2 * signBit := rfl
  rw [negateWord, signedWord]
  by_cases less : number < signBit
  · rw [if_pos less]
    exact Int.bmod_eq_of_le (by omega) (by omega)
  · obtain rfl : number = signBit := Nat.le_antisymm within (Nat.not_lt.mp less)
    decide

/-- A literal is read as its number, and as the negative of it behind a minus sign. -/
theorem read_as_number :
    (∀ path, Token.stream (.ofText path literal.text) =
      [(some literal.kind, (SourceFile.ofText path literal.text).span 0 literal.text.utf8ByteSize),
        (none, (SourceFile.ofText path literal.text).span literal.text.utf8ByteSize
          literal.text.utf8ByteSize)]) ∧
    (∀ c text kinds, Ends c → Writes (c :: text) kinds →
      Writes (literal.spelling ++ c :: text) (literal.kind :: kinds) ∧
      Writes ('-' :: (literal.spelling ++ c :: text)) (.mark .minus :: literal.kind :: kinds)) ∧
    ∀ number, literal.number? = some number → number ≤ 2 ^ 63 →
      ∀ names name, NamesArgument names name →
        Passes attributeArgument EndsArgument (names ++ [.mark .minus, literal.kind])
          fun argument => argument.unplaced = ⟨.nowhere, name, .int (-number)⟩ := by
  refine ⟨literal.stream_text, fun c text kinds ends writes => ?_, ?_⟩
  · have written := writes.behind_integer literal ends
    exact ⟨written, written.behind_mark rfl (by decide)⟩
  · intro number denotes within names name naming
    have isLiteral : literal? [.mark .minus, literal.kind] = some (.int (-number)) := by
      have fits : ¬wordCount ≤ number := Nat.not_le.mpr (Nat.lt_of_le_of_lt within (by decide))
      rw [literal.kind_of_number denotes, if_neg fits]
      exact congrArg (some <| AttributeValue.int ·) (negateWord_signedWord within)
    exact passes_attributeArgument naming isLiteral

/-- The literal `0x8000_0000_0000_0000UL`. -/
def leastWord : IntegerLiteral where
  form := .hexadecimal false
  digits := "8000_0000_0000_0000".toList
  suffixes := ['U', 'L']
  nonempty := by decide
  areDigits := by
    have tested : "8000_0000_0000_0000".toList.all (fun c => c = '_' || isDigitOf 16 c) = true := by
      decide +kernel
    intro c member
    have isDigit : c = '_' ∨ isDigitOf 16 c = true := by
      simpa using List.all_eq_true.mp tested c member
    exact isDigit
  begins := nofun
  areSuffixes := by simp

/-- The number of the least word, which is negative by itself and is its own negative. -/
theorem read_as_number_of_least :
    leastWord.text = "0x8000_0000_0000_0000UL" ∧
      (∀ path, (Token.stream (.ofText path leastWord.text)).map Prod.fst =
        [some (.integer (-2 ^ 63)), none]) ∧
      Writes "-0x8000_0000_0000_0000UL)".toList
        [.mark .minus, .integer (-2 ^ 63), .mark .rightParen] ∧
      Passes attributeArgument EndsArgument
        [.ident "Code", .mark .equals, .mark .minus, .integer (-2 ^ 63)]
        fun argument => argument.unplaced = ⟨.nowhere, some "Code", .int (-2 ^ 63)⟩ := by
  have isKind : leastWord.kind = .integer (-2 ^ 63) := by decide +kernel
  obtain ⟨alone, inside, negated⟩ := leastWord.read_as_number
  rw [isKind] at inside negated
  have closing : Writes [')'] [.mark .rightParen] := .mark rfl (by decide)
  refine ⟨by decide +kernel, fun path => ?_, (inside _ _ _ ⟨by decide, by decide⟩ closing).2,
    negated (2 ^ 63) (by decide +kernel) (by decide) _ _ (.named (.inr rfl))⟩
  rw [alone, isKind]
  rfl

end Numeral.IntegerLiteral

end ErrorAccessors
