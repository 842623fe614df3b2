/-
# Numeric literals

The spelling of a number is the longest text that one of the literal forms
allows: hexadecimal and binary integers with a prefix, decimal integers, and
decimal reals with a fraction, an exponent or a type suffix.  Underscores
separate digits.  Only integers have a value; it is a 64-bit word, and values
from 2⁶³ on stand for the negative number with the same word.
-/

import ErrorAccessors.Token

namespace ErrorAccessors.Numeral

/-- The value of a hexadecimal digit. -/
def digitValue? (c : Char) : Option Nat :=
  if '0' ≤ c ∧ c ≤ '9' then some (c.toNat - '0'.toNat)
  else if 'a' ≤ c ∧ c ≤ 'f' then some (c.toNat - 'a'.toNat + 10)
  else if 'A' ≤ c ∧ c ≤ 'F' then some (c.toNat - 'A'.toNat + 10)
  else none

/-- Whether a character is a digit of a base. -/
def isDigitOf (base : Nat) (c : Char) : Bool :=
  match digitValue? c with
  | some value => value < base
  | none => false

/-- The number that a run of digits denotes, separators left out. -/
def valueOf (base : Nat) (digits : List Char) : Nat :=
  (digits.filterMap digitValue?).foldl (fun total digit => total * base + digit) 0

/-- The number of 64-bit words, `2 ^ 64`. -/
def wordCount : Nat := 0x10000000000000000

/-- The least word that reads as a negative number, `2 ^ 63`. -/
def signBit : Nat := 0x8000000000000000

/-- The signed reading of a 64-bit word. -/
def signedWord (value : Nat) : Int :=
  if value < signBit then value else (value : Int) - wordCount

/-- The token of an integer literal with the given digits.  A literal without
a digit and one that exceeds a word are faults. -/
def integerKind (base : Nat) (digits spelling : List Char) : TokenKind :=
  if digits.all (· = '_') then .fault (String.ofList spelling)
  else if wordCount ≤ valueOf base digits then .fault (String.ofList spelling)
  else .integer (signedWord (valueOf base digits))

/-- Digits of a base and separators at the start of a text. -/
def digitRun (base : Nat) (text : List Char) : List Char :=
  text.takeWhile fun c => isDigitOf base c || c = '_'

/-- Suffixes that mark the width or the sign of an integer. -/
def isIntegerSuffix (c : Char) : Bool :=
  c = 'u' || c = 'U' || c = 'l' || c = 'L'

/-- Suffixes that mark the type of a real number. -/
def isRealSuffix (c : Char) : Bool :=
  c = 'f' || c = 'F' || c = 'd' || c = 'D' || c = 'm' || c = 'M'

/-- An integer literal written as a lead, digits and any number of suffixes. -/
def integer (base : Nat) (lead digits rest : List Char) : TokenKind × List Char :=
  let spelling := lead ++ digits ++ rest.takeWhile isIntegerSuffix
  (integerKind base digits spelling, spelling)

/-- A hexadecimal or binary literal, if the text starts with one. -/
def prefixed? : List Char → Option (TokenKind × List Char)
  | '0' :: letter :: rest =>
    let base? : Option Nat :=
      if letter = 'x' ∨ letter = 'X' then some 16
      else if letter = 'b' ∨ letter = 'B' then some 2
      else none
    base?.bind fun base =>
      let digits := digitRun base rest
      if digits = [] then none
      else some (integer base ['0', letter] digits (rest.drop digits.length))
  | _ => none

/-- The exponent at the start of a text; empty if there is none. -/
def exponent : List Char → List Char
  | letter :: rest =>
    if letter = 'e' ∨ letter = 'E' then
      let sign := (rest.take 1).filter fun c => c = '+' || c = '-'
      let digits := (rest.drop sign.length).takeWhile (isDigitOf 10)
      if digits = [] then [] else letter :: sign ++ digits
    else []
  | [] => []

/-- The type suffix of a real number at the start of a text; empty if there is
none. -/
def realSuffix (text : List Char) : List Char :=
  (text.take 1).filter isRealSuffix

/-- What makes a decimal number real, given the text behind its first digits:
a fraction with an optional exponent and suffix, or an exponent with an
optional suffix, or a suffix.  Empty if the number is an integer. -/
def realTail (text : List Char) : List Char :=
  let fraction :=
    match text with
    | '.' :: c :: rest => if isDigitOf 10 c then '.' :: c :: digitRun 10 rest else []
    | _ => []
  let power := exponent (text.drop fraction.length)
  fraction ++ power ++ realSuffix (text.drop (fraction.length + power.length))

/-- A decimal literal at the start of a text that begins with a digit. -/
def decimal (text : List Char) : TokenKind × List Char :=
  let digits := digitRun 10 text
  let tail := realTail (text.drop digits.length)
  if tail = [] then integer 10 [] digits (text.drop digits.length)
  else (.real (String.ofList (digits ++ tail)), digits ++ tail)

/-- The literal at the start of a text that begins with a digit, with its
spelling. -/
def scan (text : List Char) : TokenKind × List Char :=
  (prefixed? text).getD (decimal text)

end ErrorAccessors.Numeral
