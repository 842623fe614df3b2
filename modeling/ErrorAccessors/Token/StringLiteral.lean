/-
# String literals

A regular string literal stands between double quotes on one line and uses
backslash escapes; a verbatim literal keeps everything but writes a quote
twice.  `encode` writes a text as a regular literal, `decode` resolves the
escapes of the body of one.  Decoding never fails: an escape that means nothing
stands for itself.
-/

import ErrorAccessors.Token.Numeral

namespace ErrorAccessors.StringLiteral

/-- The character for a one-letter escape.  Letters without a meaning of their
own stand for themselves. -/
def escapeValue (c : Char) : Char :=
  if c = 'n' then '\n'
  else if c = 't' then '\t'
  else if c = 'r' then '\r'
  else if c = '0' then '\x00'
  else if c = 'a' then '\x07'
  else if c = 'b' then '\x08'
  else if c = 'f' then '\x0c'
  else if c = 'v' then '\x0b'
  else c

/-- The number written by hexadecimal digits, which a plus sign may precede. -/
def hexNumber? (text : List Char) : Option Nat :=
  let digits := match text with
    | '+' :: rest => rest
    | _ => text
  if digits ≠ [] ∧ digits.all (Numeral.isDigitOf 16) then some (Numeral.valueOf 16 digits)
  else none

/-- The character with a given code, unless the code is no character's. -/
def charOfCode? (code : Nat) : Option Char :=
  if h : code.isValidChar then some (Char.ofNatAux code h) else none

/-- What a `\u` escape with the given digits stands for.  Digits that name no
character leave the escape as it is. -/
def unicodeEscape (digits : List Char) : List Char :=
  match (hexNumber? digits).bind charOfCode? with
  | some c => [c]
  | none => '\\' :: 'u' :: digits

/-- Resolve the escapes in the body of a regular string literal. -/
def decode : List Char → List Char
  | [] => []
  | '\\' :: [] => ['\\']
  | '\\' :: 'u' :: a :: b :: c :: d :: rest => unicodeEscape [a, b, c, d] ++ decode rest
  | '\\' :: 'u' :: digits => unicodeEscape digits
  | '\\' :: c :: rest => escapeValue c :: decode rest
  | c :: rest => c :: decode rest

/-- Resolve the doubled quotes in the body of a verbatim string literal. -/
def decodeVerbatim : List Char → List Char
  | [] => []
  | '"' :: '"' :: rest => '"' :: decodeVerbatim rest
  | c :: rest => c :: decodeVerbatim rest

/-- Whether a character is a control character. -/
def isControl (c : Char) : Bool :=
  c.toNat < 0x20 || (0x7f ≤ c.toNat && c.toNat < 0xa0)

/-- One lower-case hexadecimal digit. -/
def hexDigit (value : Nat) : Char :=
  if value < 10 then Char.ofNat ('0'.toNat + value) else Char.ofNat ('a'.toNat + (value - 10))

/-- The four lower-case hexadecimal digits of a code below 2¹⁶. -/
def hexDigits (code : Nat) : List Char :=
  [hexDigit (code / 4096 % 16), hexDigit (code / 256 % 16), hexDigit (code / 16 % 16),
    hexDigit (code % 16)]

/-- The spelling of a character inside a regular string literal. -/
def encodeChar (c : Char) : List Char :=
  if c = '"' then ['\\', '"']
  else if c = '\\' then ['\\', '\\']
  else if c = '\n' then ['\\', 'n']
  else if c = '\r' then ['\\', 'r']
  else if c = '\t' then ['\\', 't']
  else if c = '\x00' then ['\\', '0']
  else if isControl c then '\\' :: 'u' :: hexDigits c.toNat
  else [c]

/-- The spelling of a text between the quotes of a regular string literal. -/
def encodeBody (text : List Char) : List Char :=
  text.flatMap encodeChar

/-- A text as a regular string literal. -/
def encode (text : String) : String :=
  String.ofList ('"' :: encodeBody text.toList ++ ['"'])

/-- The number of characters from behind an opening quote up to where a regular
literal ends, and whether a closing quote stands there.  A literal that is not
closed ends before a line feed and before a backslash that escapes nothing. -/
def bodyLength : List Char → Nat × Bool
  | [] => (0, false)
  | '"' :: _ => (0, true)
  | '\n' :: _ => (0, false)
  | '\\' :: '\n' :: _ => (0, false)
  | '\\' :: [] => (0, false)
  | '\\' :: _ :: rest =>
    let (length, closed) := bodyLength rest
    (length + 2, closed)
  | _ :: rest =>
    let (length, closed) := bodyLength rest
    (length + 1, closed)

/-- The number of characters from behind an opening quote up to the closing
quote of a verbatim literal, if it is closed. -/
def verbatimLength? : List Char → Option Nat
  | [] => none
  | '"' :: '"' :: rest => (verbatimLength? rest).map (· + 2)
  | '"' :: _ => some 0
  | _ :: rest => (verbatimLength? rest).map (· + 1)

end ErrorAccessors.StringLiteral
