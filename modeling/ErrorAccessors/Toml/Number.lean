/-
# Numbers and dates in settings files

Numbers and dates begin alike, so all three are tried in turn: a date or time,
a number with a fraction or an exponent, and an integer.  Underscores may stand
between two digits.  Integers have to fit into 64 bits.  Each reader takes a
text and answers with the value at its front and the rest.
-/

import ErrorAccessors.Toml.Value
import ErrorAccessors.Token.Numeral

namespace ErrorAccessors.Toml

/-- The digits of a base at the front, with single underscores between them
left out. -/
def moreDigits (base : Nat) : List Char → List Char × List Char
  | '_' :: c :: rest =>
    if Numeral.isDigitOf base c then
      let (digits, later) := moreDigits base rest
      (c :: digits, later)
    else ([], '_' :: c :: rest)
  | c :: rest =>
    if Numeral.isDigitOf base c then
      let (digits, later) := moreDigits base rest
      (c :: digits, later)
    else ([], c :: rest)
  | [] => ([], [])

/-- At least one digit of a base. -/
def readDigits (base : Nat) : List Char → Option (List Char × List Char)
  | c :: rest =>
    if Numeral.isDigitOf base c then
      let (digits, later) := moreDigits base rest
      some (c :: digits, later)
    else none
  | [] => none

/-- The digits of a decimal number, which does not begin with zero unless it is
zero. -/
def readWhole : List Char → Option (List Char × List Char)
  | '0' :: rest => some (['0'], rest)
  | text => readDigits 10 text

/-- A sign, if there is one. -/
def readSign : List Char → Bool × List Char
  | '-' :: rest => (true, rest)
  | '+' :: rest => (false, rest)
  | text => (false, text)

/-- A number with a sign. -/
def signed (isNegative : Bool) (value : Nat) : Int :=
  if isNegative then -(value : Int) else value

/-- The value of an integer that fits into 64 bits. -/
def inRange (value : Int) : Option Int :=
  if -(Numeral.signBit : Int) ≤ value ∧ value < Numeral.signBit then some value else none

/-- An integer in a base other than ten, behind its mark. -/
def readBased (base : Nat) (text : List Char) : Option (TomlValue × List Char) := do
  let (digits, rest) ← readDigits base text
  let value ← inRange (Numeral.valueOf base digits)
  return (.integer value, rest)

/-- A decimal integer. -/
def readDecimal (text : List Char) : Option (TomlValue × List Char) := do
  let (isNegative, unsigned) := readSign text
  let (digits, rest) ← readWhole unsigned
  let value ← inRange (signed isNegative (Numeral.valueOf 10 digits))
  return (.integer value, rest)

/-- An integer. -/
def readInteger : List Char → Option (TomlValue × List Char)
  | '0' :: 'x' :: rest => readBased 16 rest
  | '0' :: 'o' :: rest => readBased 8 rest
  | '0' :: 'b' :: rest => readBased 2 rest
  | text => readDecimal text

/-- The digits behind a point. -/
def readFraction : List Char → Option (List Char × List Char)
  | '.' :: rest => readDigits 10 rest
  | _ => none

/-- The exponent of a number. -/
def readExponent : List Char → Option (Int × List Char)
  | c :: rest =>
    if c = 'e' ∨ c = 'E' then do
      let (isNegative, unsigned) := readSign rest
      let (digits, later) ← readDigits 10 unsigned
      return (signed isNegative (Numeral.valueOf 10 digits), later)
    else none
  | [] => none

/-- The fraction and the exponent of a number, at least one of them. -/
def readScale (text : List Char) : Option (List Char × Int × List Char) :=
  match readFraction text with
  | some (fraction, rest) =>
    match readExponent rest with
    | some (exponent, later) => some (fraction, exponent, later)
    | none => some (fraction, 0, rest)
  | none => (readExponent text).map fun (exponent, later) => ([], exponent, later)

/-- The named numbers that are not finite. -/
def readNamed : List Char → Option (Magnitude × List Char)
  | 'i' :: 'n' :: 'f' :: rest => some (.infinite, rest)
  | 'n' :: 'a' :: 'n' :: rest => some (.notANumber, rest)
  | _ => none

/-- A number with a fraction or an exponent, or a named one.  A positive number
that is too great is refused. -/
def readFloat (text : List Char) : Option (TomlValue × List Char) :=
  let (isNegative, unsigned) := readSign text
  match readNamed unsigned with
  | some (magnitude, rest) => some (.float ⟨isNegative, magnitude⟩, rest)
  | none => do
    let (whole, scale) ← readWhole unsigned
    let (fraction, exponent, rest) ← readScale scale
    let magnitude :=
      Binary64.ofDecimal (Numeral.valueOf 10 (whole ++ fraction)) (exponent - fraction.length)
    if magnitude = .infinite ∧ isNegative = false then none
    else return (.float ⟨isNegative, magnitude⟩, rest)

/-- A number of exactly so many digits. -/
def readFixed (count : Nat) (text : List Char) : Option (Nat × List Char) :=
  let digits := text.take count
  if digits.length = count ∧ digits.all (Numeral.isDigitOf 10) then
    some (Numeral.valueOf 10 digits, text.drop count)
  else none

/-- The character that has to come next. -/
def readExact (c : Char) : List Char → Option (List Char)
  | first :: rest => if first = c then some rest else none
  | [] => none

/-- The number of days of a month. -/
def daysOfMonth (year month : Nat) : Nat :=
  if month = 2 then
    if year % 4 = 0 ∧ (year % 100 ≠ 0 ∨ year % 400 = 0) then 29 else 28
  else if month = 4 ∨ month = 6 ∨ month = 9 ∨ month = 11 then 30
  else 31

/-- Pass over a date. -/
def readDate (text : List Char) : Option (List Char) := do
  let (year, rest) ← readFixed 4 text
  let (month, rest) ← readFixed 2 (← readExact '-' rest)
  let (day, rest) ← readFixed 2 (← readExact '-' rest)
  if 1 ≤ month ∧ month ≤ 12 ∧ 1 ≤ day ∧ day ≤ daysOfMonth year month then some rest else none

/-- Pass over an hour and a minute. -/
def readHourMinute (text : List Char) : Option (List Char) := do
  let (hour, rest) ← readFixed 2 text
  let (minute, rest) ← readFixed 2 (← readExact ':' rest)
  if hour ≤ 23 ∧ minute ≤ 59 then some rest else none

/-- Pass over the digits of a part of a second, if there are any. -/
def dropPartOfSecond : List Char → List Char
  | '.' :: c :: rest =>
    if Numeral.isDigitOf 10 c then rest.dropWhile (Numeral.isDigitOf 10) else '.' :: c :: rest
  | text => text

/-- Pass over a time of day. -/
def readTime (text : List Char) : Option (List Char) := do
  let rest ← readHourMinute text
  let (second, rest) ← readFixed 2 (← readExact ':' rest)
  if second ≤ 60 then some (dropPartOfSecond rest) else none

/-- Pass over the distance to universal time, if there is one. -/
def dropZone (text : List Char) : List Char :=
  match text with
  | c :: rest =>
    if c = 'Z' ∨ c = 'z' then rest
    else if c = '+' ∨ c = '-' then (readHourMinute rest).getD text
    else text
  | [] => []

/-- Pass over the time behind a date, if there is one. -/
def dropTimeOfDate (text : List Char) : List Char :=
  match text with
  | c :: rest =>
    if c = 'T' ∨ c = 't' ∨ c = ' ' then
      match readTime rest with
      | some later => dropZone later
      | none => text
    else text
  | [] => []

/-- A date, a time or both. -/
def readDateTime (text : List Char) : Option (TomlValue × List Char) :=
  match readDate text with
  | some rest => some (.time, dropTimeOfDate rest)
  | none => (readTime text).map fun rest => (.time, rest)

/-- A date or a number. -/
def readNumber (text : List Char) : Option (TomlValue × List Char) :=
  (readDateTime text).orElse fun () => (readFloat text).orElse fun () => readInteger text

end ErrorAccessors.Toml
