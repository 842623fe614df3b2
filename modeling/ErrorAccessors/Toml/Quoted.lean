/-
# Quoted text in settings files

A text is written between double quotes with backslash escapes, or between
single quotes as it is; three quotes instead of one allow line ends inside.
Reading takes the text behind the opening quotes and answers with what is
quoted and what follows.  Writing chooses the plainest form that can hold the
text.
-/

import ErrorAccessors.Token.Numeral

namespace ErrorAccessors.Toml

/-- The character for a one-letter escape. -/
def escapedChar? (c : Char) : Option Char :=
  if c = 'b' then some '\x08'
  else if c = 't' then some '\t'
  else if c = 'n' then some '\n'
  else if c = 'f' then some '\x0c'
  else if c = 'r' then some '\r'
  else if c = '"' then some '"'
  else if c = '\\' then some '\\'
  else none

/-- The character whose code is written by hexadecimal digits. -/
def codedChar? (digits : List Char) : Option Char :=
  if digits.all (Numeral.isDigitOf 16) then
    let code := Numeral.valueOf 16 digits
    if h : code.isValidChar then some (Char.ofNatAux code h) else none
  else none

/-- The characters that may stand for themselves: all but control characters,
of which the tab is allowed. -/
def isPlain (c : Char) : Bool :=
  c == '\t' || (' ' ≤ c && c != '\x7f')

/-- Put a character in front of what was read. -/
def before (c : Char) : Option (List Char × List Char) → Option (List Char × List Char) :=
  Option.map fun (text, rest) => (c :: text, rest)

/-- Read up to a closing double quote on the same line. -/
def readBasic : List Char → Option (List Char × List Char)
  | [] => none
  | '"' :: rest => some ([], rest)
  | '\\' :: 'u' :: a :: b :: c :: d :: rest =>
    match codedChar? [a, b, c, d] with
    | some coded => before coded (readBasic rest)
    | none => none
  | '\\' :: 'U' :: a :: b :: c :: d :: e :: f :: g :: h :: rest =>
    match codedChar? [a, b, c, d, e, f, g, h] with
    | some coded => before coded (readBasic rest)
    | none => none
  | '\\' :: c :: rest =>
    match escapedChar? c with
    | some escaped => before escaped (readBasic rest)
    | none => none
  | c :: rest => if c ≠ '\\' ∧ isPlain c = true then before c (readBasic rest) else none

/-- Whether only blanks come before the end of the line. -/
def endsLine (text : List Char) : Bool :=
  match text.dropWhile fun c => c == ' ' || c == '\t' with
  | '\n' :: _ => true
  | '\r' :: '\n' :: _ => true
  | _ => false

/-- What is quoted at closing quotes: up to two more quotes belong to it. -/
def closing (quote : Char) : List Char → List Char × List Char
  | first :: second :: rest =>
    if first = quote then
      if second = quote then ([quote, quote], rest) else ([quote], second :: rest)
    else ([], first :: second :: rest)
  | [first] => if first = quote then ([quote], []) else ([], [first])
  | [] => ([], [])

/-- Read up to three closing double quotes.  A backslash at the end of a line
joins it with what follows, without the white space between; `joining` is true
while such white space is passed over. -/
def readLongBasic : Bool → List Char → Option (List Char × List Char)
  | _, [] => none
  | true, ' ' :: rest => readLongBasic true rest
  | true, '\t' :: rest => readLongBasic true rest
  | true, '\n' :: rest => readLongBasic true rest
  | true, '\r' :: '\n' :: rest => readLongBasic true rest
  | _, '"' :: '"' :: '"' :: rest => some (closing '"' rest)
  | _, '\\' :: 'u' :: a :: b :: c :: d :: rest =>
    match codedChar? [a, b, c, d] with
    | some coded => before coded (readLongBasic false rest)
    | none => none
  | _, '\\' :: 'U' :: a :: b :: c :: d :: e :: f :: g :: h :: rest =>
    match codedChar? [a, b, c, d, e, f, g, h] with
    | some coded => before coded (readLongBasic false rest)
    | none => none
  | _, '\\' :: c :: rest =>
    if endsLine (c :: rest) then readLongBasic true (c :: rest)
    else
      match escapedChar? c with
      | some escaped => before escaped (readLongBasic false rest)
      | none => none
  | _, '\r' :: '\n' :: rest => before '\n' (readLongBasic false rest)
  | _, c :: rest =>
    if c = '\n' ∨ c ≠ '\\' ∧ isPlain c = true then before c (readLongBasic false rest) else none

/-- Read up to a closing single quote on the same line. -/
def readLiteral : List Char → Option (List Char × List Char)
  | [] => none
  | '\'' :: rest => some ([], rest)
  | c :: rest => if isPlain c then before c (readLiteral rest) else none

/-- Read up to three closing single quotes. -/
def readLongLiteral : List Char → Option (List Char × List Char)
  | [] => none
  | '\'' :: '\'' :: '\'' :: rest => some (closing '\'' rest)
  | '\r' :: '\n' :: rest => before '\n' (readLongLiteral rest)
  | c :: rest =>
    if c = '\n' ∨ isPlain c = true then before c (readLongLiteral rest) else none

/-- Drop the line end right behind three opening quotes. -/
def dropLineEnd : List Char → List Char
  | '\n' :: rest => rest
  | '\r' :: '\n' :: rest => rest
  | text => text

/-- Read a quoted text of any form. -/
def readQuoted : List Char → Option (List Char × List Char)
  | '"' :: '"' :: '"' :: rest => readLongBasic false (dropLineEnd rest)
  | '"' :: rest => readBasic rest
  | '\'' :: '\'' :: '\'' :: rest => readLongLiteral (dropLineEnd rest)
  | '\'' :: rest => readLiteral rest
  | _ => none

/-- The length of the longest run of a character. -/
def longestRun (c : Char) (text : List Char) : Nat :=
  (text.foldl
    (fun (run : Nat × Nat) d => if d = c then (run.1 + 1, max run.2 (run.1 + 1)) else (0, run.2))
    (0, 0)).2

/-- Whether a text holds a character that only an escape can stand for. -/
def needsEscapes (text : List Char) : Bool :=
  text.any fun c => c != '\n' && !isPlain c

/-- The escape for a character between double quotes, if it needs one. -/
def escapeOf? (c : Char) : Option String :=
  if c = '\x08' then some "\\b"
  else if c = '\t' then some "\\t"
  else if c = '\n' then some "\\n"
  else if c = '\x0c' then some "\\f"
  else if c = '\r' then some "\\r"
  else if c = '\\' then some "\\\\"
  else if isPlain c then none
  else
    let digits := Nat.toDigits 16 c.toNat
    some ("\\u" ++
      String.ofList (List.replicate (4 - digits.length) '0' ++ digits.map Char.toUpper))

/-- The inside of a text between double quotes.  In the long form line ends
stay, and so do up to two quotes in a row. -/
def escapedFrom (isLong : Bool) : Nat → List Char → String
  | _, [] => ""
  | quotes, c :: rest =>
    if c = '"' then
      if isLong ∧ quotes < 2 then "\"" ++ escapedFrom isLong (quotes + 1) rest
      else "\\\"" ++ escapedFrom isLong 0 rest
    else if c = '\n' ∧ isLong = true then "\n" ++ escapedFrom isLong 0 rest
    else
      match escapeOf? c with
      | some escape => escape ++ escapedFrom isLong 0 rest
      | none => String.singleton c ++ escapedFrom isLong 0 rest

/-- A text between double quotes on one line. -/
def writeBasic (text : List Char) : String :=
  "\"" ++ escapedFrom false 0 text ++ "\""

/-- A text between three quotes; if it has several lines, it begins on a line
of its own. -/
def writeLong (quotes inside : String) (text : List Char) : String :=
  quotes ++ (if text.contains '\n' then "\n" else "") ++ inside ++ quotes

/-- A text in the plainest form that can hold it. -/
def writeQuoted (value : String) : String :=
  let text := value.toList
  let isLong := text.contains '\n'
  let escapes := needsEscapes text
  let doubles := longestRun '"' text
  let singles := longestRun '\'' text
  let hasBackslash := text.contains '\\'
  if !escapes ∧ !hasBackslash ∧ doubles = 0 ∧ !isLong then writeBasic text
  else if !escapes ∧ singles = 0 ∧ !isLong then "'" ++ value ++ "'"
  else if !escapes ∧ !hasBackslash ∧ doubles ≤ 2 then
    writeLong "\"\"\"" (escapedFrom true 0 text) text
  else if !escapes ∧ singles ≤ 2 then writeLong "'''" value text
  else if isLong then writeLong "\"\"\"" (escapedFrom true 0 text) text
  else writeBasic text

end ErrorAccessors.Toml
