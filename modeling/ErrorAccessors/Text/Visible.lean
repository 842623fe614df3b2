/-
# Quoting text in messages

A text that is quoted in a message stands between double quotes, and everything
that would not show by itself is written by an escape.
-/

import ErrorAccessors.Unicode.Printable

namespace ErrorAccessors.Text

/-- A character as it is shown in a quoted text. -/
def visible (c : Char) : String :=
  if c = '\x00' then "\\0"
  else if c = '\t' then "\\t"
  else if c = '\n' then "\\n"
  else if c = '\r' then "\\r"
  else if c = '"' then "\\\""
  else if c = '\\' then "\\\\"
  else if Unicode.isPrintable c then String.singleton c
  else "\\u\x7b" ++ String.ofList (Nat.toDigits 16 c.toNat) ++ "\x7d"

/-- A text between quotes with everything visible. -/
def quoteVisible (text : String) : String :=
  "\"" ++ String.join (text.toList.map visible) ++ "\""

end ErrorAccessors.Text
