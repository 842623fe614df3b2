/-
# White space

The property `White_Space` of Unicode, used to split messages into words and to
trim text.  The lexer of the source language has a smaller set of its own.
-/

import ErrorAccessors.Unicode.Ranges

namespace ErrorAccessors.Unicode

/-- The code points with the property `White_Space`. -/
def spaceRanges : Ranges :=
  [(0x9, 0xD), (0x20, 0x20), (0x85, 0x85), (0xA0, 0xA0), (0x1680, 0x1680), (0x2000, 0x200A),
   (0x2028, 0x2029), (0x202F, 0x202F), (0x205F, 0x205F), (0x3000, 0x3000)]

/-- Whether a character is white space in any script. -/
def isSpace (c : Char) : Bool :=
  spaceRanges.contains c

/-- Remove white space from the start of a text. -/
def trimLeft (text : List Char) : List Char :=
  text.dropWhile isSpace

/-- Remove white space from the end of a text. -/
def trimRight (text : List Char) : List Char :=
  (text.reverse.dropWhile isSpace).reverse

/-- Remove white space from both ends of a text. -/
def trim (text : List Char) : List Char :=
  trimRight (trimLeft text)

/-- Whether a text holds nothing but white space. -/
def isBlank (text : String) : Bool :=
  text.toList.all isSpace

end ErrorAccessors.Unicode
