/-
# Names derived from messages

An accessor is named after its message: the message is lower-cased and cut into
words at white space and underscores, characters that cannot stand in a name
are dropped, and the words are put together with a capital each.  A message
without usable characters gives a name made from the code, and a name that
would begin with a digit gets an underscore in front.
-/

import ErrorAccessors.Text.Split
import ErrorAccessors.Unicode.Identifier
import ErrorAccessors.Unicode.Lowercase
import ErrorAccessors.Unicode.Space

namespace ErrorAccessors.AccessorName

/-- The characters between the words of a message. -/
def separatesWords (c : Char) : Bool :=
  Unicode.isSpace c || c == '_'

/-- A word with its first character in upper case. -/
def capitalized : List Char → List Char
  | [] => []
  | c :: rest => (Unicode.upperOf c).filter Unicode.isIdentifierContinue ++ rest

/-- The usable characters of a lower-cased message, a capital at every word. -/
def ofLowercase (message : List Char) : List Char :=
  (Text.splitAt separatesWords message).flatMap fun word =>
    capitalized (word.filter Unicode.isIdentifierContinue)

/-- A name that begins as names have to. -/
def withValidStart : List Char → List Char
  | [] => []
  | c :: rest => if Unicode.isIdentifierStart c then c :: rest else '_' :: c :: rest

/-- The name of the accessor for a message and its code. -/
def ofMessage (message : String) (code : Int) : String :=
  match ofLowercase (Unicode.lowercase message.toList) with
  | [] => "Error" ++ toString code.natAbs
  | c :: rest => String.ofList (withValidStart (c :: rest))

/-- Whether a text can stand as a name without escaping. -/
def isIdentifier (name : String) : Bool :=
  match name.toList with
  | [] => false
  | c :: rest => (c == '_' || Unicode.isIdentifierStart c) && rest.all Unicode.isIdentifierContinue

end ErrorAccessors.AccessorName
