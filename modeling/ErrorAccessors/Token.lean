/-
# Tokens

The lexical vocabulary of the declaration language.  Keywords are ordinary
identifiers here, because most of them are keywords in some places only; the
parser looks at the text of an identifier where it matters.  Characters that
only ever occur inside skipped bodies are lumped together as operators.
-/

import ErrorAccessors.Source.Span

namespace ErrorAccessors

/-- The punctuation marks the parser distinguishes. -/
inductive Mark where
  | leftBrace
  | rightBrace
  | leftParen
  | rightParen
  | leftBracket
  | rightBracket
  | less
  | greater
  | comma
  | semicolon
  | colon
  | doubleColon
  | dot
  | equals
  | arrow
  | question
  | star
  | tilde
  | minus
deriving DecidableEq, Repr, Inhabited

namespace Mark

/-- The spelling of a mark. -/
def text : Mark → String
  | leftBrace => "\x7b"
  | rightBrace => "\x7d"
  | leftParen => "("
  | rightParen => ")"
  | leftBracket => "["
  | rightBracket => "]"
  | less => "<"
  | greater => ">"
  | comma => ","
  | semicolon => ";"
  | colon => ":"
  | doubleColon => "::"
  | dot => "."
  | equals => "="
  | arrow => "=>"
  | question => "?"
  | star => "*"
  | tilde => "~"
  | minus => "-"

/-- The name of a mark in messages. -/
def label : Mark → String
  | leftBrace => "LBrace"
  | rightBrace => "RBrace"
  | leftParen => "LParen"
  | rightParen => "RParen"
  | leftBracket => "LBracket"
  | rightBracket => "RBracket"
  | less => "Lt"
  | greater => "Gt"
  | comma => "Comma"
  | semicolon => "Semi"
  | colon => "Colon"
  | doubleColon => "ColonColon"
  | dot => "Dot"
  | equals => "Eq"
  | arrow => "FatArrow"
  | question => "Question"
  | star => "Star"
  | tilde => "Tilde"
  | minus => "Minus"

/-- Whether a mark opens a pair of delimiters.  Angle brackets do not count,
because they are also comparison operators. -/
def opens : Mark → Bool
  | leftBrace | leftParen | leftBracket => true
  | _ => false

/-- Whether a mark closes a pair of delimiters. -/
def closes : Mark → Bool
  | rightBrace | rightParen | rightBracket => true
  | _ => false

end Mark

/-- What a token is.  String literals carry the text they stand for, the other
literals and the faults carry their spelling. -/
inductive TokenKind where
  | ident (name : String)
  | integer (value : Int)
  | real (spelling : String)
  | string (value : String)
  | openString
  | character (spelling : String)
  | mark (mark : Mark)
  | operator
  | fault (spelling : String)
deriving DecidableEq, Repr, Inhabited

namespace TokenKind

/-- The name of an identifier. -/
def ident? : TokenKind → Option String
  | ident name => some name
  | _ => none

/-- Whether a token is an identifier. -/
def isIdent (kind : TokenKind) : Bool :=
  kind.ident?.isSome

/-- Whether a token is the identifier with a given name. -/
def isWord (kind : TokenKind) (name : String) : Bool :=
  kind.ident? == some name

/-- Whether a token opens a pair of delimiters. -/
def opens : TokenKind → Bool
  | mark m => m.opens
  | _ => false

/-- Whether a token closes a pair of delimiters. -/
def closes : TokenKind → Bool
  | mark m => m.closes
  | _ => false

/-- How a message names a token that was found. -/
def describe : TokenKind → String
  | ident name => "`" ++ name ++ "`"
  | integer value => "integer `" ++ toString value ++ "`"
  | real spelling => "number `" ++ spelling ++ "`"
  | string _ => "string literal"
  | openString => "unterminated string literal"
  | character _ => "character literal"
  | mark m => m.label
  | operator => "Punct"
  | fault spelling => "character `" ++ spelling ++ "`"

end TokenKind

/-- A token and the place where it stands. -/
structure Token where
  kind : TokenKind
  span : Span
deriving DecidableEq, Repr, Inhabited

end ErrorAccessors
