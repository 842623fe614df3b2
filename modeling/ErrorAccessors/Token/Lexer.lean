/-
# Splitting text into tokens

A lexeme is a stretch of text at the front of what is left to read: either
trivia (white space, comments, directive lines) or a token.  At every place the
longest lexeme is taken, and where no form fits, one character is taken as a
fault, so that reading never fails and always moves on.  Reading a whole file
is then nothing but taking lexemes until the text is used up; no end marker is
part of the token list.
-/

import ErrorAccessors.Source.File
import ErrorAccessors.Token.StringLiteral
import ErrorAccessors.Unicode.Letter
import ErrorAccessors.Unicode.Number

namespace ErrorAccessors

/-- A stretch at the front of a text: its length in characters beyond the
first, and the token it is, or none for trivia.  Counting from behind the first
character makes every lexeme non-empty. -/
structure Lexeme where
  more : Nat
  kind : Option TokenKind
deriving DecidableEq, Repr

namespace Lexeme

/-- White space between tokens. -/
def isBlank (c : Char) : Bool :=
  c = ' ' || c = '\t' || c = '\r' || c = '\n' || c = '\x0c' || c = '\uFEFF'

/-- Characters that may begin an identifier. -/
def beginsWord (c : Char) : Bool :=
  c = '_' || Unicode.isLetter c

/-- Characters that may continue an identifier. -/
def continuesWord (c : Char) : Bool :=
  c = '_' || Unicode.isLetter c || Unicode.isNumber c

/-- The token that a single character is by itself. -/
def single? (c : Char) : Option TokenKind :=
  match c with
  | '\x7b' => some (.mark .leftBrace)
  | '\x7d' => some (.mark .rightBrace)
  | '(' => some (.mark .leftParen)
  | ')' => some (.mark .rightParen)
  | '[' => some (.mark .leftBracket)
  | ']' => some (.mark .rightBracket)
  | '<' => some (.mark .less)
  | '>' => some (.mark .greater)
  | ',' => some (.mark .comma)
  | ';' => some (.mark .semicolon)
  | ':' => some (.mark .colon)
  | '.' => some (.mark .dot)
  | '=' => some (.mark .equals)
  | '?' => some (.mark .question)
  | '*' => some (.mark .star)
  | '~' => some (.mark .tilde)
  | '-' => some (.mark .minus)
  | '!' | '+' | '/' | '%' | '&' | '|' | '^' | '@' | '$' | '\\' => some .operator
  | _ => none

/-- A token of the given length beyond its first character. -/
def token (more : Nat) (kind : TokenKind) : Lexeme := ⟨more, some kind⟩

/-- Trivia of the given length beyond its first character. -/
def trivia (more : Nat) : Lexeme := ⟨more, none⟩

/-- A fault over the first character and `more` further ones. -/
def fault (c : Char) (rest : List Char) (more : Nat) : Lexeme :=
  token more (.fault (String.ofList (c :: rest.take more)))

/-- The number of characters up to the end of the line. -/
def lineLength (text : List Char) : Nat :=
  (text.takeWhile (· ≠ '\n')).length

/-- The number of characters from behind the opening of a block comment up to
and including its end, if it ends. -/
def commentLength? : List Char → Option Nat
  | [] => none
  | '*' :: '/' :: _ => some 2
  | _ :: rest => (commentLength? rest).map (· + 1)

/-- What begins with a slash: a comment or an operator. -/
def slash : List Char → Lexeme
  | '/' :: rest => trivia (1 + lineLength rest)
  | '*' :: rest =>
    match commentLength? rest with
    | some length => trivia (1 + length)
    | none => fault '/' ('*' :: rest) (1 + rest.length)
  | _ => token 0 .operator

/-- The identifier that starts with `c`. -/
def word (c : Char) (rest : List Char) : Lexeme :=
  let tail := rest.takeWhile continuesWord
  token tail.length (.ident (String.ofList (c :: tail)))

/-- A regular string literal, given the text behind its opening quote. -/
def regularString (rest : List Char) : Lexeme :=
  match StringLiteral.bodyLength rest with
  | (length, true) =>
    token (length + 1) (.string (String.ofList (StringLiteral.decode (rest.take length))))
  | (length, false) => token length .openString

/-- A string literal with an interpolation sign, given the text behind its
opening quote. -/
def interpolatedString (rest : List Char) : Lexeme :=
  match StringLiteral.bodyLength rest with
  | (length, true) =>
    token (length + 2) (.string (String.ofList (StringLiteral.decode (rest.take length))))
  | (length, false) => fault '$' ('"' :: rest) (length + 1)

/-- A verbatim string literal, given the text behind its opening quote. -/
def verbatimString (rest : List Char) : Lexeme :=
  match StringLiteral.verbatimLength? rest with
  | some length =>
    token (length + 2) (.string (String.ofList (StringLiteral.decodeVerbatim (rest.take length))))
  | none => fault '@' ('"' :: rest) (1 + rest.length)

/-- A verbatim literal with an interpolation sign, given both signs and the
text behind the opening quote.  It is a fault over the literal, since its text
is not known before it is run; one that is not closed extends to the end. -/
def interpolatedVerbatim (first second : Char) (rest : List Char) : Lexeme :=
  match StringLiteral.verbatimLength? rest with
  | some length => fault first (second :: '"' :: rest) (length + 3)
  | none => fault first (second :: '"' :: rest) (2 + rest.length)

/-- What begins with an at sign. -/
def atSign : List Char → Lexeme
  | '"' :: rest => verbatimString rest
  | '$' :: '"' :: rest => interpolatedVerbatim '@' '$' rest
  | '$' :: _ => token 1 .operator
  | c :: rest =>
    if beginsWord c then
      let tail := rest.takeWhile continuesWord
      token (1 + tail.length) (.ident (String.ofList (c :: tail)))
    else token 0 .operator
  | [] => token 0 .operator

/-- What begins with a dollar sign. -/
def dollarSign : List Char → Lexeme
  | '"' :: rest => interpolatedString rest
  | '@' :: '"' :: rest => interpolatedVerbatim '$' '@' rest
  | '@' :: _ => token 1 .operator
  | _ => token 0 .operator

/-- What begins with an apostrophe: a character literal or a fault.  Behind an
escaped character everything up to the next apostrophe belongs to the literal,
and to the fault if the line has none. -/
def apostrophe : List Char → Lexeme
  | '\\' :: c :: rest =>
    if c = '\n' then fault '\'' [] 0
    else
      let tail := rest.takeWhile fun d => d ≠ '\'' && d ≠ '\n'
      match rest.drop tail.length with
      | '\'' :: _ =>
        token (3 + tail.length) (.character (String.ofList ('\'' :: '\\' :: c :: tail ++ ['\''])))
      | _ => fault '\'' ('\\' :: c :: rest) (2 + tail.length)
  | c :: '\'' :: _ =>
    if c = '\'' ∨ c = '\\' ∨ c = '\n' then fault '\'' [] 0
    else token 2 (.character (String.ofList ['\'', c, '\'']))
  | _ => fault '\'' [] 0

/-- The lexeme at the front of a text with the first character `c`. -/
def first (c : Char) (rest : List Char) : Lexeme :=
  if isBlank c then trivia 0
  else if c = '/' then slash rest
  else if c = '#' then trivia (lineLength rest)
  else if c = '"' then regularString rest
  else if c = '@' then atSign rest
  else if c = '$' then dollarSign rest
  else if c = '\'' then apostrophe rest
  else if c = ':' ∧ rest.head? = some ':' then token 1 (.mark .doubleColon)
  else if c = '=' ∧ rest.head? = some '>' then token 1 (.mark .arrow)
  else if beginsWord c then word c rest
  else if Numeral.isDigitOf 10 c then
    let (kind, spelling) := Numeral.scan (c :: rest)
    token (spelling.length - 1) kind
  else
    match single? c with
    | some kind => token 0 kind
    | none => fault c rest 0

end Lexeme

namespace Token

/-- The tokens of the part of a file that starts at a byte offset. -/
def tokensFrom (file : SourceFile) (offset : Nat) : List Char → List Token
  | [] => []
  | c :: rest =>
    let lexeme := Lexeme.first c rest
    let stop := offset + Text.byteLength (c :: rest.take lexeme.more)
    let later := tokensFrom file stop (rest.drop lexeme.more)
    match lexeme.kind with
    | none => later
    | some kind => ⟨kind, file.span offset stop⟩ :: later
termination_by text => text.length
decreasing_by simp only [List.length_drop, List.length_cons]; omega

/-- The tokens of a file in order. -/
def tokens (file : SourceFile) : List Token :=
  tokensFrom file 0 file.text.toList

end Token

end ErrorAccessors
