/-
# Verbatim literals

Between the quotes of a verbatim literal every character stands for itself, and only a
quote has to be doubled, whatever else there is: line feeds, backslashes, runs of
quotes.  The literal ends with the first quote that has no partner.

The sign in front of the opening quote decides what becomes of the literal.  With an
at sign alone it is a string token for its text.  If a dollar sign stands beside the
at sign, on either side, the literal is found in the same way, with the same end,
but it is one fault over its whole spelling and its text is not kept.
-/

import ErrorAccessors.Proofs.SpacedTokens

namespace ErrorAccessors

namespace StringLiteral

/-- A text with each quote in it doubled. -/
def doubled (text : List Char) : List Char :=
  text.flatMap fun c => if c = '"' then ['"', '"'] else [c]

@[simp] theorem doubled_nil : doubled [] = [] := rfl

@[simp] theorem doubled_quote (text : List Char) :
    doubled ('"' :: text) = '"' :: '"' :: doubled text := rfl

theorem doubled_cons {c : Char} (noQuote : c ≠ '"') (text : List Char) :
    doubled (c :: text) = c :: doubled text := by
  rw [doubled, List.flatMap_cons, if_neg noQuote, List.singleton_append, doubled]

/-- In front of anything but another quote, a quote ends the literal, and no quote of
the text ends it before. -/
theorem verbatimLength?_doubled (text : List Char) {rest : List Char}
    (ends : rest.head? ≠ some '"') :
    verbatimLength? (doubled text ++ '"' :: rest) = some (doubled text).length := by
  induction text with
  | nil =>
      cases rest with
      | nil => rfl
      | cons d rest =>
          rw [doubled_nil, List.nil_append, verbatimLength?]
          · rfl
          · intro others isRest
            exact ends (by rw [isRest, List.head?_cons])
  | cons c text ih =>
      by_cases isQuote : c = '"'
      · subst isQuote
        rw [doubled_quote, List.cons_append, List.cons_append, verbatimLength?, ih]
        rfl
      · rw [doubled_cons isQuote, List.cons_append, verbatimLength?, ih]
        · rfl
        · exact fun _ quote _ => isQuote quote
        · exact isQuote

/-- Taking the doubled quotes together gives the text back. -/
theorem decodeVerbatim_doubled (text : List Char) : decodeVerbatim (doubled text) = text := by
  induction text with
  | nil => rfl
  | cons c text ih =>
      by_cases isQuote : c = '"'
      · subst isQuote
        rw [doubled_quote, decodeVerbatim, ih]
      · rw [doubled_cons isQuote, decodeVerbatim, ih]
        exact fun _ quote _ => isQuote quote

/-- What can stand in front of the opening quote of a verbatim literal: an at sign, with
a dollar sign in front of it or behind it if the literal is to be interpolated. -/
inductive VerbatimSign where
  | plain
  | dollarAt
  | atDollar
deriving DecidableEq, Repr

namespace VerbatimSign

/-- How a sign is written. -/
def text : VerbatimSign → String
  | plain => "@"
  | dollarAt => "$@"
  | atDollar => "@$"

/-- The verbatim literal for a text. -/
def literal (sign : VerbatimSign) (value : String) : String :=
  sign.text ++ String.ofList ('"' :: doubled value.toList ++ ['"'])

/-- The token that is made of a verbatim literal. -/
def kind (sign : VerbatimSign) (value : String) : TokenKind :=
  match sign with
  | plain => .string value
  | dollarAt | atDollar => .fault (sign.literal value)

end VerbatimSign

end StringLiteral

namespace Lexeme

open StringLiteral

/-- What stands behind the opening quote of a verbatim literal, up to its end. -/
private theorem closed_of_doubled (text : List Char) :
    verbatimLength? (doubled text ++ ['"']) = some (doubled text).length :=
  verbatimLength?_doubled text nofun

theorem verbatimString_doubled (text : List Char) :
    verbatimString (doubled text ++ ['"']) =
      token ('"' :: (doubled text ++ ['"'])).length (.string (String.ofList text)) := by
  rw [verbatimString, closed_of_doubled]
  simp only [List.take_left, decodeVerbatim_doubled, List.length_cons, List.length_append,
    List.length_nil]

theorem interpolatedVerbatim_doubled (first second : Char) (text : List Char) :
    interpolatedVerbatim first second (doubled text ++ ['"']) =
      token (second :: '"' :: (doubled text ++ ['"'])).length
        (.fault (String.ofList (first :: second :: '"' :: (doubled text ++ ['"'])))) := by
  have whole : (doubled text).length + 3 = (second :: '"' :: (doubled text ++ ['"'])).length := by
    simp only [List.length_cons, List.length_append, List.length_nil]
  rw [interpolatedVerbatim, closed_of_doubled]
  simp only [fault]
  rw [whole, List.take_length]

end Lexeme

/-- A verbatim literal is one token over the whole file, whatever its text is.  It is the
text itself behind an at sign, and a fault over the literal if there is a dollar sign. -/
theorem Token.stream_of_verbatim (sign : StringLiteral.VerbatimSign) (value path : String) :
    stream (.ofText path (sign.literal value)) =
      [(some (sign.kind value), (SourceFile.ofText path (sign.literal value)).span 0
          (sign.literal value).utf8ByteSize),
        (none, (SourceFile.ofText path (sign.literal value)).span
          (sign.literal value).utf8ByteSize (sign.literal value).utf8ByteSize)] := by
  have isText : (sign.literal value).toList =
      sign.text.toList ++ '"' :: (StringLiteral.doubled value.toList ++ ['"']) := by
    rw [StringLiteral.VerbatimSign.literal, String.toList_append, String.toList_ofList,
      List.cons_append]
  have isLiteral : String.ofList
      (sign.text.toList ++ '"' :: (StringLiteral.doubled value.toList ++ ['"'])) =
        sign.literal value := by
    rw [← isText, String.ofList_toList]
  cases sign with
  | plain =>
      refine stream_of_single isText ?_ path
      show Lexeme.verbatimString _ = _
      rw [Lexeme.verbatimString_doubled, String.ofList_toList]
      rfl
  | dollarAt =>
      refine stream_of_single isText ?_ path
      show Lexeme.interpolatedVerbatim '$' '@' _ = _
      rw [Lexeme.interpolatedVerbatim_doubled]
      exact congrArg (fun spelling => Lexeme.token _ (.fault spelling)) isLiteral
  | atDollar =>
      refine stream_of_single isText ?_ path
      show Lexeme.interpolatedVerbatim '@' '$' _ = _
      rw [Lexeme.interpolatedVerbatim_doubled]
      exact congrArg (fun spelling => Lexeme.token _ (.fault spelling)) isLiteral

end ErrorAccessors
