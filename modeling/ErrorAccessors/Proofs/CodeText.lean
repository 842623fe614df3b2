/-
# Text that is code

A text is code if it neatly writes tokens whose brackets match, so that whatever skips
such tokens passes it.  Code is put together with marks and brackets.

A number is code only in front of what does not continue it, be it a digit or a dot.  What
is code there is a value: it may be an argument of a call, or stand behind a sign up to a
semicolon.
-/

import ErrorAccessors.Proofs.BracketedTokens
import ErrorAccessors.Proofs.LiteralText

namespace ErrorAccessors

/-- A text that neatly writes tokens whose brackets match. -/
def IsCode (text : String) : Prop :=
  ∃ kinds, Bracketed kinds ∧ WritesNeatly text.toList kinds

namespace IsCode

variable {text more : String}

theorem word {word : String} (isWord : Lexeme.IsWord word.toList) : IsCode word :=
  ⟨_, .inner rfl .nil, .word isWord⟩

theorem ne_empty (isCode : IsCode text) : text ≠ "" := by
  obtain ⟨kinds, -, written⟩ := isCode
  obtain ⟨c, rest, isText, -⟩ := written.neat.begins
  rintro rfl
  cases isText

theorem spaced (first : IsCode text) (second : IsCode more) : IsCode (text ++ " " ++ more) := by
  obtain ⟨kinds, bracketed, written⟩ := first
  obtain ⟨others, bracketedMore, writtenMore⟩ := second
  refine ⟨kinds ++ others, bracketed.append bracketedMore, ?_⟩
  simpa using written.spaced writtenMore

theorem angled (first : IsCode text) (second : IsCode more) :
    IsCode (text ++ "<" ++ more ++ ">") := by
  obtain ⟨kinds, bracketed, written⟩ := first
  obtain ⟨others, bracketedMore, writtenMore⟩ := second
  refine ⟨_, bracketed.append
    (bracketedMore.enclosed (by decide : (Mark.less, Mark.greater) ∈ _)), ?_⟩
  simpa using written.append_mark (c := '<') rfl (by decide)
    (writtenMore.concat_mark (c := '>') rfl (by decide))

end IsCode

/-- A text that neatly writes tokens whose brackets match, in front of everything that ends
a value. -/
def IsValue (text : String) : Prop :=
  ∃ kinds, Bracketed kinds ∧ ∀ c more others, Numeral.Ends c → WritesNeatly (c :: more) others →
    WritesNeatly (text.toList ++ c :: more) (kinds ++ others)

/-- Code is a value. -/
theorem IsCode.isValue {text : String} (isCode : IsCode text) : IsValue text := by
  obtain ⟨kinds, bracketed, written⟩ := isCode
  refine ⟨kinds, bracketed, fun c more others ends behind =>
    written.append behind fun d isHead => ?_⟩
  obtain rfl := Option.some.inj isHead
  exact ends.noWord

namespace IsValue

variable {text more : String}

private theorem isInner_decimalKind (n : Nat) : (Numeral.decimalKind n).isInner = true := by
  unfold Numeral.decimalKind Numeral.integerKind
  split
  · rfl
  · split <;> rfl

/-- A number is a value. -/
theorem code (code : Int) : IsValue (toString code) := by
  refine ⟨Numeral.codeKinds code, ?_, fun c more others ends behind => behind.behind_code code ends⟩
  cases code with
  | ofNat value => exact .inner (isInner_decimalKind _) .nil
  | negSucc less => exact .inner rfl (.inner (isInner_decimalKind _) .nil)

/-- A string literal is a value. -/
theorem literal (message : String) : IsValue (StringLiteral.encode message) :=
  ⟨[.string message], .inner rfl .nil, fun _ _ _ _ behind => behind.behind_literal message⟩

theorem append_comma (first : IsValue text) (second : IsValue more) :
    IsValue (text ++ ", " ++ more) := by
  obtain ⟨kinds, bracketed, written⟩ := first
  obtain ⟨others, bracketedMore, writtenMore⟩ := second
  refine ⟨kinds ++ .mark .comma :: others, bracketed.append (.inner rfl bracketedMore), ?_⟩
  intro c rest behindKinds ends behind
  have comma :=
    (WritesNeatly.mark (c := ',') rfl (by decide)).spaced (writtenMore c rest _ ends behind)
  simpa using written ',' _ _ ⟨Lexeme.notWord_of_single rfl, by decide⟩ comma

/-- A value with a name in front. -/
theorem labelled (value : IsValue text) {label : String} (isWord : Lexeme.IsWord label.toList) :
    IsValue (label ++ ": " ++ text) := by
  obtain ⟨kinds, bracketed, written⟩ := value
  refine ⟨.ident label :: .mark .colon :: kinds, .inner rfl (.inner rfl bracketed), ?_⟩
  intro c rest others ends behind
  have colon := (WritesNeatly.word isWord).append (written c rest others ends behind).behind_colon
    fun d isHead => by
      obtain rfl := Option.some.inj isHead
      exact Lexeme.notWord_of_single (c := ':') rfl
  simpa using colon

end IsValue

namespace IsCode

variable {text more : String}

/-- A call with arguments. -/
theorem called (isCode : IsCode text) (arguments : IsValue more) :
    IsCode (text ++ "(" ++ more ++ ")") := by
  obtain ⟨kinds, bracketed, written⟩ := isCode
  obtain ⟨others, bracketedMore, writtenMore⟩ := arguments
  refine ⟨_, bracketed.append
    (bracketedMore.enclosed (by decide : (Mark.leftParen, Mark.rightParen) ∈ _)), ?_⟩
  have closed := writtenMore ')' [] _ ⟨Lexeme.notWord_of_single rfl, by decide⟩
    (.mark (c := ')') rfl (by decide))
  simpa using written.append_mark (c := '(') rfl (by decide) closed

/-- A call without arguments. -/
theorem called_bare (isCode : IsCode text) : IsCode (text ++ "()") := by
  obtain ⟨kinds, bracketed, written⟩ := isCode
  refine ⟨_, bracketed.append
    (Bracketed.nil.enclosed (by decide : (Mark.leftParen, Mark.rightParen) ∈ _)), ?_⟩
  simpa using written.append_mark (c := '(') rfl (by decide) (.mark (c := ')') rfl (by decide))

/-- A name with a value behind an equals sign. -/
theorem assigned (first : IsCode text) (second : IsCode more) : IsCode (text ++ " = " ++ more) := by
  obtain ⟨kinds, bracketed, written⟩ := first
  obtain ⟨others, bracketedMore, writtenMore⟩ := second
  refine ⟨kinds ++ .mark .equals :: others, bracketed.append (.inner rfl bracketedMore), ?_⟩
  simpa using written.spaced writtenMore.behind_equals

end IsCode

end ErrorAccessors
