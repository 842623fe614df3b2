/-
# Text in front of a separator

Where a lexeme ends may depend on the characters behind it, but never on those
behind a separator: white space, the end of a block comment and some brackets
end everything that is not enclosed by delimiters of its own.  A text
that ends with a separator is therefore cut into the same chunks in front of
every rest, as long as the rest begins like a type, so that it cannot turn the
separator into part of something else.

A comment or a literal that the rest would have to close is no exception.  It
would extend into the rest, so the text would not be cut at the separator.
-/

import ErrorAccessors.Proofs.Lexing

namespace ErrorAccessors

namespace Lexeme

/-- The characters that end what stands in front of them. -/
def separates (c : Char) : Bool :=
  isBlank c || c = ']' || c = '/' || c = '(' || c = '<'

/-- The characters that a type begins with. -/
def beginsType (c : Char) : Bool :=
  beginsWord c || c = '@' || c = '('

/-- A stretch of text with a separator at its end. -/
def Separated (text : List Char) : Prop :=
  ∃ before last, text = before ++ [last] ∧ separates last = true

/-- A separator is one of a few characters. -/
private theorem eq_of_separates {c : Char} (separator : separates c = true) :
    c ∈ [' ', '\t', '\r', '\n', '\x0c', '\uFEFF', ']', '/', '(', '<'] := by
  simp only [separates, isBlank, Bool.or_eq_true, decide_eq_true_eq] at separator
  simp only [List.mem_cons, List.not_mem_nil, or_false]
  simp only [or_assoc] at separator
  exact separator

/-- A property of characters that fails for each separator. -/
private theorem eq_false_of_separates (p : Char → Bool) {c : Char} (separator : separates c = true)
    (fails : [' ', '\t', '\r', '\n', '\x0c', '\uFEFF', ']', '/', '(', '<'].all (!p ·) = true) :
    p c = false := by
  simpa using List.all_eq_true.mp fails c (eq_of_separates separator)

theorem continuesWord_of_separates {c : Char} (separator : separates c = true) :
    continuesWord c = false :=
  eq_false_of_separates continuesWord separator (by decide +kernel)

/-- A byte order mark ends the word in front of it. -/
example : separates '\uFEFF' = true ∧ continuesWord '\uFEFF' = false := by
  decide +kernel

theorem beginsWord_of_separates {c : Char} (separator : separates c = true) :
    beginsWord c = false :=
  (Bool.or_eq_false_iff.mp (continuesWord_of_separates separator)).1

/-- What begins a type is none of the characters that end a literal, a comment or
a line. -/
private theorem ne_of_beginsType {c d : Char} (begins : beginsType c = true)
    (special : d ∈ ['"', '\'', '\\', '\n', '/', '*']) : c ≠ d := by
  rintro rfl
  have fails : ['"', '\'', '\\', '\n', '/', '*'].all (!beginsType ·) = true := by
    decide
  have fails := List.all_eq_true.mp fails c special
  simp [begins] at fails

namespace Separated

variable {text rest : List Char} {c : Char}

theorem ne_nil (separated : Separated text) : text ≠ [] := by
  obtain ⟨before, last, rfl, -⟩ := separated
  simp

/-- The separator is still there when another character is dropped from the
front. -/
theorem of_cons (separated : Separated (c :: text)) (other : separates c = false) :
    Separated text := by
  obtain ⟨before, last, isText, separator⟩ := separated
  cases before with
  | nil =>
      obtain ⟨rfl, -⟩ := List.cons.inj isText
      rw [other] at separator
      cases separator
  | cons d before => exact ⟨before, last, (List.cons.inj isText).2, separator⟩

theorem cons (separated : Separated text) (c : Char) : Separated (c :: text) := by
  obtain ⟨before, last, rfl, separator⟩ := separated
  exact ⟨c :: before, last, rfl, separator⟩

/-- What is left of a separated text behind its first character. -/
theorem tail (separated : Separated (c :: text)) : text = [] ∨ Separated text := by
  obtain ⟨before, last, isText, separator⟩ := separated
  cases before with
  | nil => exact .inl (List.cons.inj isText).2
  | cons d before => exact .inr ⟨before, last, (List.cons.inj isText).2, separator⟩

/-- What is left of a separated text behind some characters. -/
theorem of_append {before : List Char} (separated : Separated (before ++ text))
    (nonempty : text ≠ []) : Separated text := by
  induction before with
  | nil => exact separated
  | cons c before ih =>
      apply ih
      refine separated.tail.resolve_left fun empty => nonempty ?_
      exact (List.append_eq_nil_iff.mp empty).2

/-- A run of characters ends in front of a separator at the latest. -/
theorem takeWhile_append {p : Char → Bool} (separated : Separated text)
    (stops : ∀ c, separates c = true → p c = false) (rest : List Char) :
    (text ++ rest).takeWhile p = text.takeWhile p := by
  obtain ⟨before, last, rfl, separator⟩ := separated
  induction before with
  | nil => simp [stops last separator]
  | cons c before ih =>
      simp only [List.cons_append, List.takeWhile_cons] at ih ⊢
      rw [ih]

/-- The separator is behind such a run. -/
theorem dropWhile {p : Char → Bool} (separated : Separated text)
    (stops : ∀ c, separates c = true → p c = false) : Separated (text.dropWhile p) := by
  induction text with
  | nil => exact absurd rfl separated.ne_nil
  | cons c text ih =>
      by_cases holds : p c = true
      · rw [List.dropWhile_cons_of_pos holds]
        apply ih
        apply separated.of_cons
        cases isSeparator : separates c with
        | false => rfl
        | true =>
            rw [stops c isSeparator] at holds
            cases holds
      · rw [List.dropWhile_cons_of_neg holds]
        exact separated

end Separated

section Runs

variable {text rest rest' : List Char} {p : Char → Bool} {c : Char}

/-- A run that does not go on into the rest ends in front of it. -/
private theorem length_takeWhile_lt (goesOn : ∀ d ∈ rest.head?, p d = true) (nonempty : rest ≠ [])
    (within : ((text ++ rest).takeWhile p).length ≤ text.length) :
    ((text ++ rest).takeWhile p).length < text.length := by
  induction text with
  | nil =>
      cases rest with
      | nil => exact absurd rfl nonempty
      | cons d rest =>
          have holds : p d = true := goesOn d rfl
          rw [List.nil_append, List.takeWhile_cons_of_pos holds] at within
          cases within
  | cons c text ih =>
      by_cases holds : p c = true
      · rw [List.cons_append, List.takeWhile_cons_of_pos holds] at within ⊢
        exact Nat.succ_lt_succ (ih (Nat.le_of_succ_le_succ within))
      · rw [List.cons_append, List.takeWhile_cons_of_neg holds]
        exact Nat.succ_pos _

/-- A run that does not go on into the rest does not depend on it. -/
private theorem takeWhile_of_within (goesOn : ∀ d ∈ rest.head?, p d = true) (nonempty : rest ≠ [])
    (within : ((text ++ rest).takeWhile p).length ≤ text.length) :
    (text ++ rest').takeWhile p = (text ++ rest).takeWhile p := by
  induction text with
  | nil =>
      cases rest with
      | nil => exact absurd rfl nonempty
      | cons d rest =>
          have holds : p d = true := goesOn d rfl
          rw [List.nil_append, List.takeWhile_cons_of_pos holds] at within
          cases within
  | cons c text ih =>
      rw [List.cons_append, List.cons_append, List.takeWhile_cons, List.takeWhile_cons]
      by_cases holds : p c = true
      · rw [List.cons_append, List.takeWhile_cons_of_pos holds] at within
        rw [if_pos holds, if_pos holds, ih (Nat.le_of_succ_le_succ within)]
      · rw [if_neg holds, if_neg holds]

end Runs

section Fronts

/-- Taking a front off a separated text, in a way that never gets to the
separator. -/
private def TakesFront (front : List Char → List Char) : Prop :=
  ∀ text, Separated text → ∃ others, Separated others ∧ text = front text ++ others ∧
    ∀ rest, front (text ++ rest) = front text

variable {front behind : List Char → List Char} {text : List Char}

private theorem takesFront_takeWhile {p : Char → Bool}
    (stops : ∀ c, separates c = true → p c = false) : TakesFront (List.takeWhile p) :=
  fun text separated => ⟨text.dropWhile p, separated.dropWhile stops,
    List.takeWhile_append_dropWhile.symm, separated.takeWhile_append stops⟩

private theorem takesFront_first {p : Char → Bool}
    (stops : ∀ c, separates c = true → p c = false) :
    TakesFront fun text => (text.take 1).filter p := by
  intro text separated
  cases text with
  | nil => exact absurd rfl separated.ne_nil
  | cons c text =>
      by_cases holds : p c = true
      · have other : separates c = false := by
          cases isSeparator : separates c with
          | false => rfl
          | true =>
              rw [stops c isSeparator] at holds
              cases holds
        exact ⟨text, separated.of_cons other, by simp [holds], by simp⟩
      · exact ⟨c :: text, separated, by simp [holds], by simp⟩

/-- What is left behind a front. -/
private theorem drop_of_front {taken others : List Char} (isText : text = taken ++ others)
    (rest : List Char) : (text ++ rest).drop taken.length = others ++ rest := by
  rw [isText, List.append_assoc, List.drop_left]

/-- Taking off one front and then another. -/
private theorem TakesFront.append (first : TakesFront front) (second : TakesFront behind) :
    TakesFront fun text => front text ++ behind (text.drop (front text).length) := by
  intro text separated
  obtain ⟨others, separatedOthers, isText, same⟩ := first text separated
  obtain ⟨last, separatedLast, isOthers, sameOthers⟩ := second others separatedOthers
  have left := drop_of_front isText
  have leftAlone : text.drop (front text).length = others := by
    simpa using left []
  refine ⟨last, separatedLast, ?_, fun rest => ?_⟩
  · simp only [leftAlone]
    rw [List.append_assoc, ← isOthers, ← isText]
  · simp only [same, left, leftAlone, sameOthers]

end Fronts

end Lexeme

namespace Numeral

open Lexeme

/-- A property of characters that fails for each separator. -/
private theorem digitValue?_of_separates {c : Char} (separator : separates c = true) :
    digitValue? c = none := by
  have none : (digitValue? c).isSome = false :=
    eq_false_of_separates (fun c => (digitValue? c).isSome) separator (by decide)
  simpa using none

private theorem isDigitOf_of_separates (base : Nat) {c : Char} (separator : separates c = true) :
    isDigitOf base c = false := by
  rw [isDigitOf, digitValue?_of_separates separator]

private theorem takesFront_digitRun (base : Nat) : TakesFront (digitRun base) := by
  apply takesFront_takeWhile
  intro c separator
  have noUnderscore : decide (c = '_') = false :=
    eq_false_of_separates (fun c => decide (c = '_')) separator (by decide)
  rw [isDigitOf_of_separates base separator, noUnderscore]
  rfl

private theorem takesFront_exponent : TakesFront exponent := by
  intro text separated
  cases text with
  | nil => exact absurd rfl separated.ne_nil
  | cons letter text =>
      by_cases isLetter : letter = 'e' ∨ letter = 'E'
      · have other : separates letter = false := by
          rcases isLetter with rfl | rfl <;> decide
        have signs : TakesFront fun text => (text.take 1).filter fun c => c = '+' || c = '-' :=
          takesFront_first fun c separator =>
            eq_false_of_separates (fun c => decide (c = '+') || decide (c = '-')) separator
              (by decide)
        have digits : TakesFront (List.takeWhile (isDigitOf 10)) :=
          takesFront_takeWhile fun c separator => isDigitOf_of_separates 10 separator
        obtain ⟨unsigned, separatedUnsigned, isText, sameSign⟩ :=
          signs text (separated.of_cons other)
        obtain ⟨others, separatedOthers, isUnsigned, sameDigits⟩ :=
          digits unsigned separatedUnsigned
        have read (rest : List Char) : exponent (letter :: text ++ rest) =
            if unsigned.takeWhile (isDigitOf 10) = [] then []
            else letter :: (text.take 1).filter (fun c => c = '+' || c = '-') ++
              unsigned.takeWhile (isDigitOf 10) := by
          rw [List.cons_append, exponent, if_pos isLetter]
          simp only [sameSign rest, drop_of_front isText rest, sameDigits rest]
        have alone := read []
        rw [List.append_nil] at alone
        by_cases noDigits : unsigned.takeWhile (isDigitOf 10) = []
        · rw [if_pos noDigits] at alone
          refine ⟨letter :: text, separated, by rw [alone, List.nil_append], fun rest => ?_⟩
          rw [read, alone, if_pos noDigits]
        · rw [if_neg noDigits] at alone
          refine ⟨others, separatedOthers, ?_, fun rest => ?_⟩
          · rw [alone, List.append_assoc, ← isUnsigned, List.cons_append, ← isText]
          · rw [read, alone, if_neg noDigits]
      · refine ⟨letter :: text, separated, ?_, fun rest => ?_⟩
        · rw [exponent, if_neg isLetter, List.nil_append]
        · rw [List.cons_append, exponent, if_neg isLetter, exponent, if_neg isLetter]

/-- The fraction at the start of a text; empty if there is none. -/
private def fraction : List Char → List Char
  | '.' :: c :: rest => if isDigitOf 10 c then '.' :: c :: digitRun 10 rest else []
  | _ => []

private theorem realTail_eq : realTail = fun text =>
    fraction text ++ (exponent (text.drop (fraction text).length) ++
      realSuffix ((text.drop (fraction text).length).drop
        (exponent (text.drop (fraction text).length)).length)) := by
  funext text
  simp only [List.drop_drop, ← List.append_assoc]
  rfl

private theorem separates_of_isDigitOf {base : Nat} {c : Char} (digit : isDigitOf base c = true) :
    separates c = false := by
  cases isSeparator : separates c with
  | false => rfl
  | true =>
      rw [isDigitOf_of_separates base isSeparator] at digit
      cases digit

private theorem takesFront_fraction : TakesFront fraction := by
  intro text separated
  have nothing (none : ∀ rest, fraction (text ++ rest) = []) : ∃ others, Separated others ∧
      text = fraction text ++ others ∧ ∀ rest, fraction (text ++ rest) = fraction text := by
    have alone := none []
    rw [List.append_nil] at alone
    exact ⟨text, separated, by rw [alone, List.nil_append], fun rest => by rw [alone, none]⟩
  by_cases dotted : text.head? = some '.'
  · obtain ⟨more, rfl⟩ : ∃ more, text = '.' :: more := by
      cases text with
      | nil => cases dotted
      | cons c more => exact ⟨more, by rw [Option.some.inj dotted]⟩
    have behindDot := separated.of_cons (by decide)
    cases more with
    | nil => exact absurd rfl behindDot.ne_nil
    | cons c more =>
        by_cases digit : isDigitOf 10 c = true
        · obtain ⟨others, separatedOthers, isMore, same⟩ := takesFront_digitRun 10 more
            (behindDot.of_cons (separates_of_isDigitOf digit))
          have read (rest : List Char) :
              fraction ('.' :: c :: more ++ rest) = '.' :: c :: digitRun 10 more := by
            rw [List.cons_append, List.cons_append, fraction, if_pos digit, same]
          have alone := read []
          rw [List.append_nil] at alone
          refine ⟨others, separatedOthers, ?_, fun rest => by rw [read, alone]⟩
          rw [alone, List.cons_append, List.cons_append, ← isMore]
        · exact nothing fun rest => if_neg digit
  · refine nothing fun rest => ?_
    cases text with
    | nil => exact absurd rfl separated.ne_nil
    | cons c more =>
        have notDot : c ≠ '.' := fun isDot => dotted (congrArg some isDot)
        rw [List.cons_append, fraction]
        simp [notDot]

private theorem takesFront_realTail : TakesFront realTail := by
  have suffix : TakesFront realSuffix := by
    apply takesFront_first
    intro c separator
    exact eq_false_of_separates isRealSuffix separator (by decide)
  rw [realTail_eq]
  exact takesFront_fraction.append (takesFront_exponent.append suffix)

private theorem integer_append (base : Nat) (lead digits : List Char) {text : List Char}
    (separated : Separated text) (rest : List Char) :
    integer base lead digits (text ++ rest) = integer base lead digits text := by
  have suffixes := separated.takeWhile_append
    (fun c separator => eq_false_of_separates isIntegerSuffix separator (by decide)) rest
  rw [integer, suffixes, integer]

private theorem prefixed?_append {text : List Char} (separated : Separated text)
    (rest : List Char) : prefixed? (text ++ rest) = prefixed? text := by
  by_cases zero : text.head? = some '0'
  · obtain ⟨more, rfl⟩ : ∃ more, text = '0' :: more := by
      cases text with
      | nil => cases zero
      | cons c more => exact ⟨more, by rw [Option.some.inj zero]⟩
    have behindZero := separated.of_cons (by decide)
    cases more with
    | nil => exact absurd rfl behindZero.ne_nil
    | cons letter more =>
        have read (base : Nat) (other : separates letter = false) :
            (let digits := digitRun base (more ++ rest)
              if digits = [] then none
              else some (integer base ['0', letter] digits ((more ++ rest).drop digits.length))) =
            (let digits := digitRun base more
              if digits = [] then none
              else some (integer base ['0', letter] digits (more.drop digits.length))) := by
          obtain ⟨others, separatedOthers, isMore, same⟩ :=
            takesFront_digitRun base more (behindZero.of_cons other)
          have alone : more.drop (digitRun base more).length = others := by
            simpa using drop_of_front isMore []
          simp only [same, drop_of_front isMore, alone, integer_append _ _ _ separatedOthers]
        simp only [List.cons_append, prefixed?]
        by_cases hexadecimal : letter = 'x' ∨ letter = 'X'
        · simp only [if_pos hexadecimal, Option.bind_some]
          apply read
          rcases hexadecimal with rfl | rfl <;> decide
        · by_cases binary : letter = 'b' ∨ letter = 'B'
          · simp only [if_neg hexadecimal, if_pos binary, Option.bind_some]
            apply read
            rcases binary with rfl | rfl <;> decide
          · simp only [if_neg hexadecimal, if_neg binary, Option.bind_none]
  · cases text with
    | nil => exact absurd rfl separated.ne_nil
    | cons c more =>
        have notZero : c ≠ '0' := fun isZero => zero (congrArg some isZero)
        rw [List.cons_append, prefixed?, prefixed?]
        · simp [notZero]
        · simp [notZero]

private theorem decimal_append {text : List Char} (separated : Separated text)
    (rest : List Char) : decimal (text ++ rest) = decimal text := by
  obtain ⟨behind, separatedBehind, isText, sameDigits⟩ := takesFront_digitRun 10 text separated
  obtain ⟨-, -, -, sameTail⟩ := takesFront_realTail behind separatedBehind
  have alone : text.drop (digitRun 10 text).length = behind := by
    simpa using drop_of_front isText []
  simp only [decimal, sameDigits, drop_of_front isText, alone, sameTail,
    integer_append _ _ _ separatedBehind]

/-- Digits with suffixes stay in front of a separator. -/
private theorem integer_front (base : Nat) (lead digits : List Char) {text : List Char}
    (separated : Separated text) : ∃ others, Separated others ∧
      lead ++ digits ++ text = (integer base lead digits text).2 ++ others := by
  obtain ⟨others, separatedOthers, isText, -⟩ := takesFront_takeWhile
    (fun c separator => eq_false_of_separates isIntegerSuffix separator (by decide)) text separated
  refine ⟨others, separatedOthers, ?_⟩
  rw [integer, List.append_assoc (lead ++ digits), ← isText]

private theorem prefixed?_front {text : List Char} (separated : Separated text)
    {literal : TokenKind × List Char} (found : prefixed? text = some literal) :
    ∃ others, Separated others ∧ text = literal.2 ++ others := by
  unfold prefixed? at found
  split at found
  · next letter rest =>
    obtain ⟨base, isBase, isLiteral⟩ := Option.bind_eq_some_iff.mp found
    have other : separates letter = false := by
      split at isBase
      · next hexadecimal => rcases hexadecimal with rfl | rfl <;> decide
      · split at isBase
        · next binary => rcases binary with rfl | rfl <;> decide
        · cases isBase
    obtain ⟨behind, separatedBehind, isRest, -⟩ := takesFront_digitRun base rest
      ((separated.of_cons (by decide)).of_cons other)
    have left : rest.drop (digitRun base rest).length = behind := by
      simpa using drop_of_front isRest []
    simp only [] at isLiteral
    split at isLiteral
    · cases isLiteral
    · obtain rfl := Option.some.inj isLiteral
      obtain ⟨others, separatedOthers, covers⟩ :=
        integer_front base ['0', letter] (digitRun base rest) separatedBehind
      refine ⟨others, separatedOthers, ?_⟩
      rw [left, ← covers, List.append_assoc, ← isRest]
      rfl
  · cases found

private theorem decimal_front {text : List Char} (separated : Separated text) :
    ∃ others, Separated others ∧ text = (decimal text).2 ++ others := by
  obtain ⟨behind, separatedBehind, isText, -⟩ := takesFront_digitRun 10 text separated
  obtain ⟨last, separatedLast, isBehind, -⟩ := takesFront_realTail behind separatedBehind
  have left : text.drop (digitRun 10 text).length = behind := by
    simpa using drop_of_front isText []
  unfold decimal
  simp only [left]
  split
  · obtain ⟨others, separatedOthers, covers⟩ :=
      integer_front 10 [] (digitRun 10 text) separatedBehind
    refine ⟨others, separatedOthers, ?_⟩
    rw [← covers, List.nil_append, ← isText]
  · refine ⟨last, separatedLast, ?_⟩
    rw [List.append_assoc, ← isBehind, ← isText]

/-- A number stays in front of a separator. -/
theorem scan_front {text : List Char} (separated : Separated text) :
    ∃ others, Separated others ∧ text = (scan text).2 ++ others := by
  unfold scan
  cases found : prefixed? text with
  | none => exact decimal_front separated
  | some literal => exact prefixed?_front separated found

/-- A number ends in front of a separator at the latest. -/
theorem scan_append {text : List Char} (separated : Separated text) (rest : List Char) :
    scan (text ++ rest) = scan text := by
  rw [scan, prefixed?_append separated, decimal_append separated, scan]

end Numeral

section Enclosures

variable {front rest rest' : List Char}

namespace Lexeme

/-- A rest that begins like a type. -/
def BeginsType (rest : List Char) : Prop :=
  ∃ c more, rest = c :: more ∧ beginsType c = true

private theorem two_le_of_commentLength? {text : List Char} {length : Nat}
    (found : commentLength? text = some length) : 2 ≤ length := by
  induction text using commentLength?.induct generalizing length with
  | case1 => cases found
  | case2 => cases found; exact Nat.le_refl 2
  | case3 c text other ih =>
      rw [commentLength?] at found
      · obtain ⟨less, foundLess, rfl⟩ := Option.map_eq_some_iff.mp found
        exact Nat.le_succ_of_le (ih foundLess)
      · exact other

private theorem commentLength?_of_within {length : Nat}
    (found : commentLength? (front ++ rest) = some length) (within : length ≤ front.length) :
    commentLength? (front ++ rest') = some length := by
  have atLeast := two_le_of_commentLength? found
  induction front using commentLength?.induct generalizing length with
  | case1 =>
      rw [List.length_nil] at within
      omega
  | case2 => exact found
  | case3 c text other ih =>
      have notEnd (rest : List Char) : ∀ tail, c = '*' → text ++ rest = '/' :: tail → False := by
        intro tail star slash
        cases text with
        | nil =>
            rw [List.length_singleton] at within
            omega
        | cons d text => exact other text star (by rw [(List.cons.inj slash).1])
      rw [List.cons_append, commentLength?] at found
      · obtain ⟨less, foundLess, rfl⟩ := Option.map_eq_some_iff.mp found
        have shorter : less ≤ text.length := Nat.le_of_succ_le_succ within
        rw [List.cons_append, commentLength?,
          ih foundLess shorter (two_le_of_commentLength? foundLess)]
        · rfl
        · exact notEnd rest'
      · exact notEnd rest

end Lexeme

namespace StringLiteral

private theorem bodyLength_of_within (begins : Lexeme.BeginsType rest)
    (ends : front = [] ∨ Lexeme.Separated front)
    (within : (bodyLength (front ++ rest)).1 ≤ front.length) :
    bodyLength (front ++ rest') = bodyLength (front ++ rest) := by
  induction front using bodyLength.induct with
  | case1 =>
      obtain ⟨c, more, rfl, starts⟩ := begins
      have differs (d : Char) (special : d ∈ ['"', '\'', '\\', '\n', '/', '*']) : c ≠ d :=
        Lexeme.ne_of_beginsType starts special
      have quote := differs '"' (by simp)
      have lineEnd := differs '\n' (by simp)
      have backslash := differs '\\' (by simp)
      rw [List.nil_append, bodyLength] at within
      · cases within
      · exact quote
      · exact lineEnd
      · exact fun _ isBackslash _ => backslash isBackslash
      · exact fun isBackslash _ => backslash isBackslash
      · exact fun _ _ isBackslash _ => backslash isBackslash
  | case2 => rfl
  | case3 => rfl
  | case4 => rfl
  | case5 =>
      obtain nonempty | separated := ends
      · cases nonempty
      · exact absurd rfl (separated.of_cons (by decide)).ne_nil
  | case6 c text other length closed bodyIs ih =>
      have notEnd : c ≠ '\n' := fun isEnd => other isEnd
      have read (rest : List Char) : bodyLength ('\\' :: c :: text ++ rest) =
          ((bodyLength (text ++ rest)).1 + 2, (bodyLength (text ++ rest)).2) := by
        rw [List.cons_append, List.cons_append, bodyLength]
        exact notEnd
      obtain nonempty | separated := ends
      · cases nonempty
      rw [read] at within
      rw [read, read, ih (separated.of_cons (by decide)).tail (Nat.le_of_add_le_add_right within)]
  | case7 c text noQuote noEnd noEscapedEnd noEscape noOpenEscape length closed bodyIs ih =>
      have noBackslash : c ≠ '\\' := by
        intro isBackslash
        cases text with
        | nil => exact noEscape isBackslash rfl
        | cons d text => exact noOpenEscape d text isBackslash rfl
      have read (rest : List Char) : bodyLength (c :: text ++ rest) =
          ((bodyLength (text ++ rest)).1 + 1, (bodyLength (text ++ rest)).2) := by
        rw [List.cons_append, bodyLength]
        · exact noQuote
        · exact noEnd
        · exact fun _ isBackslash _ => noBackslash isBackslash
        · exact fun isBackslash _ => noBackslash isBackslash
        · exact fun _ _ isBackslash _ => noBackslash isBackslash
      obtain nonempty | separated := ends
      · cases nonempty
      rw [read] at within
      rw [read, read, ih separated.tail (Nat.le_of_add_le_add_right within)]

private theorem verbatimLength?_of_within {length : Nat}
    (ends : front = [] ∨ Lexeme.Separated front)
    (found : verbatimLength? (front ++ rest) = some length) (within : length < front.length) :
    verbatimLength? (front ++ rest') = some length := by
  induction front using verbatimLength?.induct generalizing length with
  | case1 => cases within
  | case2 text ih =>
      obtain nonempty | separated := ends
      · cases nonempty
      rw [List.cons_append, List.cons_append, verbatimLength?] at found
      obtain ⟨less, foundLess, rfl⟩ := Option.map_eq_some_iff.mp found
      have shorter : less < text.length := Nat.lt_of_add_lt_add_right within
      have behind := (separated.of_cons (by decide)).tail
      rw [List.cons_append, List.cons_append, verbatimLength?, ih behind foundLess shorter]
      rfl
  | case3 text other =>
      obtain nonempty | separated := ends
      · cases nonempty
      have single (rest : List Char) : verbatimLength? ('"' :: text ++ rest) = some 0 := by
        rw [List.cons_append, verbatimLength?]
        intro tail doubled
        cases text with
        | nil => exact absurd rfl (separated.of_cons (by decide)).ne_nil
        | cons d text => exact other text (by rw [(List.cons.inj doubled).1])
      rw [single] at found ⊢
      exact found
  | case4 c text noPair noQuote ih =>
      obtain nonempty | separated := ends
      · cases nonempty
      have read (rest : List Char) : verbatimLength? (c :: text ++ rest) =
          (verbatimLength? (text ++ rest)).map (· + 1) := by
        rw [List.cons_append, verbatimLength?]
        · exact fun _ isQuote _ => noQuote isQuote
        · exact noQuote
      rw [read] at found ⊢
      obtain ⟨less, foundLess, rfl⟩ := Option.map_eq_some_iff.mp found
      have shorter : less < text.length := Nat.lt_of_add_lt_add_right within
      rw [ih separated.tail foundLess shorter]
      rfl

end StringLiteral

end Enclosures

namespace Lexeme

section Forms

variable {front rest rest' : List Char} (begins : BeginsType rest) (begins' : BeginsType rest')

private theorem BeginsType.ne_nil (begins : BeginsType rest) : rest ≠ [] := by
  obtain ⟨c, more, rfl, -⟩ := begins
  exact List.cons_ne_nil c more

private theorem BeginsType.head_ne (begins : BeginsType rest) {c d : Char} (head : c ∈ rest.head?)
    (special : d ∈ ['"', '\'', '\\', '\n', '/', '*']) : c ≠ d := by
  obtain ⟨first, more, rfl, starts⟩ := begins
  obtain rfl : first = c := Option.some.inj head
  exact ne_of_beginsType starts special

private theorem take_of_within {count : Nat} (within : count ≤ front.length) :
    (front ++ rest').take count = (front ++ rest).take count := by
  rw [List.take_append_of_le_length within, List.take_append_of_le_length within]

private theorem fault_of_within {count : Nat} (c : Char) (within : count ≤ front.length) :
    fault c (front ++ rest') count = fault c (front ++ rest) count := by
  have same : (front ++ rest').take count = (front ++ rest).take count := take_of_within within
  rw [fault, fault, same]

private theorem word_of_separated (c : Char) (separated : Separated front) :
    word c (front ++ rest') = word c (front ++ rest) := by
  have ends (rest : List Char) :
      (front ++ rest).takeWhile continuesWord = front.takeWhile continuesWord :=
    separated.takeWhile_append (fun _ separator => continuesWord_of_separates separator) rest
  rw [word, word, ends, ends]

include begins

private theorem lineLength_of_within (within : lineLength (front ++ rest) ≤ front.length) :
    lineLength (front ++ rest') = lineLength (front ++ rest) := by
  have goesOn : ∀ d ∈ rest.head?, decide (d ≠ '\n') = true := by
    intro d head
    simpa using begins.head_ne head (by simp)
  rw [lineLength, lineLength, takeWhile_of_within goesOn begins.ne_nil within]

private theorem slash_of_within (separated : Separated front)
    (within : (slash (front ++ rest)).more ≤ front.length) :
    slash (front ++ rest') = slash (front ++ rest) := by
  cases front with
  | nil => exact absurd rfl separated.ne_nil
  | cons c text =>
      by_cases line : c = '/'
      · subst line
        have inLine : lineLength (text ++ rest) ≤ text.length := by
          have more : (slash ('/' :: text ++ rest)).more = 1 + lineLength (text ++ rest) := rfl
          rw [more, List.length_cons] at within
          omega
        rw [List.cons_append, List.cons_append, slash, slash, lineLength_of_within begins inLine]
      by_cases block : c = '*'
      · subst block
        rw [List.cons_append, slash] at within
        rw [List.cons_append, List.cons_append, slash, slash]
        cases found : commentLength? (text ++ rest) with
        | none =>
            simp only [found, fault, token, List.length_append, List.length_cons] at within
            have := List.length_pos_iff.mpr begins.ne_nil
            omega
        | some length =>
            simp only [found, trivia, List.length_cons] at within
            rw [commentLength?_of_within found (by omega)]
      · have operator (rest : List Char) : slash (c :: text ++ rest) = token 0 .operator := by
          rw [List.cons_append, slash]
          · exact fun _ isSlash => line (List.cons.inj isSlash).1
          · exact fun _ isStar => block (List.cons.inj isStar).1
        rw [operator, operator]

private theorem regularString_of_within (separated : Separated front)
    (within : (regularString (front ++ rest)).more ≤ front.length) :
    regularString (front ++ rest') = regularString (front ++ rest) := by
  have same (atMost : (StringLiteral.bodyLength (front ++ rest)).1 ≤ front.length) :
      StringLiteral.bodyLength (front ++ rest') = StringLiteral.bodyLength (front ++ rest) :=
    StringLiteral.bodyLength_of_within begins (.inr separated) atMost
  cases body : StringLiteral.bodyLength (front ++ rest) with
  | mk length closed =>
      cases closed with
      | true =>
          simp only [regularString, body, token] at within
          have atMost : length ≤ front.length := by omega
          have again := same (by rw [body]; exact atMost)
          have read : (front ++ rest').take length = (front ++ rest).take length :=
            take_of_within atMost
          simp only [regularString, again, body, read]
      | false =>
          simp only [regularString, body, token] at within
          have again := same (by rw [body]; exact within)
          simp only [regularString, again, body]

private theorem interpolatedString_of_within (separated : Separated ('"' :: front))
    (within : (interpolatedString (front ++ rest)).more ≤ ('"' :: front).length) :
    interpolatedString (front ++ rest') = interpolatedString (front ++ rest) := by
  have same (atMost : (StringLiteral.bodyLength (front ++ rest)).1 ≤ front.length) :
      StringLiteral.bodyLength (front ++ rest') = StringLiteral.bodyLength (front ++ rest) :=
    StringLiteral.bodyLength_of_within begins (.inr (separated.of_cons (by decide))) atMost
  rw [List.length_cons] at within
  cases body : StringLiteral.bodyLength (front ++ rest) with
  | mk length closed =>
      cases closed with
      | true =>
          simp only [interpolatedString, body, token] at within
          have atMost : length ≤ front.length := by omega
          have again := same (by rw [body]; exact atMost)
          have read : (front ++ rest').take length = (front ++ rest).take length :=
            take_of_within atMost
          simp only [interpolatedString, again, body, read]
      | false =>
          simp only [interpolatedString, body, fault, token] at within
          have atMost : length ≤ front.length := by omega
          have again := same (by rw [body]; exact atMost)
          have inFront : length + 1 ≤ ('"' :: front).length := by
            rw [List.length_cons]
            omega
          have read : fault '$' ('"' :: front ++ rest') (length + 1) =
              fault '$' ('"' :: front ++ rest) (length + 1) := fault_of_within '$' inFront
          simp only [interpolatedString, again, body]
          exact read

private theorem verbatimString_of_within (separated : Separated ('"' :: front))
    (within : (verbatimString (front ++ rest)).more ≤ ('"' :: front).length) :
    verbatimString (front ++ rest') = verbatimString (front ++ rest) := by
  have behind := separated.of_cons (by decide)
  rw [List.length_cons] at within
  cases found : StringLiteral.verbatimLength? (front ++ rest) with
  | none =>
      simp only [verbatimString, found, fault, token, List.length_append] at within
      have := List.length_pos_iff.mpr begins.ne_nil
      omega
  | some length =>
      simp only [verbatimString, found, token] at within
      have again : StringLiteral.verbatimLength? (front ++ rest') = some length :=
        StringLiteral.verbatimLength?_of_within (.inr behind) found (by omega)
      have read : (front ++ rest').take length = (front ++ rest).take length :=
        take_of_within (by omega)
      simp only [verbatimString, again, found, read]

private theorem interpolatedVerbatim_of_within (first second : Char)
    (separated : Separated ('"' :: front))
    (within : (interpolatedVerbatim first second (front ++ rest)).more ≤
      (second :: '"' :: front).length) :
    interpolatedVerbatim first second (front ++ rest') =
      interpolatedVerbatim first second (front ++ rest) := by
  have behind := separated.of_cons (by decide)
  cases found : StringLiteral.verbatimLength? (front ++ rest) with
  | none =>
      simp only [interpolatedVerbatim, found, fault, token, List.length_append,
        List.length_cons] at within
      have := List.length_pos_iff.mpr begins.ne_nil
      omega
  | some length =>
      simp only [interpolatedVerbatim, found, fault, token] at within
      have again : StringLiteral.verbatimLength? (front ++ rest') = some length := by
        apply StringLiteral.verbatimLength?_of_within (.inr behind) found
        simp only [List.length_cons] at within
        omega
      have read : fault first (second :: '"' :: front ++ rest') (length + 3) =
          fault first (second :: '"' :: front ++ rest) (length + 3) := fault_of_within first within
      simp only [interpolatedVerbatim, again, found]
      exact read

private theorem atSign_of_within (separated : Separated front)
    (within : (atSign (front ++ rest)).more ≤ front.length) :
    atSign (front ++ rest') = atSign (front ++ rest) := by
  cases front with
  | nil => exact absurd rfl separated.ne_nil
  | cons c text =>
      by_cases quote : c = '"'
      · subst quote
        exact verbatimString_of_within begins separated within
      by_cases dollar : c = '$'
      · subst dollar
        have behind := separated.of_cons (by decide)
        cases text with
        | nil => exact absurd rfl behind.ne_nil
        | cons d text =>
            by_cases quoted : d = '"'
            · subst quoted
              exact interpolatedVerbatim_of_within begins '@' '$' behind within
            · have operator (rest : List Char) :
                  atSign ('$' :: d :: text ++ rest) = token 1 .operator := by
                rw [List.cons_append, List.cons_append, atSign]
                exact fun _ isQuote => quoted (List.cons.inj isQuote).1
              rw [operator, operator]
      · have read (rest : List Char) : atSign (c :: text ++ rest) =
            if beginsWord c then
              let tail := (text ++ rest).takeWhile continuesWord
              token (1 + tail.length) (.ident (String.ofList (c :: tail)))
            else token 0 .operator := by
          rw [List.cons_append, atSign]
          · exact quote
          · exact fun _ isDollar => absurd isDollar dollar
          · exact dollar
        rw [read, read]
        by_cases isWord : beginsWord c = true
        · have other : separates c = false := by
            cases isSeparator : separates c with
            | false => rfl
            | true =>
                rw [beginsWord_of_separates isSeparator] at isWord
                cases isWord
          have ends (rest : List Char) :
              (text ++ rest).takeWhile continuesWord = text.takeWhile continuesWord :=
            (separated.of_cons other).takeWhile_append
              (fun _ separator => continuesWord_of_separates separator) rest
          simp only [ends]
        · rw [if_neg isWord, if_neg isWord]

private theorem dollarSign_of_within (separated : Separated front)
    (within : (dollarSign (front ++ rest)).more ≤ front.length) :
    dollarSign (front ++ rest') = dollarSign (front ++ rest) := by
  cases front with
  | nil => exact absurd rfl separated.ne_nil
  | cons c text =>
      by_cases quote : c = '"'
      · subst quote
        exact interpolatedString_of_within begins separated within
      by_cases atSign : c = '@'
      · subst atSign
        have behind := separated.of_cons (by decide)
        cases text with
        | nil => exact absurd rfl behind.ne_nil
        | cons d text =>
            by_cases quoted : d = '"'
            · subst quoted
              exact interpolatedVerbatim_of_within begins '$' '@' behind within
            · have operator (rest : List Char) :
                  dollarSign ('@' :: d :: text ++ rest) = token 1 .operator := by
                rw [List.cons_append, List.cons_append, dollarSign]
                exact fun _ isQuote => quoted (List.cons.inj isQuote).1
              rw [operator, operator]
      · have operator (rest : List Char) : dollarSign (c :: text ++ rest) = token 0 .operator := by
          rw [List.cons_append, dollarSign]
          · exact fun _ isQuote => quote (List.cons.inj isQuote).1
          · exact fun _ isAt => atSign (List.cons.inj isAt).1
          · exact fun _ isAt => atSign (List.cons.inj isAt).1
        rw [operator, operator]

/-- Whether a literal goes on with a character. -/
private def insideQuotes (c : Char) : Bool :=
  c ≠ '\'' && c ≠ '\n'

omit begins in
/-- A literal with an escaped character goes on to the next quote on the line. -/
private theorem apostrophe_escaped {c : Char} (notEnd : c ≠ '\n') (text : List Char) :
    apostrophe ('\\' :: c :: text) =
      let tail := text.takeWhile insideQuotes
      match text.drop tail.length with
      | '\'' :: _ =>
        token (3 + tail.length) (.character (String.ofList ('\'' :: '\\' :: c :: tail ++ ['\''])))
      | _ => fault '\'' ('\\' :: c :: text) (2 + tail.length) := by
  simp only [apostrophe, if_neg notEnd]
  rfl

/-- Behind an escaped character, a literal that does not go on into the rest does
not depend on it. -/
private theorem escapedCharacter_of_within (c : Char)
    (within : (apostrophe ('\\' :: c :: (front ++ rest))).more ≤ ('\\' :: c :: front).length) :
    apostrophe ('\\' :: c :: (front ++ rest')) = apostrophe ('\\' :: c :: (front ++ rest)) := by
  by_cases lineEnd : c = '\n'
  · simp only [apostrophe, if_pos lineEnd]
  have goesOn : ∀ d ∈ rest.head?, insideQuotes d = true := by
    intro d head
    have quote := begins.head_ne head (d := '\'') (by simp)
    have lineEnd := begins.head_ne head (d := '\n') (by simp)
    simp [insideQuotes, quote, lineEnd]
  have read (rest : List Char) := apostrophe_escaped lineEnd (front ++ rest)
  have atMost : ((front ++ rest).takeWhile insideQuotes).length ≤ front.length := by
    rw [read] at within
    simp only [List.length_cons] at within
    split at within
    · simp only [token] at within
      omega
    · simp only [fault, token] at within
      omega
  have less := length_takeWhile_lt goesOn begins.ne_nil atMost
  have same : (front ++ rest').takeWhile insideQuotes = (front ++ rest).takeWhile insideQuotes :=
    takeWhile_of_within goesOn begins.ne_nil atMost
  obtain ⟨d, more, isBehind⟩ : ∃ d more,
      front.drop ((front ++ rest).takeWhile insideQuotes).length = d :: more := by
    apply List.exists_cons_of_ne_nil
    intro empty
    rw [List.drop_eq_nil_iff] at empty
    omega
  rw [read, read]
  simp only [same]
  rw [List.drop_append_of_le_length atMost, List.drop_append_of_le_length atMost, isBehind]
  by_cases quote : d = '\''
  · subst quote
    rfl
  · have faults : fault '\'' ('\\' :: c :: front ++ rest')
        (2 + ((front ++ rest).takeWhile insideQuotes).length) =
          fault '\'' ('\\' :: c :: front ++ rest)
            (2 + ((front ++ rest).takeWhile insideQuotes).length) := by
      apply fault_of_within
      simp only [List.length_cons]
      omega
    simp only [List.cons_append] at faults ⊢
    rw [faults]
    split
    · next isQuote => exact absurd (List.cons.inj isQuote).1 quote
    · split
      · next isQuote => exact absurd (List.cons.inj isQuote).1 quote
      · rfl

private theorem apostrophe_of_within (begins' : BeginsType rest') (separated : Separated front)
    (within : (apostrophe (front ++ rest)).more ≤ front.length) :
    apostrophe (front ++ rest') = apostrophe (front ++ rest) := by
  cases front with
  | nil => exact absurd rfl separated.ne_nil
  | cons c text =>
      by_cases escape : c = '\\'
      · subst escape
        have behind := separated.of_cons (by decide)
        cases text with
        | nil => exact absurd rfl behind.ne_nil
        | cons d text => exact escapedCharacter_of_within begins d within
      · have read (rest : List Char) : apostrophe (c :: rest) =
            if rest.head? = some '\'' ∧ ¬(c = '\'' ∨ c = '\n') then
              token 2 (.character (String.ofList ['\'', c, '\'']))
            else fault '\'' [] 0 := by
          cases rest with
          | nil => simp [apostrophe]
          | cons d rest =>
              by_cases quote : d = '\''
              · subst quote
                by_cases special : c = '\'' ∨ c = '\n'
                · simp [apostrophe, escape, special]
                · simp [apostrophe, escape, special]
              · simp [apostrophe, escape, quote]
        rw [List.cons_append, List.cons_append, read, read]
        cases text with
        | cons d text => rfl
        | nil =>
            have noQuote {rest : List Char} (begins : BeginsType rest) :
                rest.head? ≠ some '\'' := by
              intro head
              exact begins.head_ne head (by simp) rfl
            have here : ¬([] ++ rest).head? = some '\'' := noQuote begins
            have there : ¬([] ++ rest').head? = some '\'' := noQuote begins'
            rw [if_neg fun both => there both.1, if_neg fun both => here both.1]

omit begins in
/-- A separator alone is a lexeme in front of a rest that begins like a type. -/
private theorem first_of_separator {c : Char} (separator : separates c = true)
    (begins : BeginsType rest) :
    first c rest = if isBlank c then trivia 0 else if c = '/' then token 0 .operator
      else if c = ']' then token 0 (.mark .rightBracket)
      else if c = '(' then token 0 (.mark .leftParen) else token 0 (.mark .less) := by
  by_cases blank : isBlank c = true
  · rw [first, if_pos blank, if_pos blank]
  by_cases isSlash : c = '/'
  · subst isSlash
    obtain ⟨d, more, rfl, starts⟩ := begins
    have line := ne_of_beginsType starts (d := '/') (by simp)
    have block := ne_of_beginsType starts (d := '*') (by simp)
    simp [first, isBlank, slash, line, block]
  · have noWord : beginsWord c = false := beginsWord_of_separates separator
    have isBracket : (c = ']' ∨ c = '(') ∨ c = '<' := by
      simpa [separates, blank, isSlash] using separator
    have noDigit : Numeral.isDigitOf 10 c = false := Numeral.isDigitOf_of_separates 10 separator
    rcases isBracket with (rfl | rfl) | rfl <;> simp [first, isBlank, noWord, noDigit, single?]

/-- In front of a rest that begins like a type, a lexeme of a separated text does
not depend on the rest, unless it extends into it. -/
theorem first_of_within (begins' : BeginsType rest') {c : Char} (separated : Separated (c :: front))
    (within : (first c (front ++ rest)).more ≤ front.length) :
    first c (front ++ rest') = first c (front ++ rest) := by
  obtain rfl | behind := separated.tail
  · have separator : separates c = true := by
      obtain ⟨before, last, isText, separator⟩ := separated
      obtain ⟨rfl, isLast⟩ := List.append_eq_singleton_iff.mp isText.symm |>.resolve_right (by simp)
      rw [← (List.cons.inj isLast).1]
      exact separator
    rw [List.nil_append, List.nil_append, first_of_separator separator begins,
      first_of_separator separator begins']
  · have head (rest : List Char) : (front ++ rest).head? = front.head? := by
      cases front with
      | nil => exact absurd rfl behind.ne_nil
      | cons d text => rfl
    unfold first at within ⊢
    simp only [head] at within ⊢
    by_cases blank : isBlank c = true
    · simp only [if_pos blank]
    simp only [if_neg blank] at within ⊢
    by_cases isSlash : c = '/'
    · simp only [if_pos isSlash] at within ⊢
      exact slash_of_within begins behind within
    simp only [if_neg isSlash] at within ⊢
    by_cases isHash : c = '#'
    · simp only [if_pos isHash] at within ⊢
      rw [lineLength_of_within begins within]
    simp only [if_neg isHash] at within ⊢
    by_cases isQuote : c = '"'
    · simp only [if_pos isQuote] at within ⊢
      exact regularString_of_within begins behind within
    simp only [if_neg isQuote] at within ⊢
    by_cases isAt : c = '@'
    · simp only [if_pos isAt] at within ⊢
      exact atSign_of_within begins behind within
    simp only [if_neg isAt] at within ⊢
    by_cases isDollar : c = '$'
    · simp only [if_pos isDollar] at within ⊢
      exact dollarSign_of_within begins behind within
    simp only [if_neg isDollar] at within ⊢
    by_cases isApostrophe : c = '\''
    · simp only [if_pos isApostrophe] at within ⊢
      exact apostrophe_of_within begins begins' behind within
    simp only [if_neg isApostrophe] at within ⊢
    rw [word_of_separated c behind]
    by_cases digit : Numeral.isDigitOf 10 c = true
    · have separatedNumber : Separated (c :: front) := behind.cons c
      have scanned (rest : List Char) :
          Numeral.scan (c :: (front ++ rest)) = Numeral.scan (c :: front) :=
        Numeral.scan_append separatedNumber rest
      rw [scanned, scanned]
      rfl
    · simp only [if_neg digit]
      rfl

end Forms

end Lexeme

namespace Chunk

open Lexeme

/-- Chunks that end with a separator are cut in front of every rest that begins
like a type, if they are in front of one. -/
theorem CutBefore.exchange {rest rest' : List Char} {chunks : List Chunk}
    (cut : CutBefore rest chunks) (separated : chunks = [] ∨ Separated (textOf chunks))
    (begins : BeginsType rest) (begins' : BeginsType rest') : CutBefore rest' chunks := by
  induction cut with
  | nil => exact .nil
  | @cons chunk chunks kind more behind ih =>
      obtain nonempty | separated := separated
      · cases nonempty
      let front := chunk.more ++ textOf chunks
      have regroup (rest : List Char) : chunk.more ++ (textOf chunks ++ rest) = front ++ rest :=
        (List.append_assoc ..).symm
      rw [regroup] at kind more
      have within : (Lexeme.first chunk.first (front ++ rest)).more ≤ front.length := by
        have taken := congrArg List.length more
        rw [List.length_take, List.length_append] at taken
        have positive := List.length_pos_iff.mpr begins.ne_nil
        have inFront : chunk.more.length ≤ front.length := by simp [front]
        omega
      have same :
          Lexeme.first chunk.first (front ++ rest') = Lexeme.first chunk.first (front ++ rest) :=
        first_of_within begins begins' separated within
      have later : chunks = [] ∨ Separated (textOf chunks) := by
        cases chunks with
        | nil => exact .inl rfl
        | cons second chunks =>
            right
            have split : textOf (chunk :: second :: chunks) =
                chunk.text ++ textOf (second :: chunks) := rfl
            rw [split] at separated
            exact separated.of_append (List.cons_ne_nil _ _)
      refine .cons ?_ ?_ (ih later)
      · rw [regroup, same, kind]
      · rw [List.take_append_of_le_length within] at more
        rw [regroup, same, List.take_append_of_le_length within, more]

end Chunk

end ErrorAccessors
