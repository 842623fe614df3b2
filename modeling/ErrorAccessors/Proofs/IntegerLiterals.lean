/-
# Integer literals

An integer is written in decimal, or in hexadecimal or binary behind a sign for the
base.  Between and behind the digits any number of separators may stand, and suffixes
for the width and the sign at the end.  Neither separators nor suffixes count: the
number that a literal denotes is that of its digits in its base.

A literal is cut from the front of a text as a whole if it ends there, and it is an
integer token for the machine word with this number.  It is a fault over the whole
spelling if no word has this number, or if there is no digit at all, only separators.
-/

import ErrorAccessors.Token.Lexer
import Mathlib.Data.Nat.Digits.Defs
import Mathlib.Tactic.SplitIfs

namespace ErrorAccessors

namespace Numeral

/-- How an integer is written: in decimal, or in a base with a sign, whose letter may be a
capital. -/
inductive IntegerForm where
  | decimal
  | hexadecimal (capital : Bool)
  | binary (capital : Bool)
deriving DecidableEq, Repr

namespace IntegerForm

def base : IntegerForm → Nat
  | decimal => 10
  | hexadecimal _ => 16
  | binary _ => 2

/-- The sign of the base. -/
def lead : IntegerForm → List Char
  | decimal => []
  | hexadecimal capital => ['0', if capital then 'X' else 'x']
  | binary capital => ['0', if capital then 'B' else 'b']

end IntegerForm

/-- An integer literal.  Separators may stand anywhere among the digits, but a decimal
literal does not begin with one. -/
structure IntegerLiteral where
  form : IntegerForm
  digits : List Char
  suffixes : List Char
  nonempty : digits ≠ []
  areDigits : ∀ c ∈ digits, c = '_' ∨ isDigitOf form.base c = true
  begins : form = .decimal → digits.head? ≠ some '_'
  areSuffixes : ∀ c ∈ suffixes, c ∈ ['u', 'U', 'l', 'L']

namespace IntegerLiteral

variable (literal : IntegerLiteral)

/-- The characters of a literal. -/
def spelling : List Char :=
  literal.form.lead ++ literal.digits ++ literal.suffixes

def text : String :=
  String.ofList literal.spelling

/-- The values of the digits, the first one being the highest. -/
def values : List Nat :=
  literal.digits.filterMap digitValue?

/-- The number that the digits denote, if there is a digit. -/
def number? : Option Nat :=
  if literal.values = [] then none
  else some (Nat.ofDigits literal.form.base literal.values.reverse)

/-- The token of a literal: the signed reading of a 64-bit word, or a fault. -/
def kind : TokenKind :=
  match literal.number? with
  | none => .fault literal.text
  | some number =>
    if number < 2 ^ 63 then .integer number
    else if number < 2 ^ 64 then .integer ((number : Int) - 2 ^ 64)
    else .fault literal.text

/-- The token of a literal with a digit is made of the word for its number. -/
theorem kind_of_number {number : Nat} (denotes : literal.number? = some number) :
    literal.kind =
      if wordCount ≤ number then .fault literal.text else .integer (signedWord number) := by
  simp only [kind, denotes, signedWord, signBit, wordCount]
  norm_num
  split_ifs <;> first | omega | rfl

/-- A literal begins with a character. -/
theorem exists_spelling : ∃ c more, literal.spelling = c :: more := by
  refine List.exists_cons_of_ne_nil fun none => literal.nonempty ?_
  simp only [spelling, List.append_eq_nil_iff] at none
  exact none.1.2

end IntegerLiteral

section Values

variable {base : Nat} {c : Char}

/-- The number of some digits is that of their values as digits of the base. -/
theorem valueOf_eq_ofDigits (base : Nat) (digits : List Char) :
    valueOf base digits = Nat.ofDigits base (digits.filterMap digitValue?).reverse := by
  rw [valueOf, Nat.ofDigits_eq_foldr, List.foldr_reverse]
  simp only [Nat.cast_id, Nat.add_comm, Nat.mul_comm]

theorem digitValue?_separator : digitValue? '_' = none := by decide

/-- A digit of some base has a value. -/
theorem exists_digitValue? (isDigit : isDigitOf base c = true) :
    ∃ value, digitValue? c = some value ∧ value < base := by
  unfold isDigitOf at isDigit
  cases found : digitValue? c with
  | none => simp [found] at isDigit
  | some value => exact ⟨value, rfl, by simpa [found] using isDigit⟩

/-- The digits of the decimal base are the decimal digits. -/
theorem isDigit_of_isDigitOf (isDigit : isDigitOf 10 c = true) : c.isDigit = true := by
  obtain ⟨value, found, small⟩ := exists_digitValue? isDigit
  unfold digitValue? at found
  split_ifs at found with decimal lower upper
  · simp only [Char.isDigit, Bool.and_eq_true, decide_eq_true_eq]
    exact decimal
  · simp only [Option.some.injEq] at found
    omega
  · simp only [Option.some.injEq] at found
    omega

end Values

section Ending

/-- The digits of all bases. -/
private def digitChars : List Char :=
  ['0', '1', '2', '3', '4', '5', '6', '7', '8', '9', 'a', 'b', 'c', 'd', 'e', 'f', 'A', 'B',
    'C', 'D', 'E', 'F']

private theorem mem_digitChars {c : Char} {value : Nat} (digit : digitValue? c = some value) :
    c ∈ digitChars := by
  have between {low high : Char} (least : low ≤ c) (greatest : c ≤ high) :
      low.toNat ≤ c.toNat ∧ c.toNat ≤ high.toNat := ⟨least, greatest⟩
  rw [← Char.ofNat_toNat c]
  unfold digitValue? at digit
  split_ifs at digit with decimal lower upper
  · obtain ⟨least, greatest⟩ := between decimal.1 decimal.2
    generalize c.toNat = code at least greatest
    have known : ∀ code ≤ 57, 48 ≤ code → Char.ofNat code ∈ digitChars := by decide
    exact known code greatest least
  · obtain ⟨least, greatest⟩ := between lower.1 lower.2
    generalize c.toNat = code at least greatest
    have known : ∀ code ≤ 102, 97 ≤ code → Char.ofNat code ∈ digitChars := by decide
    exact known code greatest least
  · obtain ⟨least, greatest⟩ := between upper.1 upper.2
    generalize c.toNat = code at least greatest
    have known : ∀ code ≤ 70, 65 ≤ code → Char.ofNat code ∈ digitChars := by decide
    exact known code greatest least

/-- The characters in front of which a number ends. -/
structure Ends (c : Char) : Prop where
  noWord : Lexeme.continuesWord c = false
  noDot : c ≠ '.'

namespace Ends

variable {c : Char} (ends : Ends c)

include ends

/-- No character of a word ends a number. -/
theorem ne {d : Char} (continues : Lexeme.continuesWord d = true) : c ≠ d := by
  rintro rfl
  have noWord := ends.noWord
  rw [continues] at noWord
  cases noWord

theorem isDigitOf (base : Nat) : isDigitOf base c = false := by
  have words : digitChars.all Lexeme.continuesWord = true := by decide
  unfold Numeral.isDigitOf
  cases digit : digitValue? c with
  | none => rfl
  | some value => exact absurd rfl (ends.ne (List.all_eq_true.mp words c (mem_digitChars digit)))

theorem isIntegerSuffix : isIntegerSuffix c = false := by
  simp only [Numeral.isIntegerSuffix, Bool.or_eq_false_iff, decide_eq_false_iff_not]
  exact ⟨⟨⟨ends.ne (by decide), ends.ne (by decide)⟩, ends.ne (by decide)⟩,
    ends.ne (by decide)⟩

theorem isRealSuffix : isRealSuffix c = false := by
  simp only [Numeral.isRealSuffix, Bool.or_eq_false_iff, decide_eq_false_iff_not]
  exact ⟨⟨⟨⟨⟨ends.ne (by decide), ends.ne (by decide)⟩, ends.ne (by decide)⟩,
    ends.ne (by decide)⟩, ends.ne (by decide)⟩, ends.ne (by decide)⟩

end Ends

end Ending

namespace IntegerLiteral

section Scanning

variable (literal : IntegerLiteral) {rest : List Char}

/-- The token that is made of the digits of a literal is that of the literal. -/
theorem integerKind_eq :
    integerKind literal.form.base literal.digits literal.spelling = literal.kind := by
  have onlySeparators : literal.digits.all (· = '_') = true ↔ literal.values = [] := by
    rw [List.all_eq_true, values, List.filterMap_eq_nil_iff]
    refine forall₂_congr fun c member => ?_
    rw [decide_eq_true_eq]
    constructor
    · rintro rfl
      exact digitValue?_separator
    · intro noValue
      refine (literal.areDigits c member).resolve_right fun isDigit => ?_
      obtain ⟨value, found, -⟩ := exists_digitValue? isDigit
      rw [noValue] at found
      cases found
  unfold integerKind
  by_cases none : literal.values = []
  · rw [if_pos (onlySeparators.mpr none), kind, number?, if_pos none]
    rfl
  · have denotes : literal.number? = some (valueOf literal.form.base literal.digits) := by
      rw [number?, if_neg none, valueOf_eq_ofDigits, values]
    rw [if_neg fun all => none (onlySeparators.mp all), literal.kind_of_number denotes]
    rfl

/-- The first character of a literal is a decimal digit. -/
theorem isDigit_of_spelling {c : Char} {more : List Char}
    (spelling : literal.spelling = c :: more) :
    c.isDigit = true := by
  have zero {lead : List Char} (isLead : literal.form.lead = '0' :: lead) : c.isDigit = true := by
    rw [IntegerLiteral.spelling, isLead] at spelling
    rw [← (List.cons.inj spelling).1]
    decide
  cases isForm : literal.form with
  | hexadecimal capital => exact zero (by rw [isForm]; rfl)
  | binary capital => exact zero (by rw [isForm]; rfl)
  | decimal =>
      obtain ⟨first, digits, areDigits⟩ := List.exists_cons_of_ne_nil literal.nonempty
      rw [IntegerLiteral.spelling, isForm, areDigits] at spelling
      obtain rfl : first = c := (List.cons.inj spelling).1
      have noSeparator : first ≠ '_' := by
        rintro rfl
        exact literal.begins isForm (by rw [areDigits]; rfl)
      have isDigit := (literal.areDigits first (by simp [areDigits])).resolve_left noSeparator
      rw [isForm] at isDigit
      exact isDigit_of_isDigitOf isDigit

/-- What stands behind the digits of a literal in front of a rest that ends it. -/
private theorem head_suffixes (ends : ∀ c ∈ rest.head?, Ends c) :
    ∀ c ∈ (literal.suffixes ++ rest).head?, c ∈ ['u', 'U', 'l', 'L'] ∨ Ends c := by
  intro c isHead
  cases suffixes : literal.suffixes with
  | nil =>
      rw [suffixes, List.nil_append] at isHead
      exact .inr (ends c isHead)
  | cons d more =>
      rw [suffixes] at isHead
      obtain rfl := Option.some.inj isHead
      exact .inl (literal.areSuffixes d (suffixes ▸ List.mem_cons_self))

/-- A property of characters that fails for the suffixes and for what ends a literal. -/
private theorem stops_behind {p : Char → Bool} (ends : ∀ c ∈ rest.head?, Ends c)
    (suffixes : ['u', 'U', 'l', 'L'].any p = false) (ending : ∀ c, Ends c → p c = false) :
    ∀ c ∈ (literal.suffixes ++ rest).head?, p c = false := by
  intro c isHead
  rcases literal.head_suffixes ends c isHead with isSuffix | isEnd
  · exact Bool.eq_false_iff.mpr (List.any_eq_false.mp suffixes c isSuffix)
  · exact ending c isEnd

/-- A run of characters that stops in front of a rest. -/
private theorem takeWhile_eq {p : Char → Bool} {run : List Char} (within : ∀ c ∈ run, p c = true)
    (stops : ∀ c ∈ rest.head?, p c = false) : (run ++ rest).takeWhile p = run := by
  rw [List.takeWhile_append_of_pos within]
  cases rest with
  | nil => rw [List.takeWhile_nil, List.append_nil]
  | cons c rest =>
      rw [List.takeWhile_cons_of_neg (by simp [stops c rfl]), List.append_nil]

private theorem digitRun_eq (ends : ∀ c ∈ rest.head?, Ends c) :
    digitRun literal.form.base (literal.digits ++ (literal.suffixes ++ rest)) = literal.digits := by
  refine takeWhile_eq (fun c member => ?_) (literal.stops_behind ends ?_ fun c ends => ?_)
  · rcases literal.areDigits c member with isSeparator | isDigit
    · simp [isSeparator]
    · simp [isDigit]
  · have noDigit : ∀ base ∈ [10, 16, 2],
        (['u', 'U', 'l', 'L'].any fun c => isDigitOf base c || c = '_') = false := by decide
    refine noDigit _ ?_
    cases literal.form <;> simp [IntegerForm.base]
  · have noSeparator : c ≠ '_' := ends.ne (by decide)
    simp [ends.isDigitOf, noSeparator]

private theorem integer_eq (ends : ∀ c ∈ rest.head?, Ends c) :
    integer literal.form.base literal.form.lead literal.digits (literal.suffixes ++ rest) =
      (literal.kind, literal.spelling) := by
  have run : (literal.suffixes ++ rest).takeWhile isIntegerSuffix = literal.suffixes := by
    have areSuffixes : ['u', 'U', 'l', 'L'].all isIntegerSuffix = true := by decide
    refine takeWhile_eq (fun c member => ?_) fun c isHead => (ends c isHead).isIntegerSuffix
    exact List.all_eq_true.mp areSuffixes c (literal.areSuffixes c member)
  rw [← integerKind_eq, integer, run]
  rfl

/-- Nothing makes a number real in front of a character that begins no fraction, no
exponent and no suffix of a real number. -/
private theorem realTail_eq_nil {text : List Char}
    (stops : ∀ c ∈ text.head?, (c ≠ '.' ∧ ¬(c = 'e' ∨ c = 'E')) ∧ isRealSuffix c = false) :
    realTail text = [] := by
  cases text with
  | nil => rfl
  | cons c text =>
      obtain ⟨⟨noDot, noLetter⟩, noSuffix⟩ := stops c rfl
      have noPower : exponent (c :: text) = [] := by rw [exponent, if_neg noLetter]
      have noType : realSuffix (c :: text) = [] := by simp [realSuffix, noSuffix]
      unfold realTail
      split
      · next isDot => exact absurd (List.cons.inj isDot).1 noDot
      · simp [noPower, noType]

/-- The sign of a base is told by the second character. -/
private theorem prefixed?_eq_none {first : Char} {text : List Char}
    (noLetter : ∀ c ∈ text.head?, c ∉ ['x', 'X', 'b', 'B']) : prefixed? (first :: text) = none := by
  unfold prefixed?
  split
  · next letter more isText =>
    obtain ⟨-, rfl⟩ := List.cons.inj isText
    have other := noLetter letter rfl
    simp only [List.mem_cons, List.not_mem_nil, or_false, not_or] at other
    rw [if_neg (by simp [other]), if_neg (by simp [other])]
    rfl
  · rfl

/-- The second character of a decimal literal is no sign of a base. -/
private theorem prefixed?_of_decimal {first : Char} {more : List Char}
    (isDecimal : literal.form = .decimal) (digits : literal.digits = first :: more)
    (ends : ∀ c ∈ rest.head?, Ends c) :
    prefixed? (first :: (more ++ (literal.suffixes ++ rest))) = none := by
  refine prefixed?_eq_none fun c isHead isLetter => ?_
  cases more with
  | nil =>
      have others : ['x', 'X', 'b', 'B'].all (fun c =>
          c ∉ ['u', 'U', 'l', 'L'] ∧ Lexeme.continuesWord c = true) = true := by decide
      obtain ⟨noSuffix, continues⟩ := of_decide_eq_true (List.all_eq_true.mp others c isLetter)
      rcases literal.head_suffixes ends c isHead with isSuffix | isEnd
      · exact noSuffix isSuffix
      · exact isEnd.ne continues rfl
  | cons second more =>
      obtain rfl := Option.some.inj isHead
      have others :
          ['x', 'X', 'b', 'B'].all (fun c => ¬(c = '_' ∨ isDigitOf 10 c = true)) = true := by
        decide
      have isDigit := literal.areDigits second (by simp [digits])
      rw [isDecimal] at isDigit
      exact of_decide_eq_true (List.all_eq_true.mp others second isLetter) isDigit

/-- A literal is scanned as a whole in front of what ends it. -/
theorem scan_spelling (ends : ∀ c ∈ rest.head?, Ends c) :
    scan (literal.spelling ++ rest) = (literal.kind, literal.spelling) := by
  have run := literal.digitRun_eq ends
  have read := literal.integer_eq ends
  have whole : literal.spelling ++ rest =
      literal.form.lead ++ (literal.digits ++ (literal.suffixes ++ rest)) := by
    simp only [spelling, List.append_assoc]
  -- behind the sign of a base the digits are read at once
  have behindSign {letter : Char} (isLead : literal.form.lead = ['0', letter])
      (isBase : (if letter = 'x' ∨ letter = 'X' then some 16
        else if letter = 'b' ∨ letter = 'B' then some 2 else none) = some literal.form.base) :
      scan (literal.spelling ++ rest) = (literal.kind, literal.spelling) := by
    rw [whole, isLead, scan, List.cons_append, List.cons_append, List.nil_append, prefixed?, isBase,
      Option.bind_some, run]
    simp only [if_neg literal.nonempty, List.drop_left, ← isLead, read, Option.getD_some]
  cases isForm : literal.form with
  | hexadecimal capital =>
      cases capital with
      | false => exact behindSign (by rw [isForm]; rfl) (by rw [isForm]; rfl)
      | true => exact behindSign (by rw [isForm]; rfl) (by rw [isForm]; rfl)
  | binary capital =>
      cases capital with
      | false => exact behindSign (by rw [isForm]; rfl) (by rw [isForm]; rfl)
      | true => exact behindSign (by rw [isForm]; rfl) (by rw [isForm]; rfl)
  | decimal =>
      obtain ⟨first, more, digits⟩ := List.exists_cons_of_ne_nil literal.nonempty
      have noSign := literal.prefixed?_of_decimal isForm digits ends
      have noTail : realTail (literal.suffixes ++ rest) = [] := by
        refine realTail_eq_nil fun c isHead => ?_
        rcases literal.head_suffixes ends c isHead with isSuffix | isEnd
        · have others : ['u', 'U', 'l', 'L'].all (fun c =>
              (c ≠ '.' ∧ ¬(c = 'e' ∨ c = 'E')) ∧ isRealSuffix c = false) = true := by decide
          exact of_decide_eq_true (List.all_eq_true.mp others c isSuffix)
        · refine ⟨⟨isEnd.noDot, ?_⟩, isEnd.isRealSuffix⟩
          rintro (isLetter | isLetter)
          · exact isEnd.ne (by decide) isLetter
          · exact isEnd.ne (by decide) isLetter
      rw [isForm] at whole run read
      rw [← List.cons_append, ← digits] at noSign
      rw [whole, show IntegerForm.decimal.lead = [] from rfl, List.nil_append, scan, noSign,
        Option.getD_none, decimal]
      simp only [show digitRun 10 _ = literal.digits from run, List.drop_left, noTail, if_true]
      exact read

end Scanning

end IntegerLiteral

end Numeral

end ErrorAccessors
