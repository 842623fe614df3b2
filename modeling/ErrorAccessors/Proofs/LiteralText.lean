/-
# Literals are read back

A text as a string literal and a number in decimal are cut from the front of a
text as one token that stands for the text or the number again.

A character of a text is spelled by itself, by a backslash and a letter, or by its
code.  Each spelling is passed as a whole on the way to the closing quote, so that
no quote within the text ends the literal, and is decoded on its own; the layout
keeps it too.  A decimal number ends in front of anything that neither continues a
word nor is a dot.
-/

import ErrorAccessors.Proofs.IntegerLiterals
import ErrorAccessors.Proofs.NeatText
import Mathlib.Tactic.IntervalCases

namespace ErrorAccessors

namespace StringLiteral

/-- The spellings of a character inside a string literal. -/
inductive Spelling (c : Char) : List Char → Prop
  | plain (noQuote : c ≠ '"') (noBackslash : c ≠ '\\') (noLineFeed : c ≠ '\n') : Spelling c [c]
  | escaped {letter : Char} (noCode : letter ≠ 'u') (noLineFeed : letter ≠ '\n')
      (value : escapeValue letter = c) : Spelling c ['\\', letter]
  | byCode (control : isControl c = true) : Spelling c ('\\' :: 'u' :: hexDigits c.toNat)

theorem spelling_encodeChar (c : Char) : Spelling c (encodeChar c) := by
  unfold encodeChar
  split_ifs with quote backslash lineFeed carriageReturn tab null control
  · exact .escaped (by decide) (by decide) (by rw [quote]; rfl)
  · exact .escaped (by decide) (by decide) (by rw [backslash]; rfl)
  · exact .escaped (by decide) (by decide) (by rw [lineFeed]; rfl)
  · exact .escaped (by decide) (by decide) (by rw [carriageReturn]; rfl)
  · exact .escaped (by decide) (by decide) (by rw [tab]; rfl)
  · exact .escaped (by decide) (by decide) (by rw [null]; rfl)
  · exact .byCode control
  · exact .plain quote backslash lineFeed

section Passing

variable (rest : List Char)

private theorem bodyLength_plain {c : Char} (noQuote : c ≠ '"') (noBackslash : c ≠ '\\')
    (noLineFeed : c ≠ '\n') :
    bodyLength (c :: rest) = ((bodyLength rest).1 + 1, (bodyLength rest).2) := by
  rw [bodyLength]
  · exact noQuote
  · exact noLineFeed
  · exact fun _ backslash _ => noBackslash backslash
  · exact fun backslash => absurd backslash noBackslash
  · exact fun _ _ backslash _ => noBackslash backslash

private theorem bodyLength_escaped {letter : Char} (noLineFeed : letter ≠ '\n') :
    bodyLength ('\\' :: letter :: rest) = ((bodyLength rest).1 + 2, (bodyLength rest).2) := by
  rw [bodyLength]
  exact noLineFeed

/-- The digits of a code are plain characters. -/
private theorem plain_hexDigits (code : Nat) :
    ∀ digit ∈ hexDigits code, digit ≠ '"' ∧ digit ≠ '\\' ∧ digit ≠ '\n' := by
  have plain :
      ∀ value < 16, hexDigit value ≠ '"' ∧ hexDigit value ≠ '\\' ∧ hexDigit value ≠ '\n' := by
    decide
  intro digit member
  simp only [hexDigits, List.mem_cons, List.not_mem_nil, or_false] at member
  rcases member with rfl | rfl | rfl | rfl <;> exact plain _ (Nat.mod_lt _ (by decide))

/-- No spelling ends a literal. -/
theorem Spelling.bodyLength_append {c : Char} {spelling : List Char}
    (spells : Spelling c spelling) :
    bodyLength (spelling ++ rest) =
      (spelling.length + (bodyLength rest).1, (bodyLength rest).2) := by
  have digits : ∀ digits : List Char,
      (∀ digit ∈ digits, digit ≠ '"' ∧ digit ≠ '\\' ∧ digit ≠ '\n') →
        bodyLength (digits ++ rest) =
          (digits.length + (bodyLength rest).1, (bodyLength rest).2) := by
    intro digits plain
    induction digits with
    | nil => rw [List.nil_append, List.length_nil, Nat.zero_add]
    | cons digit digits ih =>
        obtain ⟨⟨noQuote, noBackslash, noLineFeed⟩, later⟩ := List.forall_mem_cons.mp plain
        rw [List.cons_append, bodyLength_plain _ noQuote noBackslash noLineFeed, ih later,
          List.length_cons, Nat.add_right_comm]
  cases spells with
  | plain noQuote noBackslash noLineFeed =>
      exact digits [c] (List.forall_mem_singleton.mpr ⟨noQuote, noBackslash, noLineFeed⟩)
  | escaped noCode noLineFeed value =>
      rw [List.cons_append, List.cons_append, List.nil_append, bodyLength_escaped rest noLineFeed,
        Nat.add_comm]
      rfl
  | byCode control =>
      rw [List.cons_append, List.cons_append, bodyLength_escaped _ (by decide),
        digits _ (plain_hexDigits _)]
      simp only [List.length_cons]
      rw [Nat.add_right_comm]

end Passing

section Decoding

variable (rest : List Char)

theorem decode_plain {c : Char} (noBackslash : c ≠ '\\') :
    decode (c :: rest) = c :: decode rest := by
  rw [decode]
  · exact fun backslash _ => noBackslash backslash
  · exact fun _ _ _ _ _ backslash _ => noBackslash backslash
  · exact fun _ backslash _ => noBackslash backslash
  · exact fun _ _ backslash _ => noBackslash backslash

theorem decode_escaped {letter : Char} (noCode : letter ≠ 'u') :
    decode ('\\' :: letter :: rest) = escapeValue letter :: decode rest := by
  rw [decode]
  · exact fun _ _ _ _ _ isCode _ => noCode isCode
  · exact noCode

/-- The code of a control character stands for that character. -/
private theorem unicodeEscape_hexDigits {c : Char} (control : isControl c = true) :
    unicodeEscape (hexDigits c.toNat) = [c] := by
  have known : ∀ code < 0xa0, unicodeEscape (hexDigits code) = [Char.ofNat code] := by
    decide +kernel
  have small : c.toNat < 0xa0 := by
    simp only [isControl, Bool.or_eq_true, Bool.and_eq_true, decide_eq_true_eq] at control
    omega
  rw [known _ small, Char.ofNat_toNat]

/-- Every spelling is decoded on its own. -/
theorem Spelling.decode_append {c : Char} {spelling : List Char} (spells : Spelling c spelling) :
    decode (spelling ++ rest) = c :: decode rest := by
  cases spells with
  | plain noQuote noBackslash noLineFeed => exact decode_plain rest noBackslash
  | escaped noCode noLineFeed value =>
      rw [List.cons_append, List.cons_append, List.nil_append, decode_escaped rest noCode, value]
  | byCode control =>
      show unicodeEscape (hexDigits c.toNat) ++ decode rest = _
      rw [unicodeEscape_hexDigits control]
      rfl

end Decoding

section Layout

open Layout

/-- Characters that neither end a literal nor begin an escape are kept. -/
private theorem exists_shrinkAfter_plain {plain : List Char}
    (arePlain : ∀ c ∈ plain, c ≠ '"' ∧ c ≠ '\\') (afterSpace : Bool) (rest : List Char) :
    ∃ behindSpace, shrinkAfter afterSpace (Region.mark .string (plain ++ rest)) =
      plain ++ shrinkAfter behindSpace (Region.mark .string rest) := by
  induction plain generalizing afterSpace with
  | nil => exact ⟨afterSpace, rfl⟩
  | cons c plain ih =>
      obtain ⟨⟨noQuote, noBackslash⟩, later⟩ := List.forall_mem_cons.mp arePlain
      obtain ⟨behindSpace, kept⟩ := ih later (c == ' ')
      refine ⟨behindSpace, ?_⟩
      have marked : Region.mark .string (c :: (plain ++ rest)) =
          (c, .string) :: Region.mark .string (plain ++ rest) := by
        rw [Region.mark]
        · exact fun _ _ backslash _ => noBackslash backslash
        · exact noQuote
      rw [List.cons_append, marked, shrinkAfter_cons, if_neg (by simp), kept, List.cons_append]

/-- The layout keeps every spelling. -/
private theorem Spelling.exists_shrinkAfter {c : Char} {spelling : List Char}
    (spells : Spelling c spelling) (afterSpace : Bool) (rest : List Char) :
    ∃ behindSpace, shrinkAfter afterSpace (Region.mark .string (spelling ++ rest)) =
      spelling ++ shrinkAfter behindSpace (Region.mark .string rest) := by
  have escape (letter : Char) (rest : List Char) :
      shrinkAfter afterSpace (Region.mark .string ('\\' :: letter :: rest)) =
        '\\' :: letter :: shrinkAfter (letter == ' ') (Region.mark .string rest) :=
    rfl
  cases spells with
  | plain noQuote noBackslash noLineFeed =>
      exact exists_shrinkAfter_plain (List.forall_mem_singleton.mpr ⟨noQuote, noBackslash⟩) _ _
  | @escaped letter noCode noLineFeed value => exact ⟨letter == ' ', escape letter rest⟩
  | byCode control =>
      obtain ⟨behindSpace, kept⟩ := exists_shrinkAfter_plain
        (fun digit member => ⟨(plain_hexDigits c.toNat digit member).1,
          (plain_hexDigits c.toNat digit member).2.1⟩) ('u' == ' ') rest
      exact ⟨behindSpace, by rw [List.cons_append, List.cons_append, escape, kept]; rfl⟩

private theorem Spelling.noLineEnd {c : Char} {spelling : List Char}
    (spells : Spelling c spelling) : '\n' ∉ spelling := by
  cases spells with
  | plain noQuote noBackslash noLineFeed => simpa using Ne.symm noLineFeed
  | escaped noCode noLineFeed value => simpa using Ne.symm noLineFeed
  | byCode control =>
      intro member
      have inDigits : '\n' ∈ hexDigits c.toNat := by simpa using member
      exact (plain_hexDigits _ _ inDigits).2.2 rfl

/-- The layout keeps a text as a string literal. -/
theorem neat_encode (text : List Char) : Neat ('"' :: (encodeBody text ++ ['"'])) := by
  have body (text rest : List Char) (afterSpace : Bool) :
      shrinkAfter afterSpace (Region.mark .string (encodeBody text ++ '"' :: rest)) =
        encodeBody text ++ '"' :: shrinkAfter false (Region.mark .code rest) := by
    induction text generalizing afterSpace with
    | nil => rfl
    | cons c text ih =>
        obtain ⟨behindSpace, kept⟩ := (spelling_encodeChar c).exists_shrinkAfter afterSpace
          (encodeBody text ++ '"' :: rest)
        show shrinkAfter afterSpace
          (Region.mark .string (encodeChar c ++ encodeBody text ++ '"' :: rest)) =
          encodeChar c ++ encodeBody text ++ '"' :: _
        rw [List.append_assoc, kept, ih, List.append_assoc]
  refine ⟨⟨'"', _, rfl, by decide⟩, ⟨'"' :: encodeBody text, '"', rfl, by decide⟩,
    ?_, fun afterSpace rest => ?_⟩
  · have noLineEnd : '\n' ∉ encodeBody text := by
      intro member
      obtain ⟨c, -, within⟩ := List.mem_flatMap.mp member
      exact (spelling_encodeChar c).noLineEnd within
    simp [noLineEnd]
  · have opened (rest : List Char) : Region.mark .code ('"' :: rest) =
        ('"', .code) :: Region.mark .string rest :=
      rfl
    rw [List.cons_append, List.append_assoc, List.singleton_append, opened,
      shrinkAfter_of_noSpace (by decide), body]
    simp

end Layout

/-- The body of a literal reaches up to its closing quote. -/
theorem bodyLength_encodeBody (text rest : List Char) :
    bodyLength (encodeBody text ++ '"' :: rest) = ((encodeBody text).length, true) := by
  induction text with
  | nil => rfl
  | cons c text ih =>
      show bodyLength (encodeChar c ++ encodeBody text ++ '"' :: rest) = _
      rw [List.append_assoc, (spelling_encodeChar c).bodyLength_append, ih, ← List.length_append]
      rfl

/-- The body of a literal stands for the text that it was made from. -/
theorem decode_encodeBody (text : List Char) : decode (encodeBody text) = text := by
  induction text with
  | nil => rfl
  | cons c text ih =>
      show decode (encodeChar c ++ encodeBody text) = _
      rw [(spelling_encodeChar c).decode_append, ih]

end StringLiteral

namespace Numeral

section Decimal

variable {rest : List Char}

/-- The value of a decimal digit. -/
private theorem digitValue?_of_isDigit {d : Char} (isDigit : d.isDigit = true) :
    digitValue? d = some (d.toNat - '0'.toNat) := by
  simp only [Char.isDigit, Bool.and_eq_true, decide_eq_true_eq] at isDigit
  exact if_pos isDigit

private theorem isDigitOf_of_isDigit {d : Char} (isDigit : d.isDigit = true) :
    isDigitOf 10 d = true := by
  have small : d.toNat ≤ '9'.toNat := by
    simp only [Char.isDigit, Bool.and_eq_true, decide_eq_true_eq] at isDigit
    exact isDigit.2
  unfold isDigitOf
  rw [digitValue?_of_isDigit isDigit]
  have bound : '9'.toNat - '0'.toNat < 10 := by decide
  exact decide_eq_true (by omega)

/-- The digits of a number denote it. -/
private theorem valueOf_toDigits (n : Nat) : valueOf 10 (Nat.toDigits 10 n) = n := by
  have values : ∀ (digits : List Char) (total : Nat), (∀ d ∈ digits, d.isDigit = true) →
      (digits.filterMap digitValue?).foldl (fun total digit => total * 10 + digit) total =
        Nat.ofDigitChars 10 digits total := by
    intro digits
    induction digits with
    | nil => exact fun _ _ => rfl
    | cons d digits ih =>
        intro total areDigits
        obtain ⟨isDigit, later⟩ := List.forall_mem_cons.mp areDigits
        rw [List.filterMap_cons_some (digitValue?_of_isDigit isDigit), List.foldl_cons, ih _ later,
          Nat.ofDigitChars_cons, Nat.mul_comm]
  unfold valueOf
  rw [values _ 0 fun d member => Nat.isDigit_of_mem_toDigits (by decide) (by decide) member]
  exact Nat.ofDigitChars_toDigits (by decide) (by decide)

/-- The token that a number in decimal is read as. -/
def decimalKind (n : Nat) : TokenKind :=
  integerKind 10 (Nat.toDigits 10 n) (Nat.toDigits 10 n)

/-- A number in decimal as a literal. -/
private def decimalLiteral (n : Nat) : IntegerLiteral where
  form := .decimal
  digits := Nat.toDigits 10 n
  suffixes := []
  nonempty := by simp
  areDigits := fun _ member =>
    .inr (isDigitOf_of_isDigit (Nat.isDigit_of_mem_toDigits (by decide) (by decide) member))
  begins := by
    rintro - isHead
    have isDigit : '_'.isDigit = true :=
      Nat.isDigit_of_mem_toDigits (by decide) (by decide) (List.mem_of_mem_head? isHead)
    exact absurd isDigit (by decide)
  areSuffixes := by simp

private theorem spelling_decimalLiteral (n : Nat) :
    (decimalLiteral n).spelling = Nat.toDigits 10 n :=
  List.append_nil _

private theorem kind_decimalLiteral (n : Nat) : (decimalLiteral n).kind = decimalKind n := by
  rw [← IntegerLiteral.integerKind_eq, spelling_decimalLiteral]
  rfl

/-- The tokens of a number in decimal, behind a minus sign if it is negative. -/
def codeKinds : Int → List TokenKind
  | .ofNat value => [decimalKind value]
  | .negSucc less => [.mark .minus, decimalKind (less + 1)]

/-- The digits of a number, behind a minus sign if it is negative. -/
theorem toList_toString_int (code : Int) :
    (toString code).toList = match code with
      | .ofNat value => Nat.toDigits 10 value
      | .negSucc less => '-' :: Nat.toDigits 10 (less + 1) := by
  cases code with
  | ofNat value => exact String.toList_ofList
  | negSucc less =>
      have digits :
          (Nat.repr (less + 1)).toList = Nat.toDigits 10 (less + 1) := String.toList_ofList
      show ("-" ++ Nat.repr (less + 1)).toList = '-' :: Nat.toDigits 10 (less + 1)
      rw [String.toList_append, digits]
      rfl

/-- A number that fits a word is read as an integer. -/
theorem decimalKind_of_fits {n : Nat} (fits : n < wordCount) :
    decimalKind n = .integer (signedWord n) := by
  have someDigit : (Nat.toDigits 10 n).all (· = '_') = false := by
    cases digits : Nat.toDigits 10 n with
    | nil => exact absurd digits (by simp)
    | cons d more =>
        have isDigit : d.isDigit = true :=
          Nat.isDigit_of_mem_toDigits (by decide) (by decide) (digits ▸ List.mem_cons_self)
        have noSeparator : d ≠ '_' := by
          rintro rfl
          exact absurd isDigit (by decide)
        simp [noSeparator]
  simp only [decimalKind, integerKind, someDigit, Bool.false_eq_true, if_false, valueOf_toDigits,
    Nat.not_le.mpr fits]

end Decimal

end Numeral

namespace Lexeme

/-- A text as a string literal is one token, which stands for the text. -/
theorem first_of_encode (text rest : List Char) :
    first '"' (StringLiteral.encodeBody text ++ '"' :: rest) =
      token ((StringLiteral.encodeBody text).length + 1) (.string (String.ofList text)) := by
  show regularString _ = _
  rw [regularString, StringLiteral.bodyLength_encodeBody]
  simp only [List.take_left, StringLiteral.decode_encodeBody]

/-- Nothing but a number begins with a digit. -/
theorem first_of_isDigit {c : Char} (isDigit : c.isDigit = true) (rest : List Char) :
    first c rest =
      token ((Numeral.scan (c :: rest)).2.length - 1) (Numeral.scan (c :: rest)).1 := by
  have known : ∀ code ≤ 57, 48 ≤ code →
      isBlank (Char.ofNat code) = false ∧ beginsWord (Char.ofNat code) = false ∧
        Numeral.isDigitOf 10 (Char.ofNat code) = true ∧
        Char.ofNat code ∉ ['/', '#', '"', '@', '$', '\'', ':', '='] := by
    decide
  have between : 48 ≤ c.toNat ∧ c.toNat ≤ 57 := by
    simp only [Char.isDigit, Bool.and_eq_true, decide_eq_true_eq] at isDigit
    exact isDigit
  obtain ⟨noBlank, noWord, digit, noMark⟩ := known c.toNat between.2 between.1
  rw [Char.ofNat_toNat] at noBlank noWord digit noMark
  simp only [List.mem_cons, List.not_mem_nil, or_false, not_or] at noMark
  obtain ⟨noSlash, noHash, noQuote, noAt, noDollar, noApostrophe, noColon, noEquals⟩ := noMark
  rw [first_unquoted rest (by simp [noBlank]) noSlash noHash noQuote noAt noDollar noApostrophe,
    if_neg (by simp [noColon]), if_neg (by simp [noEquals]), if_neg (by simp [noWord]),
    if_pos digit]

/-- An integer literal is one token. -/
theorem first_of_literal (literal : Numeral.IntegerLiteral) {digit : Char} {more rest : List Char}
    (spelling : literal.spelling = digit :: more) (ends : ∀ c ∈ rest.head?, Numeral.Ends c) :
    first digit (more ++ rest) = token more.length literal.kind := by
  have scanned := literal.scan_spelling ends
  rw [spelling, List.cons_append] at scanned
  rw [first_of_isDigit (literal.isDigit_of_spelling spelling), scanned]
  rfl

/-- A number in decimal is one token. -/
theorem first_of_toDigits {n : Nat} {digit : Char} {more rest : List Char}
    (digits : Nat.toDigits 10 n = digit :: more) (ends : ∀ c ∈ rest.head?, Numeral.Ends c) :
    first digit (more ++ rest) = token more.length (Numeral.decimalKind n) := by
  rw [← Numeral.kind_decimalLiteral]
  exact first_of_literal _ ((Numeral.spelling_decimalLiteral n).trans digits) ends

end Lexeme

namespace Writes

open Lexeme

variable {text : List Char} {kinds : List TokenKind}

/-- A text as a string literal in front of what writes anything. -/
theorem behind_literal (message : List Char) (writes : Writes text kinds) :
    Writes ('"' :: (StringLiteral.encodeBody message ++ '"' :: text))
      (.string (String.ofList message) :: kinds) := by
  obtain ⟨chunks, rfl, rfl, cut⟩ := writes
  refine ⟨⟨'"', StringLiteral.encodeBody message ++ ['"'],
    some (.string (String.ofList message))⟩ :: chunks, by simp, rfl, fun rest apart => ?_⟩
  have read := first_of_encode message (Chunk.textOf chunks ++ rest)
  have covers : (StringLiteral.encodeBody message ++ ['"']) ++ (Chunk.textOf chunks ++ rest) =
      StringLiteral.encodeBody message ++ '"' :: (Chunk.textOf chunks ++ rest) := by
    simp
  apply Chunk.CutBefore.cons
  · rw [covers, read]
    rfl
  · rw [covers, read, ← covers]
    exact List.take_left' (by simp [token])
  · exact cut rest (@Apart.of_append ('"' :: (StringLiteral.encodeBody message ++ ['"'])) _ _
      (by simpa using apart))

/-- An integer literal in front of what writes anything and does not continue it. -/
theorem behind_integer (literal : Numeral.IntegerLiteral) {c : Char} (ends : Numeral.Ends c)
    (writes : Writes (c :: text) kinds) :
    Writes (literal.spelling ++ c :: text) (literal.kind :: kinds) := by
  obtain ⟨chunks, isText, rfl, cut⟩ := writes
  obtain ⟨digit, more, spelling⟩ := literal.exists_spelling
  refine ⟨⟨digit, more, some literal.kind⟩ :: chunks,
    by rw [Chunk.textOf_cons, isText, spelling]; rfl, rfl, fun rest apart => ?_⟩
  rw [spelling] at apart
  have read : first digit (more ++ c :: (text ++ rest)) = _ :=
    first_of_literal literal spelling fun d isHead => Option.some.inj isHead ▸ ends
  apply Chunk.CutBefore.cons
  · rw [isText, List.cons_append, read]
    rfl
  · rw [isText, List.cons_append, read]
    exact List.take_left
  · exact cut rest (@Apart.of_append (digit :: more) _ _ apart)

/-- A number in decimal in front of what writes anything and does not continue
it. -/
theorem behind_number (n : Nat) {c : Char} (ends : Numeral.Ends c)
    (writes : Writes (c :: text) kinds) :
    Writes (Nat.toDigits 10 n ++ c :: text) (Numeral.decimalKind n :: kinds) := by
  rw [← Numeral.spelling_decimalLiteral, ← Numeral.kind_decimalLiteral]
  exact behind_integer _ ends writes

/-- A code in front of what writes anything and does not continue it. -/
theorem behind_code (code : Int) {c : Char} (ends : Numeral.Ends c)
    (writes : Writes (c :: text) kinds) :
    Writes ((toString code).toList ++ c :: text) (Numeral.codeKinds code ++ kinds) := by
  rw [Numeral.toList_toString_int]
  cases code with
  | ofNat value => exact writes.behind_number value ends
  | negSucc less => exact (writes.behind_number (less + 1) ends).behind_mark rfl (by decide)

end Writes

namespace WritesNeatly

variable {text : List Char} {kinds : List TokenKind}

/-- A text as a string literal in front of what writes anything. -/
theorem behind_literal (message : String) (written : WritesNeatly text kinds) :
    WritesNeatly ((StringLiteral.encode message).toList ++ text) (.string message :: kinds) := by
  have isText : (StringLiteral.encode message).toList =
      '"' :: (StringLiteral.encodeBody message.toList ++ ['"']) := by
    simp [StringLiteral.encode]
  have writes := written.writes.behind_literal message.toList
  rw [String.ofList_toList] at writes
  refine ⟨?_, ?_⟩
  · rw [isText]
    simpa using writes
  · rw [isText]
    exact (StringLiteral.neat_encode message.toList).append written.neat

private theorem isSolid_of_isDigit {c : Char} (isDigit : c.isDigit = true) :
    Layout.isSolid c = true := by
  have known : ∀ code ≤ 57, 48 ≤ code → Layout.isSolid (Char.ofNat code) = true := by
    decide
  have between : 48 ≤ c.toNat ∧ c.toNat ≤ 57 := by
    simp only [Char.isDigit, Bool.and_eq_true, decide_eq_true_eq] at isDigit
    exact isDigit
  rw [← Char.ofNat_toNat c]
  exact known c.toNat between.2 between.1

/-- A code in front of what writes anything and does not continue it. -/
theorem behind_code (code : Int) {c : Char} (ends : Numeral.Ends c)
    (written : WritesNeatly (c :: text) kinds) :
    WritesNeatly ((toString code).toList ++ c :: text) (Numeral.codeKinds code ++ kinds) := by
  have digits (n : Nat) : Layout.Neat (Nat.toDigits 10 n) :=
    .of_solid (by simp) fun d member =>
      isSolid_of_isDigit (Nat.isDigit_of_mem_toDigits (by decide) (by decide) member)
  refine ⟨written.writes.behind_code code ends, ?_⟩
  rw [Numeral.toList_toString_int]
  cases code with
  | ofNat value => exact (digits value).append written.neat
  | negSucc less =>
      have solid : ['-'].all Layout.isSolid = true := by decide
      have minus : Layout.Neat ['-'] :=
        .of_solid (List.cons_ne_nil _ _) (List.all_eq_true.mp solid)
      exact (minus.append (digits (less + 1))).append written.neat

end WritesNeatly

end ErrorAccessors
