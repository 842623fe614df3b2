/-
# How the escapes of a string are read

The body of a string literal is read from its front, one character or one escape after
the other.  Behind a backslash a letter stands for a control character or for itself,
and a `u` takes the next characters, up to four, for the code of a character; where they
are no code, all of the escape is kept.

A code should be four hexadecimal digits.  The numbers that are accepted as a code are
more than these: a plus sign may stand in front of the digits, and at the end of the
body fewer of them are enough.  Apart from such a number every body is read as it
should be, and with one it never is, for the escape should be kept and becomes a
character.
-/

import ErrorAccessors.Proofs.LiteralText

namespace ErrorAccessors.StringLiteral

open Numeral

/-- The control characters that have a letter. -/
def controls : List (Char × Char) :=
  [('n', '\n'), ('t', '\t'), ('r', '\r'), ('0', '\x00'), ('a', '\x07'), ('b', '\x08'),
    ('f', '\x0c'), ('v', '\x0b')]

/-- What a letter behind a backslash stands for: its control character, or itself if it
has none. -/
def Escapes (letter value : Char) : Prop :=
  (letter, value) ∈ controls ∨ value = letter ∧ ∀ control ∈ controls, control.1 ≠ letter

/-- The characters that belong to a code in front of a rest: four, or all there are. -/
def IsChunk (chunk rest : List Char) : Prop :=
  chunk.length = 4 ∨ chunk.length < 4 ∧ rest = []

/-- What the body of a string literal is read as, for the numbers that are accepted as the
code of a character. -/
inductive Reads (code? : List Char → Option Nat) : List Char → List Char → Prop
  | nil : Reads code? [] []
  | plain {c : Char} {body text : List Char} (noBackslash : c ≠ '\\')
      (behind : Reads code? body text) : Reads code? (c :: body) (c :: text)
  | backslash : Reads code? ['\\'] ['\\']
  | escaped {letter value : Char} {body text : List Char} (noCode : letter ≠ 'u')
      (escapes : Escapes letter value) (behind : Reads code? body text) :
      Reads code? ('\\' :: letter :: body) (value :: text)
  | coded {chunk body text : List Char} {c : Char} (isChunk : IsChunk chunk body)
      (isCode : code? chunk = some c.toNat) (behind : Reads code? body text) :
      Reads code? ('\\' :: 'u' :: (chunk ++ body)) (c :: text)
  | kept {chunk body text : List Char} (isChunk : IsChunk chunk body)
      (noCode : ∀ c : Char, code? chunk ≠ some c.toNat) (behind : Reads code? body text) :
      Reads code? ('\\' :: 'u' :: (chunk ++ body)) ('\\' :: 'u' :: (chunk ++ text))

/-- The number of exactly four hexadecimal digits. -/
def fourDigits? (chunk : List Char) : Option Nat :=
  if chunk.length = 4 ∧ chunk.all (isDigitOf 16) = true then some (valueOf 16 chunk) else none

/-- Characters that are a number without being four digits: there is a plus sign in front
of the digits, or fewer digits. -/
def IsLax (chunk : List Char) : Prop :=
  ∃ digits, (chunk = '+' :: digits ∨ chunk = digits ∧ digits.length < 4) ∧
    digits ≠ [] ∧ ∀ c ∈ digits, isDigitOf 16 c = true

/-- The characters that are taken for codes in a body. -/
def unicodeChunks : List Char → List (List Char)
  | [] => []
  | '\\' :: 'u' :: a :: b :: c :: d :: rest => [a, b, c, d] :: unicodeChunks rest
  | '\\' :: 'u' :: digits => [digits]
  | '\\' :: _ :: rest => unicodeChunks rest
  | _ :: rest => unicodeChunks rest

section Escapes

variable {letter value : Char}

/-- The value of an escape is what its letter stands for. -/
theorem escapes_escapeValue (letter : Char) : Escapes letter (escapeValue letter) := by
  unfold escapeValue
  split_ifs with n t r zero a b f v
  case neg =>
    refine .inr ⟨rfl, ?_⟩
    simp only [controls, List.forall_mem_cons]
    exact ⟨Ne.symm n, Ne.symm t, Ne.symm r, Ne.symm zero, Ne.symm a, Ne.symm b, Ne.symm f,
      Ne.symm v, List.forall_mem_nil _⟩
  all_goals
    subst letter
    exact .inl (by decide)

/-- A letter stands for one character only. -/
theorem Escapes.eq_escapeValue (escapes : Escapes letter value) : value = escapeValue letter := by
  have table : ∀ control ∈ controls, control.2 = escapeValue control.1 := by decide
  rcases escapes with known | ⟨rfl, unknown⟩
  · exact table _ known
  · rcases escapes_escapeValue value with known | ⟨itself, -⟩
    · exact absurd rfl (unknown _ known)
    · exact itself.symm

end Escapes

section Chunks

variable {chunk rest : List Char}

theorem decode_chunk (isChunk : IsChunk chunk rest) :
    decode ('\\' :: 'u' :: (chunk ++ rest)) = unicodeEscape chunk ++ decode rest := by
  rcases isChunk with full | ⟨short, rfl⟩
  · match chunk, full with
    | [a, b, c, d], _ => rfl
  · match chunk, short with
    | [], _ | [_], _ | [_, _], _ | [_, _, _], _ => exact (List.append_nil _).symm

theorem unicodeChunks_chunk (isChunk : IsChunk chunk rest) :
    unicodeChunks ('\\' :: 'u' :: (chunk ++ rest)) = chunk :: unicodeChunks rest := by
  rcases isChunk with full | ⟨short, rfl⟩
  · match chunk, full with
    | [a, b, c, d], _ => rfl
  · match chunk, short with
    | [], _ | [_], _ | [_, _], _ | [_, _, _], _ => rfl

theorem unicodeChunks_plain {c : Char} (noBackslash : c ≠ '\\') :
    unicodeChunks (c :: rest) = unicodeChunks rest := by
  rw [unicodeChunks]
  · exact fun _ _ _ _ _ backslash _ => noBackslash backslash
  · exact fun _ backslash _ => noBackslash backslash
  · exact fun _ _ backslash _ => noBackslash backslash

theorem unicodeChunks_escaped {letter : Char} (noCode : letter ≠ 'u') :
    unicodeChunks ('\\' :: letter :: rest) = unicodeChunks rest := by
  rw [unicodeChunks]
  · exact fun _ _ _ _ _ isCode _ => noCode isCode
  · exact noCode

end Chunks

section Codes

/-- The character of a code is the one with this code. -/
theorem charOfCode?_eq_some_iff {code : Nat} {c : Char} :
    charOfCode? code = some c ↔ code = c.toNat := by
  constructor
  · intro found
    by_cases valid : code.isValidChar
    · rw [charOfCode?, dif_pos valid] at found
      obtain rfl := Option.some.inj found
      rfl
    · rw [charOfCode?, dif_neg valid] at found
      cases found
  · rintro rfl
    exact dif_pos (show c.toNat.isValidChar from c.valid)

/-- An escape with a code stands for the character, and one without is kept. -/
theorem unicodeEscape_cases (chunk : List Char) :
    (∃ c : Char, hexNumber? chunk = some c.toNat ∧ unicodeEscape chunk = [c]) ∨
      (∀ c : Char, hexNumber? chunk ≠ some c.toNat) ∧
        unicodeEscape chunk = '\\' :: 'u' :: chunk := by
  unfold unicodeEscape
  cases found : (hexNumber? chunk).bind charOfCode? with
  | some c =>
      obtain ⟨code, isCode, isChar⟩ := Option.bind_eq_some_iff.mp found
      rw [charOfCode?_eq_some_iff] at isChar
      exact .inl ⟨c, isCode.trans (congrArg some isChar), rfl⟩
  | none =>
      refine .inr ⟨fun c isCode => ?_, rfl⟩
      rw [isCode, Option.bind_some, charOfCode?_eq_some_iff.mpr rfl] at found
      cases found

end Codes

/-- Every body is read by its escapes, for the numbers that are accepted. -/
theorem reads_decode (body : List Char) : Reads hexNumber? body (decode body) := by
  have chunk {chunk rest : List Char} (isChunk : IsChunk chunk rest)
      (behind : Reads hexNumber? rest (decode rest)) :
      Reads hexNumber? ('\\' :: 'u' :: (chunk ++ rest))
        (decode ('\\' :: 'u' :: (chunk ++ rest))) := by
    rw [decode_chunk isChunk]
    rcases unicodeEscape_cases chunk with ⟨c, isCode, isChar⟩ | ⟨noCode, isKept⟩
    · rw [isChar]
      exact .coded isChunk isCode behind
    · rw [isKept]
      exact .kept isChunk noCode behind
  induction body using decode.induct with
  | case1 => exact .nil
  | case2 => exact .backslash
  | case3 a b c d rest ih => exact @chunk [a, b, c, d] rest (.inl rfl) ih
  | case4 digits short =>
      have few : digits.length < 4 := by
        match digits with
        | [] | [_] | [_, _] | [_, _, _] => simp
        | a :: b :: c :: d :: rest => exact absurd rfl (short a b c d rest)
      have read := @chunk digits [] (.inr ⟨few, rfl⟩) .nil
      rwa [List.append_nil] at read
  | case5 letter rest _ noCode ih =>
      rw [decode_escaped _ noCode]
      exact .escaped noCode (escapes_escapeValue letter) ih
  | case6 c rest noLone _ _ noEscape ih =>
      have noBackslash : c ≠ '\\' := by
        rintro rfl
        cases rest with
        | nil => exact noLone rfl rfl
        | cons letter rest => exact noEscape letter rest rfl rfl
      rw [decode_plain _ noBackslash]
      exact .plain noBackslash ih

section Readings

variable {code? : List Char → Option Nat} {body text : List Char}

/-- The characters of a code are told by what they stand in. -/
theorem IsChunk.unique {chunk rest other more : List Char} (isChunk : IsChunk chunk rest)
    (isOther : IsChunk other more) (same : chunk ++ rest = other ++ more) :
    chunk = other ∧ rest = more := by
  have lengths := congrArg List.length same
  simp only [List.length_append] at lengths
  refine List.append_inj same ?_
  rcases isChunk with full | ⟨short, noRest⟩
  · rcases isOther with otherFull | ⟨otherShort, noMore⟩
    · exact full.trans otherFull.symm
    · rw [noMore, List.length_nil] at lengths
      omega
  · rw [noRest, List.length_nil] at lengths
    rcases isOther with otherFull | ⟨otherShort, noMore⟩
    · omega
    · rw [noMore, List.length_nil] at lengths
      omega

/-- A body that begins with a chunk is read as a character or as the chunk, and then by
what is behind. -/
theorem Reads.of_chunk {chunk rest : List Char} (isChunk : IsChunk chunk rest)
    (reads : Reads code? ('\\' :: 'u' :: (chunk ++ rest)) text) :
    ∃ behind, Reads code? rest behind ∧
      ((∃ c : Char, code? chunk = some c.toNat ∧ text = c :: behind) ∨
        (∀ c : Char, code? chunk ≠ some c.toNat) ∧ text = '\\' :: 'u' :: (chunk ++ behind)) := by
  generalize isBody : '\\' :: 'u' :: (chunk ++ rest) = body at reads
  cases reads with
  | nil | backslash => cases isBody
  | plain noBackslash _ => exact absurd (List.cons.inj isBody).1.symm noBackslash
  | escaped noCode _ _ => exact absurd (List.cons.inj (List.cons.inj isBody).2).1.symm noCode
  | coded isOther isCode behind =>
      obtain ⟨rfl, rfl⟩ := isChunk.unique isOther (List.cons.inj (List.cons.inj isBody).2).2
      exact ⟨_, behind, .inl ⟨_, isCode, rfl⟩⟩
  | kept isOther noCode behind =>
      obtain ⟨rfl, rfl⟩ := isChunk.unique isOther (List.cons.inj (List.cons.inj isBody).2).2
      exact ⟨_, behind, .inr ⟨noCode, rfl⟩⟩

/-- A body is read as one text only. -/
theorem Reads.unique {other : List Char} (reads : Reads code? body text)
    (reads' : Reads code? body other) : text = other := by
  induction reads generalizing other with
  | nil =>
      cases reads'
      rfl
  | backslash =>
      cases reads' with
      | plain noBackslash _ => exact absurd rfl noBackslash
      | backslash => rfl
  | @plain c body text noBackslash _ ih =>
      cases reads' with
      | plain _ behind => rw [ih behind]
      | backslash | escaped _ _ _ | coded _ _ _ | kept _ _ _ => exact absurd rfl noBackslash
  | @escaped letter value body text noCode escapes _ ih =>
      cases reads' with
      | plain noBackslash _ => exact absurd rfl noBackslash
      | escaped _ escapes' behind => rw [ih behind, escapes.eq_escapeValue, escapes'.eq_escapeValue]
      | coded _ _ _ | kept _ _ _ => exact absurd rfl noCode
  | @coded chunk body text c isChunk isCode _ ih =>
      obtain ⟨behind, later, ⟨d, isCode', rfl⟩ | ⟨noCode, -⟩⟩ := reads'.of_chunk isChunk
      · have same : c = d := Char.toNat_inj.mp (Option.some.inj (isCode.symm.trans isCode'))
        rw [ih later, same]
      · exact absurd isCode (noCode c)
  | @kept chunk body text isChunk noCode _ ih =>
      obtain ⟨behind, later, ⟨d, isCode, -⟩ | ⟨-, rfl⟩⟩ := reads'.of_chunk isChunk
      · exact absurd isCode (noCode d)
      · rw [ih later]

/-- What can be read for some numbers can be read for any. -/
theorem Reads.exists_reads (reads : Reads code? body text) (other? : List Char → Option Nat) :
    ∃ other, Reads other? body other := by
  have chunk {chunk rest : List Char} (isChunk : IsChunk chunk rest)
      (behind : ∃ other, Reads other? rest other) :
      ∃ other, Reads other? ('\\' :: 'u' :: (chunk ++ rest)) other := by
    obtain ⟨other, behind⟩ := behind
    by_cases isCode : ∃ c : Char, other? chunk = some c.toNat
    · obtain ⟨c, isCode⟩ := isCode
      exact ⟨_, .coded isChunk isCode behind⟩
    · exact ⟨_, .kept isChunk (not_exists.mp isCode) behind⟩
  induction reads with
  | nil => exact ⟨_, .nil⟩
  | backslash => exact ⟨_, .backslash⟩
  | plain noBackslash _ ih => exact ih.imp' _ fun _ behind => .plain noBackslash behind
  | escaped noCode escapes _ ih => exact ih.imp' _ fun _ behind => .escaped noCode escapes behind
  | coded isChunk _ _ ih => exact chunk isChunk ih
  | kept isChunk _ _ ih => exact chunk isChunk ih

end Readings

section Numbers

variable {chunk : List Char}

/-- The numbers that are accepted are those of some digits, behind a plus sign or alone. -/
theorem hexNumber?_eq_some_iff {code : Nat} :
    hexNumber? chunk = some code ↔
      ∃ digits, (chunk = '+' :: digits ∨ chunk = digits) ∧ digits ≠ [] ∧
        (∀ c ∈ digits, isDigitOf 16 c = true) ∧ code = valueOf 16 digits := by
  have number (digits : List Char) :
      (if digits ≠ [] ∧ digits.all (isDigitOf 16) = true then some (valueOf 16 digits) else none) =
          some code ↔
        digits ≠ [] ∧ (∀ c ∈ digits, isDigitOf 16 c = true) ∧ code = valueOf 16 digits := by
    rw [Option.ite_none_right_eq_some, List.all_eq_true, Option.some.injEq, and_assoc,
      @eq_comm _ code]
  have noSign : isDigitOf 16 '+' = false := by decide
  by_cases signed : ∃ digits, chunk = '+' :: digits
  · obtain ⟨digits, rfl⟩ := signed
    refine (number digits).trans ⟨fun isNumber => ⟨digits, .inl rfl, isNumber⟩, ?_⟩
    rintro ⟨others, isSigned | rfl, nonempty, areDigits, isCode⟩
    · obtain rfl := (List.cons.inj isSigned).2
      exact ⟨nonempty, areDigits, isCode⟩
    · have isDigit := areDigits '+' List.mem_cons_self
      rw [noSign] at isDigit
      cases isDigit
  · rw [hexNumber?, number]
    case x_1 => exact fun digits isSigned => signed ⟨digits, isSigned⟩
    refine ⟨fun isNumber => ⟨chunk, .inr rfl, isNumber⟩, ?_⟩
    rintro ⟨digits, isSigned | rfl, isNumber⟩
    · exact absurd ⟨digits, isSigned⟩ signed
    · exact isNumber

/-- Where a chunk is not lax, a number is accepted if it has four digits, and only then. -/
theorem hexNumber?_of_strict (short : chunk.length ≤ 4) (strict : ¬IsLax chunk) :
    hexNumber? chunk = fourDigits? chunk := by
  ext code
  rw [hexNumber?_eq_some_iff, fourDigits?, Option.ite_none_right_eq_some, Option.some.injEq,
    List.all_eq_true]
  constructor
  · rintro ⟨digits, isSigned | rfl, nonempty, areDigits, rfl⟩
    · exact absurd ⟨digits, .inl isSigned, nonempty, areDigits⟩ strict
    · refine ⟨⟨?_, areDigits⟩, rfl⟩
      by_contra notFour
      exact strict ⟨chunk, .inr ⟨rfl, by omega⟩, nonempty, areDigits⟩
  · rintro ⟨⟨four, areDigits⟩, rfl⟩
    exact ⟨chunk, .inr rfl, List.ne_nil_of_length_pos (by omega), areDigits, rfl⟩

/-- A lax chunk is no number of four digits. -/
theorem fourDigits?_of_lax (lax : IsLax chunk) : fourDigits? chunk = none := by
  refine if_neg ?_
  rw [List.all_eq_true]
  rintro ⟨four, areDigits⟩
  obtain ⟨digits, rfl | ⟨rfl, few⟩, -⟩ := lax
  · have isDigit := areDigits '+' List.mem_cons_self
    exact absurd isDigit (by decide)
  · omega

/-- A lax chunk becomes a character, since the number of three digits is always the code
of one. -/
theorem unicodeEscape_of_lax (short : chunk.length ≤ 4) (lax : IsLax chunk) :
    ∃ c, unicodeEscape chunk = [c] := by
  obtain ⟨digits, isChunk, nonempty, areDigits⟩ := lax
  have accepted : hexNumber? chunk = some (valueOf 16 digits) :=
    hexNumber?_eq_some_iff.mpr ⟨digits, isChunk.imp_right And.left, nonempty, areDigits, rfl⟩
  have few : digits.length ≤ 3 := by
    rcases isChunk with rfl | ⟨-, few⟩
    · rw [List.length_cons] at short
      omega
    · omega
  have small : valueOf 16 digits < 16 ^ 3 := by
    rw [valueOf_eq_ofDigits]
    refine (Nat.ofDigits_lt_base_pow_length (by decide) fun value member => ?_).trans_le
      (Nat.pow_le_pow_right (by decide) ?_)
    · obtain ⟨c, isDigit, found⟩ := List.mem_filterMap.mp (List.mem_reverse.mp member)
      obtain ⟨value', found', small⟩ := exists_digitValue? (areDigits c isDigit)
      obtain rfl := Option.some.inj (found.symm.trans found')
      exact small
    · rw [List.length_reverse]
      exact (List.length_filterMap_le _ _).trans few
  have isCode : (Char.ofNat (valueOf 16 digits)).toNat = valueOf 16 digits := by
    have valid : (valueOf 16 digits).isValidChar := .inl (by omega)
    rw [Char.ofNat, dif_pos valid]
    rfl
  rcases unicodeEscape_cases chunk with ⟨c, -, isChar⟩ | ⟨noCode, -⟩
  · exact ⟨c, isChar⟩
  · exact absurd (accepted.trans (congrArg some isCode.symm)) (noCode _)

end Numbers

section Strictness

variable {body text : List Char}

/-- A chunk has at most four characters. -/
theorem IsChunk.length_le {chunk rest : List Char} (isChunk : IsChunk chunk rest) :
    chunk.length ≤ 4 := by
  rcases isChunk with full | ⟨short, -⟩ <;> omega

/-- What is read depends only on how the chunks in the body are taken. -/
theorem Reads.congr {code? other? : List Char → Option Nat} (reads : Reads code? body text)
    (agree : ∀ chunk ∈ unicodeChunks body, chunk.length ≤ 4 → code? chunk = other? chunk) :
    Reads other? body text := by
  induction reads with
  | nil => exact .nil
  | backslash => exact .backslash
  | plain noBackslash _ ih =>
      rw [unicodeChunks_plain noBackslash] at agree
      exact .plain noBackslash (ih agree)
  | escaped noCode escapes _ ih =>
      rw [unicodeChunks_escaped noCode] at agree
      exact .escaped noCode escapes (ih agree)
  | coded isChunk isCode _ ih =>
      rw [unicodeChunks_chunk isChunk, List.forall_mem_cons] at agree
      exact .coded isChunk (agree.1 isChunk.length_le ▸ isCode) (ih agree.2)
  | kept isChunk noCode _ ih =>
      rw [unicodeChunks_chunk isChunk, List.forall_mem_cons] at agree
      exact .kept isChunk (agree.1 isChunk.length_le ▸ noCode) (ih agree.2)

/-- With four digits for a code, no body is read as less than it is decoded to, and it is
read as more as soon as it has a lax chunk. -/
theorem Reads.length_decode_le (reads : Reads fourDigits? body text) :
    (decode body).length ≤ text.length ∧
      ((decode body).length = text.length → ∀ chunk ∈ unicodeChunks body, ¬IsLax chunk) := by
  induction reads with
  | nil => simp [decode, unicodeChunks]
  | backslash => simp [decode, unicodeChunks]
  | plain noBackslash _ ih =>
      rw [decode_plain _ noBackslash, unicodeChunks_plain noBackslash]
      simpa using ih
  | escaped noCode _ _ ih =>
      rw [decode_escaped _ noCode, unicodeChunks_escaped noCode]
      simpa using ih
  | @coded chunk body text c isChunk isCode _ ih =>
      have strict : ¬IsLax chunk := fun lax => by
        rw [fourDigits?_of_lax lax] at isCode
        cases isCode
      have isChar : ∃ d, unicodeEscape chunk = [d] := by
        rcases unicodeEscape_cases chunk with ⟨d, -, isChar⟩ | ⟨noCode, -⟩
        · exact ⟨d, isChar⟩
        · rw [hexNumber?_of_strict isChunk.length_le strict] at noCode
          exact absurd isCode (noCode c)
      obtain ⟨d, isChar⟩ := isChar
      rw [decode_chunk isChunk, unicodeChunks_chunk isChunk, isChar]
      simp only [List.singleton_append, List.length_cons, Nat.add_le_add_iff_right,
        Nat.add_right_cancel_iff, List.forall_mem_cons]
      exact ⟨ih.1, fun same => ⟨strict, ih.2 same⟩⟩
  | @kept chunk body text isChunk noCode _ ih =>
      rw [decode_chunk isChunk, unicodeChunks_chunk isChunk]
      by_cases lax : IsLax chunk
      · obtain ⟨d, isChar⟩ := unicodeEscape_of_lax isChunk.length_le lax
        simp only [isChar, List.length_append, List.length_cons, List.length_nil]
        omega
      · have isKept : unicodeEscape chunk = '\\' :: 'u' :: chunk := by
          rcases unicodeEscape_cases chunk with ⟨d, isCode, -⟩ | ⟨-, isKept⟩
          · rw [hexNumber?_of_strict isChunk.length_le lax] at isCode
            exact absurd isCode (noCode d)
          · exact isKept
        simp only [isKept, List.cons_append, List.length_cons, List.length_append,
          Nat.add_le_add_iff_right, Nat.add_le_add_iff_left, Nat.add_right_cancel_iff,
          Nat.add_left_cancel_iff, List.forall_mem_cons]
        exact ⟨ih.1, fun same => ⟨lax, ih.2 same⟩⟩

/-- Every body is read by its escapes, and read as it should be unless it has a lax
chunk. -/
theorem decode_reads_iff (body : List Char) :
    (∃! text, Reads fourDigits? body text) ∧ Reads hexNumber? body (decode body) ∧
      (Reads fourDigits? body (decode body) ↔ ∀ chunk ∈ unicodeChunks body, ¬IsLax chunk) := by
  obtain ⟨text, reads⟩ := (reads_decode body).exists_reads fourDigits?
  refine ⟨⟨text, reads, fun other otherReads => otherReads.unique reads⟩, reads_decode body,
    fun reads => reads.length_decode_le.2 rfl, fun strict => ?_⟩
  exact (reads_decode body).congr fun chunk member short =>
    hexNumber?_of_strict short (strict chunk member)

/-- A sign in front of three digits. -/
example : decode "\\u+041".toList = ['A'] := by decide

end Strictness

end ErrorAccessors.StringLiteral
