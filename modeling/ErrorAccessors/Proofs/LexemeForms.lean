/-
# What lexemes look like

The characters of a lexeme, by what the lexeme is.  A word is spelled by itself,
possibly behind an at sign, and extends as far as it can; a bracket is a single
character; trivia is white space, a comment or a directive.  In the other
direction, the words and marks that types are written with are read back from
their spelling.
-/

import ErrorAccessors.Proofs.SeparatedText

namespace ErrorAccessors

/-- Whether a token is what the digits of a number are cut as. -/
def TokenKind.isNumeral : TokenKind → Bool
  | .integer _ | .real _ | .fault _ => true
  | _ => false

namespace Lexeme

/-- A word of the language: a character that begins one and others that continue
it. -/
def IsWord (text : List Char) : Prop :=
  ∃ c tail, text = c :: tail ∧ beginsWord c = true ∧ ∀ d ∈ tail, continuesWord d = true

/-- Whether a text is a word is seen from its characters. -/
theorem isWord_iff {text : List Char} :
    IsWord text ↔ text.head?.any beginsWord = true ∧ text.tail.all continuesWord = true := by
  cases text with
  | nil => simp [IsWord]
  | cons c tail =>
      rw [List.head?_cons, Option.any_some, List.tail_cons, List.all_eq_true]
      constructor
      · rintro ⟨_, _, isText, begins, continues⟩
        cases isText
        exact ⟨begins, continues⟩
      · exact fun ⟨begins, continues⟩ => ⟨c, tail, rfl, begins, continues⟩

instance (text : List Char) : Decidable (IsWord text) :=
  decidable_of_iff' _ isWord_iff

/-- Every character of a word continues one. -/
theorem IsWord.continues {text : List Char} (isWord : IsWord text) :
    ∀ d ∈ text, continuesWord d = true := by
  obtain ⟨c, tail, rfl, begins, continues⟩ := isWord
  refine List.forall_mem_cons.mpr ⟨?_, continues⟩
  rw [beginsWord] at begins
  rw [continuesWord, begins]
  rfl

section Kinds

/-- Whether a token is a word or a mark. -/
def isPlain : TokenKind → Bool
  | .ident _ | .mark _ => true
  | _ => false

/-- A lexeme that is a literal, an operator or a fault. -/
def IsOther (lexeme : Lexeme) : Prop :=
  ∃ kind, lexeme.kind = some kind ∧ isPlain kind = false

private theorem isOther_fault (c : Char) (rest : List Char) (more : Nat) :
    IsOther (fault c rest more) :=
  ⟨_, rfl, rfl⟩

private theorem isOther_token {kind : TokenKind} (other : isPlain kind = false) (more : Nat) :
    IsOther (token more kind) :=
  ⟨kind, rfl, other⟩

private theorem isOther_regularString (rest : List Char) : IsOther (regularString rest) := by
  unfold regularString
  split
  · exact isOther_token rfl _
  · exact isOther_token rfl _

private theorem isOther_interpolatedString (rest : List Char) :
    IsOther (interpolatedString rest) := by
  unfold interpolatedString
  split
  · exact isOther_token rfl _
  · exact isOther_fault ..

private theorem isOther_verbatimString (rest : List Char) : IsOther (verbatimString rest) := by
  unfold verbatimString
  split
  · exact isOther_token rfl _
  · exact isOther_fault ..

private theorem isOther_interpolatedVerbatim (first second : Char) (rest : List Char) :
    IsOther (interpolatedVerbatim first second rest) := by
  unfold interpolatedVerbatim
  split
  · exact isOther_fault ..
  · exact isOther_fault ..

private theorem isOther_dollarSign (rest : List Char) : IsOther (dollarSign rest) := by
  unfold dollarSign
  split
  · exact isOther_interpolatedString _
  · exact isOther_interpolatedVerbatim ..
  · exact isOther_token rfl _
  · exact isOther_token rfl _

private theorem isOther_apostrophe (rest : List Char) : IsOther (apostrophe rest) := by
  unfold apostrophe
  split
  · split
    · exact isOther_fault ..
    · simp only []
      split
      · exact isOther_token rfl _
      · exact isOther_fault ..
  · split
    · exact isOther_fault ..
    · exact isOther_token rfl _
  · exact isOther_fault ..

private theorem isNumeral_integerKind (base : Nat) (digits spelling : List Char) :
    (Numeral.integerKind base digits spelling).isNumeral = true := by
  unfold Numeral.integerKind
  split
  · rfl
  · split <;> rfl

private theorem isNumeral_decimal (text : List Char) :
    (Numeral.decimal text).1.isNumeral = true := by
  unfold Numeral.decimal
  simp only []
  split
  · exact isNumeral_integerKind ..
  · rfl

/-- A number is a number, or a fault if it has no value. -/
theorem isNumeral_scan (text : List Char) : (Numeral.scan text).1.isNumeral = true := by
  unfold Numeral.scan
  cases found : Numeral.prefixed? text with
  | none => exact isNumeral_decimal text
  | some literal =>
      unfold Numeral.prefixed? at found
      split at found
      · obtain ⟨base, -, isLiteral⟩ := Option.bind_eq_some_iff.mp found
        simp only [] at isLiteral
        split at isLiteral
        · cases isLiteral
        · cases isLiteral
          exact isNumeral_integerKind ..
      · cases found

private theorem isPlain_of_isNumeral {kind : TokenKind} (numeral : kind.isNumeral = true) :
    isPlain kind = false := by
  cases kind <;> first | rfl | cases numeral

/-- Behind an at sign stands a word, or the lexeme is no word. -/
private theorem atSign_cases (rest : List Char) :
    IsOther (atSign rest) ∨ ∃ c more, rest = c :: more ∧ beginsWord c = true ∧
      atSign rest = token (1 + (more.takeWhile continuesWord).length)
        (.ident (String.ofList (c :: more.takeWhile continuesWord))) := by
  unfold atSign
  split
  · exact .inl (isOther_verbatimString _)
  · exact .inl (isOther_interpolatedVerbatim ..)
  · exact .inl (isOther_token rfl _)
  · next c more _ _ _ =>
    by_cases isWord : beginsWord c = true
    · rw [if_pos isWord]
      exact .inr ⟨c, more, rfl, isWord, rfl⟩
    · rw [if_neg isWord]
      exact .inl (isOther_token rfl _)
  · exact .inl (isOther_token rfl _)

/-- A slash begins a comment, or the lexeme is neither trivia nor a word nor a
mark. -/
private theorem slash_cases (rest : List Char) :
    IsOther (slash rest) ∨
      (∃ more, rest = '/' :: more ∧ slash rest = trivia (1 + lineLength more)) ∨
      ∃ more length, rest = '*' :: more ∧ commentLength? more = some length ∧
        slash rest = trivia (1 + length) := by
  unfold slash
  split
  · next more => exact .inr (.inl ⟨more, rfl, rfl⟩)
  · next more =>
    cases found : commentLength? more with
    | none => exact .inl (isOther_fault ..)
    | some length => exact .inr (.inr ⟨more, length, rfl, found, rfl⟩)
  · exact .inl (isOther_token rfl _)

/-- Everything that a lexeme may be. -/
inductive Form (c : Char) (rest : List Char) : Prop
  | other (other : IsOther (first c rest))
  | blank (blank : isBlank c = true) (is : first c rest = trivia 0)
  | line {more : List Char} (slashes : c = '/' ∧ rest = '/' :: more)
      (is : first c rest = trivia (1 + lineLength more))
  | block {more : List Char} {length : Nat} (opens : c = '/' ∧ rest = '*' :: more)
      (closes : commentLength? more = some length) (is : first c rest = trivia (1 + length))
  | directive (hash : c = '#') (is : first c rest = trivia (lineLength rest))
  | verbatim {d : Char} {more : List Char} (starts : c = '@' ∧ rest = d :: more)
      (begins : beginsWord d = true)
      (is : first c rest = token (1 + (more.takeWhile continuesWord).length)
        (.ident (String.ofList (d :: more.takeWhile continuesWord))))
  | word (begins : beginsWord c = true) (is : first c rest = Lexeme.word c rest)
  | pair {mark : Mark} (double : mark = .doubleColon ∨ mark = .arrow)
      (is : first c rest = token 1 (.mark mark))
  | single {kind : TokenKind} (alone : single? c = some kind)
      (is : first c rest = token 0 kind)

/-- What begins no trivia and no literal in quotes is a mark, a word, a number or a
fault. -/
theorem first_unquoted {c : Char} (rest : List Char) (blank : ¬isBlank c = true)
    (slash : c ≠ '/') (hash : c ≠ '#') (quote : c ≠ '"') (atSign : c ≠ '@') (dollar : c ≠ '$')
    (apostrophe : c ≠ '\'') :
    first c rest =
      if c = ':' ∧ rest.head? = some ':' then token 1 (.mark .doubleColon)
      else if c = '=' ∧ rest.head? = some '>' then token 1 (.mark .arrow)
      else if beginsWord c then Lexeme.word c rest
      else if Numeral.isDigitOf 10 c then
        token ((Numeral.scan (c :: rest)).2.length - 1) (Numeral.scan (c :: rest)).1
      else
        match single? c with
        | some kind => token 0 kind
        | none => fault c rest 0 := by
  unfold first
  exact (if_neg blank).trans ((if_neg slash).trans ((if_neg hash).trans ((if_neg quote).trans
    ((if_neg atSign).trans ((if_neg dollar).trans (if_neg apostrophe))))))

/-- Every lexeme has one of the forms. -/
theorem form (c : Char) (rest : List Char) : Form c rest := by
  by_cases blank : isBlank c = true
  · exact .blank blank (by rw [first, if_pos blank])
  by_cases isSlash : c = '/'
  · have is : first c rest = slash rest := by rw [first, if_neg blank, if_pos isSlash]
    rcases slash_cases rest with
      other | ⟨more, isLine, trivial⟩ | ⟨more, length, isBlock, found, trivial⟩
    · exact .other (is ▸ other)
    · exact .line ⟨isSlash, isLine⟩ (is.trans trivial)
    · exact .block ⟨isSlash, isBlock⟩ found (is.trans trivial)
  by_cases isHash : c = '#'
  · exact .directive isHash (by rw [first, if_neg blank, if_neg isSlash, if_pos isHash])
  by_cases isQuote : c = '"'
  · apply Form.other
    rw [first, if_neg blank, if_neg isSlash, if_neg isHash, if_pos isQuote]
    exact isOther_regularString rest
  by_cases isAt : c = '@'
  · have is : first c rest = atSign rest := by
      rw [first, if_neg blank, if_neg isSlash, if_neg isHash, if_neg isQuote, if_pos isAt]
    rcases atSign_cases rest with other | ⟨d, more, isRest, begins, isWord⟩
    · exact .other (is ▸ other)
    · exact .verbatim ⟨isAt, isRest⟩ begins (is.trans isWord)
  by_cases isDollar : c = '$'
  · apply Form.other
    rw [first, if_neg blank, if_neg isSlash, if_neg isHash, if_neg isQuote, if_neg isAt,
      if_pos isDollar]
    exact isOther_dollarSign rest
  by_cases isApostrophe : c = '\''
  · apply Form.other
    rw [first, if_neg blank, if_neg isSlash, if_neg isHash, if_neg isQuote, if_neg isAt,
      if_neg isDollar, if_pos isApostrophe]
    exact isOther_apostrophe rest
  have behind := first_unquoted rest blank isSlash isHash isQuote isAt isDollar isApostrophe
  by_cases colons : c = ':' ∧ rest.head? = some ':'
  · exact .pair (.inl rfl) (by rw [behind, if_pos colons])
  by_cases arrow : c = '=' ∧ rest.head? = some '>'
  · exact .pair (.inr rfl) (by rw [behind, if_neg colons, if_pos arrow])
  by_cases isWord : beginsWord c = true
  · exact .word isWord (by rw [behind, if_neg colons, if_neg arrow, if_pos isWord])
  by_cases digit : Numeral.isDigitOf 10 c = true
  · apply Form.other
    rw [behind, if_neg colons, if_neg arrow, if_neg isWord, if_pos digit]
    exact isOther_token (isPlain_of_isNumeral (isNumeral_scan _)) _
  rw [if_neg colons, if_neg arrow, if_neg isWord, if_neg digit] at behind
  cases alone : single? c with
  | some kind => exact .single alone (by rw [behind, alone])
  | none =>
      apply Form.other
      rw [behind, alone]
      exact isOther_fault ..

end Kinds

section Words

variable {c : Char} {rest tail : List Char} {name : String}

private theorem mem_takeWhile {p : Char → Bool} {text : List Char} {d : Char}
    (member : d ∈ text.takeWhile p) : p d = true := by
  induction text with
  | nil => cases member
  | cons e text ih =>
      by_cases holds : p e = true
      · rw [List.takeWhile_cons_of_pos holds] at member
        rcases List.mem_cons.mp member with rfl | member
        · exact holds
        · exact ih member
      · rw [List.takeWhile_cons_of_neg holds] at member
        cases member

/-- A run that ends in front of a rest does so because the rest does not continue
it. -/
private theorem head_of_takeWhile {p : Char → Bool} {text : List Char}
    (run : (text ++ rest).takeWhile p = text) : ∀ d ∈ rest.head?, p d = false := by
  intro d head
  obtain ⟨more, rfl⟩ : ∃ more, rest = d :: more := by
    cases rest with
    | nil => cases head
    | cons e more => exact ⟨more, by rw [Option.some.inj head]⟩
  have member : ∀ e ∈ text, p e = true := by
    intro e inText
    rw [← run] at inText
    exact mem_takeWhile inText
  rw [List.takeWhile_append_of_pos member] at run
  have none : (d :: more).takeWhile p = [] := by
    simpa using run
  by_cases holds : p d = true
  · rw [List.takeWhile_cons_of_pos holds] at none
    cases none
  · simpa using holds

private theorem take_takeWhile (p : Char → Bool) (text : List Char) :
    text.take (text.takeWhile p).length = text.takeWhile p :=
  (List.prefix_iff_eq_take.mp (List.takeWhile_prefix p)).symm

/-- An identifier is a word with or without an at sign, and what stands behind it
does not continue it. -/
theorem ident_spelling (isIdent : (first c (tail ++ rest)).kind = some (.ident name))
    (covers : (tail ++ rest).take (first c (tail ++ rest)).more = tail) :
    (c :: tail = name.toList ∨ c = '@' ∧ tail = name.toList) ∧ IsWord name.toList ∧
      ∀ d ∈ rest.head?, continuesWord d = false := by
  cases form c (tail ++ rest) with
  | other other =>
      obtain ⟨kind, is, notPlain⟩ := other
      obtain rfl : kind = .ident name := Option.some.inj (is.symm.trans isIdent)
      cases notPlain
  | blank _ is | line _ is | block _ _ is | directive _ is =>
      rw [is] at isIdent
      cases isIdent
  | pair _ is =>
      rw [is] at isIdent
      cases isIdent
  | single alone is =>
      rw [is] at isIdent
      obtain rfl := Option.some.inj isIdent
      unfold single? at alone
      split at alone <;> cases alone
  | word begins is =>
      rw [is] at isIdent covers
      have run : (tail ++ rest).takeWhile continuesWord = tail := by
        rw [← take_takeWhile]
        exact covers
      have isName : name.toList = c :: tail := by
        have named : String.ofList (c :: (tail ++ rest).takeWhile continuesWord) = name :=
          TokenKind.ident.inj (Option.some.inj isIdent)
        rw [← named, String.toList_ofList, run]
      refine ⟨.inl isName.symm, ⟨c, tail, isName, begins, fun d member => ?_⟩,
        head_of_takeWhile run⟩
      rw [← run] at member
      exact mem_takeWhile member
  | @verbatim d more starts begins is =>
      obtain ⟨isAt, isTail⟩ := starts
      have named : String.ofList (d :: more.takeWhile continuesWord) = name := by
        rw [is] at isIdent
        exact TokenKind.ident.inj (Option.some.inj isIdent)
      have isName : name.toList = d :: more.takeWhile continuesWord := by
        rw [← named, String.toList_ofList]
      have tailIs : tail = d :: more.takeWhile continuesWord := by
        rw [is, isTail] at covers
        have count : (token (1 + (more.takeWhile continuesWord).length)
            (.ident (String.ofList (d :: more.takeWhile continuesWord)))).more =
              (more.takeWhile continuesWord).length + 1 := Nat.add_comm ..
        rw [count, List.take_succ_cons, take_takeWhile] at covers
        exact covers.symm
      have run : (more.takeWhile continuesWord ++ rest).takeWhile continuesWord =
          more.takeWhile continuesWord := by
        have moreIs : more.takeWhile continuesWord ++ rest = more := by
          rw [tailIs, List.cons_append] at isTail
          exact (List.cons.inj isTail).2
        rw [moreIs]
      refine ⟨.inr ⟨isAt, tailIs.trans isName.symm⟩,
        ⟨d, _, isName, begins, fun e member => mem_takeWhile member⟩, head_of_takeWhile run⟩

/-- Nothing but a word begins with a character that begins one. -/
private theorem first_of_beginsWord (begins : beginsWord c = true) (rest : List Char) :
    first c rest = word c rest := by
  have noBlank : isBlank c = false := by
    cases blank : isBlank c with
    | false => rfl
    | true =>
        have separator : separates c = true := by rw [separates, blank]; rfl
        rw [beginsWord_of_separates separator] at begins
        cases begins
  have differs (d : Char) (special : d ∈ ['/', '#', '"', '@', '$', '\'', ':', '=']) : c ≠ d := by
    rintro rfl
    have fails : ['/', '#', '"', '@', '$', '\'', ':', '='].all (!beginsWord ·) = true := by
      decide
    have fails := List.all_eq_true.mp fails c special
    simp [begins] at fails
  simp [first, noBlank, begins, differs]

/-- A word is read from its spelling in front of anything that does not continue
it. -/
theorem first_of_word (isWord : IsWord (c :: tail))
    (ends : ∀ d ∈ rest.head?, continuesWord d = false) :
    first c (tail ++ rest) = token tail.length (.ident (String.ofList (c :: tail))) := by
  obtain ⟨d, others, isText, begins, continues⟩ := isWord
  obtain ⟨rfl, rfl⟩ := List.cons.inj isText
  have run : (tail ++ rest).takeWhile continuesWord = tail := by
    rw [List.takeWhile_append_of_pos continues]
    cases rest with
    | nil => simp
    | cons e rest => simp [ends e rfl]
  rw [first_of_beginsWord begins, word, run]

/-- A mark of one character is read from it, whatever stands behind it. -/
theorem first_of_mark {mark : Mark} (alone : single? c = some (.mark mark))
    (noPair : c ≠ ':' ∧ c ≠ '=') (rest : List Char) : first c rest = token 0 (.mark mark) := by
  obtain ⟨noColon, noEquals⟩ := noPair
  unfold single? at alone
  split at alone <;> cases alone <;>
    first | rfl | exact absurd rfl noColon | exact absurd rfl noEquals

end Words

end Lexeme

end ErrorAccessors
