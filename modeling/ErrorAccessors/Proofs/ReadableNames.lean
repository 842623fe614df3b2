/-
# Names that are read as one word

The name of an accessor is made of the characters that belong to names in the sense of
Unicode.  The words of the language have letters, numbers and underscores only, so that
marks and connectors stand in names but in no word, and they begin with a letter or an
underscore, while a name may begin with a number that is like a letter.

A name is therefore read as one word, and as itself, if such characters stay out of it,
and only then.  Whether they do is seen from the message.  Behind the first character of
a word of the message nothing is changed; the first one counts by its upper case, which
can bring a mark into the name or take one away.  A message in the letters of one script
can have an unreadable name: the lower case of a dotted capital I is a small i with a
mark of its own, and this mark is kept.
-/

import ErrorAccessors.Proofs.AccessorText
import ErrorAccessors.Proofs.ProperTypes
import ErrorAccessors.Proofs.SpacedTokens

namespace ErrorAccessors

open Unicode

/-- A text is read as one word, and as itself, if it is a word, and only then. -/
theorem Token.stream_eq_word_iff (name path : String) :
    stream (.ofText path name) =
        [(some (.ident name), (SourceFile.ofText path name).span 0 name.utf8ByteSize),
          (none, (SourceFile.ofText path name).span name.utf8ByteSize name.utf8ByteSize)] ↔
      Lexeme.IsWord name.toList := by
  constructor
  · intro read
    have areTokens := congrArg (fun stream => stream.dropLast.map Prod.fst) read
    simp only [stream, List.dropLast_concat, List.map_map, List.dropLast_cons_cons,
      List.dropLast_singleton, List.map_cons, List.map_nil] at areTokens
    obtain ⟨token, tokensAre⟩ :=
      List.length_eq_one_iff.mp (by simpa using congrArg List.length areTokens)
    rw [tokensAre] at areTokens
    have isIdent : token.kind = .ident name := by simpa using areTokens
    exact areWords_tokens _ token (by rw [tokensAre]; exact List.mem_singleton_self _) name isIdent
  · intro isWord
    obtain ⟨c, tail, isText, begins, continues⟩ := isWord
    have isName : String.ofList (c :: tail) = name := by rw [← isText, String.ofList_toList]
    apply stream_of_single isText
    have read := @Lexeme.first_of_word c [] tail ⟨c, tail, rfl, begins, continues⟩ (by simp)
    rwa [List.append_nil, isName] at read

namespace AccessorName

/-- The words of a message in lower case, as far as they can stand in a name. -/
def keptWords (message : String) : List (List Char) :=
  ((Text.splitAt separatesWords (lowercase message.toList)).map
    (·.filter isIdentifierContinue)).filter (· ≠ [])

/-- What the name of a message has in common with the words of the language: all of its
characters continue words, and the first of them begins one unless an underscore is put
in front of it.  The first character of each word of the message stands in the name in
upper case. -/
structure IsReadable (message : String) : Prop where
  inside : ∀ word ∈ keptWords message, ∀ c ∈ word.tail, Lexeme.continuesWord c = true
  capitals : ∀ word ∈ keptWords message, ∀ c ∈ word.head?, ∀ d ∈ upperOf c,
    isIdentifierContinue d = true → Lexeme.continuesWord d = true
  begins : ∀ word ∈ (keptWords message).head?, ∀ c ∈ word.head?, ∀ d ∈ (upperOf c).head?,
    isIdentifierStart d = true → Lexeme.beginsWord d = true

/-- Words of which nothing is left do not count. -/
private theorem flatMap_capitalized (words : List (List Char)) :
    (words.filter (· ≠ [])).flatMap capitalized = words.flatMap capitalized := by
  induction words with
  | nil => rfl
  | cons word words ih =>
      cases word with
      | nil => exact ih
      | cons c rest =>
          rw [List.filter_cons_of_pos (by simp), List.flatMap_cons, List.flatMap_cons, ih]

/-- The usable characters of a message are its words with capitals. -/
private theorem ofLowercase_eq (message : String) :
    ofLowercase (lowercase message.toList) = (keptWords message).flatMap capitalized := by
  rw [keptWords, flatMap_capitalized, List.flatMap_map, ofLowercase]

/-- A kept word begins with a character of a name. -/
private theorem exists_of_mem_keptWords {message : String} {word : List Char}
    (member : word ∈ keptWords message) :
    ∃ c rest, word = c :: rest ∧ isIdentifierContinue c = true := by
  obtain ⟨isPart, nonempty⟩ := List.mem_filter.mp member
  obtain ⟨part, -, rfl⟩ := List.mem_map.mp isPart
  cases isWord : part.filter isIdentifierContinue with
  | nil => simp [isWord] at nonempty
  | cons c rest =>
      have kept : c ∈ part.filter isIdentifierContinue := isWord ▸ List.mem_cons_self
      exact ⟨c, rest, rfl, (List.mem_filter.mp kept).2⟩

/-- The characters of the words with capitals continue words of the language if those
inside the words and the capitals do. -/
private theorem continues_flatMap_iff (words : List (List Char)) :
    (∀ c ∈ words.flatMap capitalized, Lexeme.continuesWord c = true) ↔
      (∀ word ∈ words, ∀ c ∈ word.tail, Lexeme.continuesWord c = true) ∧
        ∀ word ∈ words, ∀ c ∈ word.head?, ∀ d ∈ upperOf c,
          isIdentifierContinue d = true → Lexeme.continuesWord d = true := by
  have each (word : List Char) : (∀ c ∈ capitalized word, Lexeme.continuesWord c = true) ↔
      (∀ c ∈ word.tail, Lexeme.continuesWord c = true) ∧
        ∀ c ∈ word.head?, ∀ d ∈ upperOf c,
          isIdentifierContinue d = true → Lexeme.continuesWord d = true := by
    cases word with
    | nil => simp [capitalized]
    | cons c rest =>
        rw [capitalized, List.forall_mem_append, and_comm]
        simp [List.mem_filter]
  rw [List.forall_mem_flatMap, ← forall₂_and]
  exact forall₂_congr fun word _ => each word

/-- A text with a valid start is a word if its characters continue words and the first one
begins a word where it stays the first. -/
private theorem isWord_withValidStart_iff (c : Char) (rest : List Char) :
    Lexeme.IsWord (withValidStart (c :: rest)) ↔
      (∀ d ∈ c :: rest, Lexeme.continuesWord d = true) ∧
        (isIdentifierStart c = true → Lexeme.beginsWord c = true) := by
  rw [withValidStart]
  by_cases starts : isIdentifierStart c = true
  · rw [if_pos starts]
    constructor
    · intro isWord
      refine ⟨isWord.continues, fun _ => ?_⟩
      obtain ⟨d, tail, isText, begins, -⟩ := isWord
      rw [(List.cons.inj isText).1]
      exact begins
    · rintro ⟨continues, begins⟩
      exact ⟨c, rest, rfl, begins starts, (List.forall_mem_cons.mp continues).2⟩
  · rw [if_neg starts]
    constructor
    · intro isWord
      exact ⟨(List.forall_mem_cons.mp isWord.continues).2, fun start => absurd start starts⟩
    · rintro ⟨continues, -⟩
      exact ⟨'_', c :: rest, rfl, rfl, continues⟩

/-- The name that is made from a code alone is a word. -/
private theorem isWord_error (code : Int) :
    Lexeme.IsWord ("Error" ++ toString code.natAbs).toList := by
  have behind : ∀ c ∈ "rror".toList, Lexeme.continuesWord c = true :=
    List.all_eq_true.mp (by decide)
  refine ⟨'E', "rror".toList ++ (toString code.natAbs).toList, by simp, by decide, ?_⟩
  exact List.forall_mem_append.mpr ⟨behind, fun c member =>
    continuesWord_of_isDigit (Naming.isDigit_of_mem_numeral member)⟩

/-- The name of a message is a word if and only if the message is readable. -/
private theorem isWord_ofMessage_iff (message : String) (code : Int) :
    Lexeme.IsWord (ofMessage message code).toList ↔ IsReadable message := by
  have continues := continues_flatMap_iff (keptWords message)
  rw [ofMessage, ofLowercase_eq]
  cases words : keptWords message with
  | nil =>
      refine iff_of_true (isWord_error code) ⟨?_, ?_, ?_⟩ <;> simp [words]
  | cons word others =>
      obtain ⟨c, rest, rfl, isName⟩ := exists_of_mem_keptWords (words ▸ List.mem_cons_self)
      obtain ⟨capital, more, isUpper, isCapital, -⟩ := upperOf_eq_cons isName
      have isText : ((c :: rest) :: others).flatMap capitalized =
          capital :: (more.filter isIdentifierContinue ++ rest ++ others.flatMap capitalized) := by
        rw [List.flatMap_cons, capitalized, isUpper, List.filter_cons_of_pos isCapital]
        rfl
      rw [words, isText] at continues
      rw [isText]
      simp only [String.toList_ofList]
      rw [isWord_withValidStart_iff, continues, ← words]
      constructor
      · rintro ⟨⟨inside, capitals⟩, begins⟩
        refine ⟨inside, capitals, ?_⟩
        rw [words]
        simpa [isUpper] using begins
      · intro readable
        refine ⟨⟨readable.inside, readable.capitals⟩, ?_⟩
        have begins := readable.begins
        rw [words] at begins
        simpa [isUpper] using begins

/-- The name of a message is read as one word, which is the name, if the message is
readable, and only then.  The code does not matter. -/
theorem read_as_word_iff (message : String) (code : Int) (path : String) :
    let name := ofMessage message code
    let file := SourceFile.ofText path name
    Token.stream file =
        [(some (.ident name), file.span 0 file.size), (none, file.span file.size file.size)] ↔
      IsReadable message :=
  (Token.stream_eq_word_iff (ofMessage message code) path).trans (isWord_ofMessage_iff message code)

/-- The name of a dotted capital I is not read as one word, because the dot has become a
mark of its own. -/
theorem not_read_as_word_of_dottedCapital :
    let name := ofMessage "\u0130" 1
    let file := SourceFile.ofText "Names.cs" name
    Token.stream file ≠
      [(some (.ident name), file.span 0 file.size), (none, file.span file.size file.size)] := by
  intro name file read
  have readable := (read_as_word_iff "\u0130" 1 "Names.cs").mp read
  have words : keptWords "\u0130" = [['i', '\u0307']] := by decide +kernel
  have continues := readable.inside ['i', '\u0307'] (by rw [words]; exact List.mem_singleton_self _)
    '\u0307' (List.mem_singleton_self _)
  exact absurd continues (by decide +kernel)

end AccessorName

end ErrorAccessors
