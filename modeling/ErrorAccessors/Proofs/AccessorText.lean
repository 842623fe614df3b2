/-
# Names of accessors as text

A name that is made from a message consists of characters of names in the sense of
Unicode, and not all of these make words of the language.  In front of a separator it is
cut into words, numbers and faults, so that it may be a name of several tokens.  It does
not begin with a lower-case letter of the English alphabet, so it is no keyword.  There is
no white space in it, so the layout keeps it.
-/

import ErrorAccessors.Proofs.DerivedNames
import ErrorAccessors.Proofs.NeatText
import ErrorAccessors.Proofs.PassingMembers
import Mathlib.Data.List.TakeWhile

namespace ErrorAccessors

open Unicode

namespace Lexeme

section Characters

variable {c : Char}

/-- The characters that begin lexemes of their own or end others. -/
private def specialChars : List Char :=
  [' ', '\t', '\r', '\n', '\x0c', '\uFEFF', '/', '#', '"', '@', '$', '\'', ':', '=', '\x7b', '\x7d',
    '(', ')', '[', ']', '<', '>', ',', ';', '.', '?', '*', '~', '-', '!', '+', '%', '&', '|', '^',
    '\\']

private theorem notName_specialChars : (specialChars.all (!isIdentifierContinue ·)) = true := by
  decide +kernel

private theorem ne_of_special {d : Char} (continues : isIdentifierContinue c = true)
    (special : d ∈ specialChars) : c ≠ d := by
  rintro rfl
  have other := List.all_eq_true.mp notName_specialChars c special
  rw [continues] at other
  cases other

/-- A character of a name is kept by the layout. -/
private theorem isSolid_of_name (continues : isIdentifierContinue c = true) :
    Layout.isSolid c = true := by
  have noSpace : isSpace c = false := by
    refine Bool.eq_false_iff.mpr fun space => ?_
    rw [(notName_of_isSpace space).2.2] at continues
    cases continues
  have ne {d : Char} (special : d ∈ specialChars) : c ≠ d := ne_of_special continues special
  simp [Layout.isSolid, noSpace, ne (d := '/') (by decide), ne (d := '@') (by decide),
    ne (d := '"') (by decide), ne (d := '\'') (by decide)]

/-- A character of a name begins a word, a number or a fault. -/
private theorem first_of_name (continues : isIdentifierContinue c = true) (rest : List Char) :
    first c rest =
      if beginsWord c then word c rest
      else if Numeral.isDigitOf 10 c then
        token ((Numeral.scan (c :: rest)).2.length - 1) (Numeral.scan (c :: rest)).1
      else fault c rest 0 := by
  have ne {d : Char} (special : d ∈ specialChars) : c ≠ d := ne_of_special continues special
  have blank : ¬isBlank c = true := by
    simp [isBlank, ne (d := ' ') (by decide), ne (d := '\t') (by decide),
      ne (d := '\r') (by decide), ne (d := '\n') (by decide), ne (d := '\x0c') (by decide),
      ne (d := '\uFEFF') (by decide)]
  have alone : single? c = none := by
    cases found : single? c with
    | none => rfl
    | some kind =>
        exfalso
        unfold single? at found
        split at found
        all_goals first | exact ne (by decide) rfl | cases found
  rw [first_unquoted rest blank (ne (by decide)) (ne (by decide)) (ne (by decide)) (ne (by decide))
    (ne (by decide)) (ne (by decide)), if_neg fun both => ne (by decide) both.1,
    if_neg fun both => ne (by decide) both.1, alone]

/-- How a character of a name is cut off with what belongs to it. -/
private structure IsFirst (c : Char) (text : List Char) (count : Nat) (kind : TokenKind) :
    Prop where
  within : count ≤ text.length
  part : kind.isNamePart = true
  word : ∀ name, kind = .ident name → beginsWord c = true ∧ name.toList.head? = some c ∧
    ∀ d ∈ (text.drop count).head?, continuesWord d = false

private theorem isFirst_of_isNumeral {text : List Char} {count : Nat} {kind : TokenKind}
    (within : count ≤ text.length) (numeral : kind.isNumeral = true) :
    IsFirst c text count kind := by
  refine ⟨within, ?_, ?_⟩
  · cases kind <;> first | rfl | cases numeral
  · rintro name rfl
    cases numeral

/-- Where a lexeme ends in a name does not depend on what stands behind the separator. -/
private theorem exists_first (continues : isIdentifierContinue c = true) (text : List Char)
    {d : Char} (separator : separates d = true) :
    ∃ count kind, IsFirst c text count kind ∧
      ∀ rest, first c (text ++ d :: rest) = token count kind := by
  by_cases begins : beginsWord c = true
  · let tail := text.takeWhile continuesWord
    let others := text.dropWhile continuesWord
    have isText : tail ++ others = text := List.takeWhile_append_dropWhile
    have dropped : text.drop tail.length = others :=
      (congrArg (List.drop tail.length) isText.symm).trans List.drop_left
    have ends : ∀ e ∈ others.head?, continuesWord e = false := by
      intro e head
      have notWord := List.head?_dropWhile_not continuesWord text
      rw [show (text.dropWhile continuesWord).head? = some e from head] at notWord
      simpa using notWord
    have isWord : IsWord (c :: tail) :=
      ⟨c, tail, rfl, begins, fun e member => List.mem_takeWhile_imp member⟩
    refine ⟨tail.length, .ident (String.ofList (c :: tail)), ⟨?_, rfl, ?_⟩, fun rest => ?_⟩
    · rw [← isText, List.length_append]
      omega
    · rintro name ⟨⟩
      exact ⟨begins, by rw [String.toList_ofList, List.head?_cons], dropped ▸ ends⟩
    · rw [← isText, List.append_assoc]
      refine first_of_word isWord fun e head => ?_
      cases behind : others with
      | nil =>
          rw [behind, List.nil_append] at head
          obtain rfl := Option.some.inj head
          exact continuesWord_of_separates separator
      | cons f more =>
          rw [behind] at head ends
          exact ends e head
  · by_cases digit : Numeral.isDigitOf 10 c = true
    · have separated : Separated (c :: text ++ [d]) := ⟨c :: text, d, rfl, separator⟩
      obtain ⟨others, separatedOthers, covers⟩ := Numeral.scan_front separated
      refine ⟨(Numeral.scan (c :: text ++ [d])).2.length - 1, (Numeral.scan (c :: text ++ [d])).1,
        isFirst_of_isNumeral ?_ (isNumeral_scan _), fun rest => ?_⟩
      · have lengths := congrArg List.length covers
        have := List.length_pos_iff.mpr separatedOthers.ne_nil
        simp only [List.length_append, List.length_cons, List.length_nil] at lengths
        omega
      · have scanned := Numeral.scan_append separated rest
        rw [List.append_assoc, List.singleton_append, List.cons_append] at scanned
        rw [first_of_name continues, if_neg begins, if_pos digit, scanned]
    · refine ⟨0, .fault (String.ofList [c]), isFirst_of_isNumeral (Nat.zero_le _) rfl,
        fun rest => ?_⟩
      rw [first_of_name continues, if_neg begins, if_neg digit]
      rfl

end Characters

/-- The chunks that the characters of a name are cut into in front of a separator. -/
private structure IsCutName (d : Char) (text : List Char) (chunks : List Chunk) : Prop where
  isText : Chunk.textOf chunks = text
  cut : ∀ rest, Chunk.CutBefore (d :: rest) chunks
  some : text ≠ [] → Chunk.kindsOf chunks ≠ []
  parts : ∀ kind ∈ Chunk.kindsOf chunks, kind.isNamePart = true
  word : ∀ name, (Chunk.kindsOf chunks).head? = .some (.ident name) →
    ∃ c, text.head? = .some c ∧ beginsWord c = true ∧ name.toList.head? = .some c
  apart : ∀ name kind more, Chunk.kindsOf chunks = .ident name :: kind :: more →
    kind.isIdent = false

/-- In front of a separator, the characters of a name are cut into parts of a name. -/
private theorem exists_cut_of_name (text : List Char)
    (areNames : ∀ c ∈ text, isIdentifierContinue c = true) {d : Char}
    (separator : separates d = true) : ∃ chunks, IsCutName d text chunks := by
  induction length : text.length using Nat.strongRecOn generalizing text with
  | ind length ih =>
      subst length
      cases text with
      | nil => exact ⟨[], rfl, fun _ => .nil, absurd rfl, nofun, nofun, nofun⟩
      | cons c text =>
          obtain ⟨isPart, areParts⟩ := List.forall_mem_cons.mp areNames
          obtain ⟨count, kind, isFirst, is⟩ := exists_first isPart text separator
          obtain ⟨chunks, isCut⟩ := ih (text.drop count).length
            (by simp only [List.length_drop, List.length_cons]; omega) (text.drop count)
            (fun c member => areParts c (List.mem_of_mem_drop member)) rfl
          have covers (rest : List Char) : text.take count ++ (Chunk.textOf chunks ++ d :: rest) =
              text ++ d :: rest := by
            rw [isCut.isText, ← List.append_assoc, List.take_append_drop]
          refine ⟨⟨c, text.take count, some kind⟩ :: chunks, ?_, fun rest => ?_, nofun, ?_, ?_, ?_⟩
          · rw [Chunk.textOf_cons, isCut.isText, List.take_append_drop]
          · refine .cons ?_ ?_ (isCut.cut rest)
            · rw [covers, is]
              rfl
            · rw [covers, is]
              exact List.take_append_of_le_length isFirst.within
          · exact List.forall_mem_cons.mpr ⟨isFirst.part, isCut.parts⟩
          · intro name head
            obtain rfl : kind = .ident name := Option.some.inj head
            obtain ⟨begins, named, -⟩ := isFirst.word name rfl
            exact ⟨c, rfl, begins, named⟩
          · intro name other more isKinds
            obtain ⟨rfl, others⟩ :=
              List.cons.inj (show kind :: Chunk.kindsOf chunks = _ from isKinds)
            obtain ⟨-, -, ends⟩ := isFirst.word name rfl
            cases other with
            | ident second =>
                -- a second word would have been read with the first one
                obtain ⟨e, head, begins, -⟩ := isCut.word second (by rw [others]; rfl)
                have noWord := ends e head
                simp only [beginsWord, continuesWord, Bool.or_eq_true,
                  Bool.or_eq_false_iff] at begins noWord
                rcases begins with begins | begins
                · rw [begins] at noWord
                  cases noWord.1.1
                · rw [begins] at noWord
                  cases noWord.1.2
            | _ => rfl

end Lexeme

/-- Characters of a name in front of a separator that is in front of what writes
anything. -/
theorem Writes.exists_name {name : List Char} (nonempty : name ≠ [])
    (areNames : ∀ c ∈ name, isIdentifierContinue c = true) {d : Char}
    (separator : Lexeme.separates d = true) :
    ∃ nameKinds, NameKinds nameKinds ∧
      (∀ word, nameKinds.head? = some (.ident word) → word.toList.head? = name.head?) ∧
      ∀ text kinds, Writes (d :: text) kinds → Writes (name ++ d :: text) (nameKinds ++ kinds) := by
  obtain ⟨chunks, isCut⟩ := Lexeme.exists_cut_of_name name areNames separator
  refine ⟨Chunk.kindsOf chunks, ⟨isCut.some nonempty, isCut.parts, isCut.apart⟩,
    fun word head => ?_, fun text kinds writes => ?_⟩
  · obtain ⟨c, first, -, same⟩ := isCut.word word head
    rw [first, same]
  · obtain ⟨behind, isText, rfl, cut⟩ := writes
    refine ⟨chunks ++ behind, ?_, Chunk.kindsOf_append .., fun rest apart => ?_⟩
    · rw [Chunk.textOf_append, isCut.isText, isText]
    · refine Chunk.cutBefore_append.mpr ⟨?_, cut rest apart.of_append⟩
      rw [isText, List.cons_append]
      exact isCut.cut _

section Names

/-- A text that may be the name of an accessor: characters of names, and no lower-case
letter of the English alphabet in front. -/
structure IsAccessorText (text : List Char) : Prop where
  areNames : ∀ c ∈ text, isIdentifierContinue c = true
  begins : ∃ c more, text = c :: more ∧ c.isLower = false

namespace IsAccessorText

variable {text : List Char}

/-- The layout keeps the name of an accessor. -/
theorem neat (isText : IsAccessorText text) : Layout.Neat text := by
  refine .of_solid ?_ fun c member => Lexeme.isSolid_of_name (isText.areNames c member)
  obtain ⟨c, more, rfl, -⟩ := isText.begins
  exact List.cons_ne_nil c more

/-- The name of an accessor in front of a separator writes a name that is no special
word. -/
theorem exists_kinds (isText : IsAccessorText text) {d : Char}
    (separator : Lexeme.separates d = true) :
    ∃ nameKinds, NameKinds nameKinds ∧ Parser.NoSpecialWord nameKinds ∧
      ∀ more kinds, Writes (d :: more) kinds → Writes (text ++ d :: more) (nameKinds ++ kinds) := by
  obtain ⟨c, behind, isCons, noLower⟩ := isText.begins
  obtain ⟨nameKinds, isName, isHead, writes⟩ := Writes.exists_name
    (isCons ▸ List.cons_ne_nil c behind) isText.areNames separator
  have lower : (Parser.modifierWords ++ typeWords).all
      (fun word => word.toList.head?.any Char.isLower) = true := by
    decide
  refine ⟨nameKinds, isName, fun word head => ?_, writes⟩
  have begins : word.toList.head? = some c := by
    rw [isHead word head, isCons]
    rfl
  have other : word ∉ Parser.modifierWords ++ typeWords := by
    intro member
    have isLower := List.all_eq_true.mp lower word member
    rw [begins, Option.any_some, noLower] at isLower
    cases isLower
  rwa [List.mem_append, not_or] at other

end IsAccessorText

/-- A word of a message with a capital in front. -/
private theorem isAccessorText_capitalized {word : List Char} (nonempty : word ≠ [])
    (areNames : ∀ c ∈ word, isIdentifierContinue c = true) :
    IsAccessorText (AccessorName.capitalized word) := by
  cases word with
  | nil => exact absurd rfl nonempty
  | cons c rest =>
      obtain ⟨isName, restNames⟩ := List.forall_mem_cons.mp areNames
      obtain ⟨capital, more, isUpper, continues, noLower⟩ := upperOf_eq_cons isName
      refine ⟨fun d member => ?_, ?_⟩
      · rcases List.mem_append.mp member with isCapital | isRest
        · exact (List.mem_filter.mp isCapital).2
        · exact restNames d isRest
      · refine ⟨capital, more.filter isIdentifierContinue ++ rest, ?_, noLower⟩
        rw [AccessorName.capitalized, isUpper, List.filter_cons_of_pos continues, List.cons_append]

private theorem isAccessorText_flatMap (words : List (List Char)) :
    let text := words.flatMap fun word =>
      AccessorName.capitalized (word.filter isIdentifierContinue)
    text = [] ∨ IsAccessorText text := by
  induction words with
  | nil => exact .inl rfl
  | cons word words ih =>
      rw [List.flatMap_cons]
      by_cases nothing : word.filter isIdentifierContinue = []
      · rw [nothing, AccessorName.capitalized, List.nil_append]
        exact ih
      · right
        have first := isAccessorText_capitalized nothing fun c member =>
          (List.mem_filter.mp member).2
        obtain ⟨c, more, isText, noLower⟩ := first.begins
        refine ⟨fun d member => ?_, c, _, by rw [isText, List.cons_append], noLower⟩
        rcases List.mem_append.mp member with isFirst | isLater
        · exact first.areNames d isFirst
        · rcases ih with none | later
          · rw [none] at isLater
            cases isLater
          · exact later.areNames d isLater

/-- Ranges that cover the digits contain each of them. -/
private theorem contains_of_isDigit {ranges : Ranges} (covered : ranges.covers 0x30 0x39 = true)
    {c : Char} (digit : c.isDigit = true) : ranges.contains c = true := by
  simp only [Char.isDigit, Bool.and_eq_true, decide_eq_true_eq, UInt32.le_iff_toNat_le] at digit
  exact Ranges.containsCode_of_covers covered digit

private theorem isName_of_isDigit {c : Char} (digit : c.isDigit = true) :
    isIdentifierContinue c = true := by
  have extra : identifierContinueExtras.contains c = true := contains_of_isDigit (by decide) digit
  rw [isIdentifierContinue, extra, Bool.or_true]

/-- A digit continues a word. -/
theorem continuesWord_of_isDigit {c : Char} (digit : c.isDigit = true) :
    Lexeme.continuesWord c = true := by
  have number : isNumber c = true := contains_of_isDigit (by decide) digit
  rw [Lexeme.continuesWord, number, Bool.or_true]

private theorem isName_underscore : isIdentifierContinue '_' = true := by
  decide

/-- What belongs to names may stand behind a name. -/
private theorem IsAccessorText.append {text more : List Char} (isText : IsAccessorText text)
    (areNames : ∀ c ∈ more, isIdentifierContinue c = true) : IsAccessorText (text ++ more) := by
  obtain ⟨c, rest, rfl, noLower⟩ := isText.begins
  refine ⟨fun d member => ?_, c, rest ++ more, rfl, noLower⟩
  rcases List.mem_append.mp member with isFirst | isLater
  · exact isText.areNames d isFirst
  · exact areNames d isLater

namespace AccessorName

/-- The name that is made from a message may be the name of an accessor. -/
theorem isAccessorText_ofMessage (message : String) (code : Int) :
    IsAccessorText (ofMessage message code).toList := by
  have cases := isAccessorText_flatMap
    (Text.splitAt separatesWords (lowercase message.toList))
  unfold ofMessage ofLowercase
  split
  · have text : IsAccessorText "Error".toList := by
      refine ⟨?_, 'E', "rror".toList, rfl, rfl⟩
      have all : "Error".toList.all isIdentifierContinue = true := by decide
      exact List.all_eq_true.mp all
    rw [String.toList_append]
    refine text.append fun c member =>
      isName_of_isDigit (Naming.isDigit_of_mem_numeral member)
  · next c rest isText =>
    rw [String.toList_ofList]
    rcases cases with none | made
    · cases isText.symm.trans none
    · rw [isText] at made
      rw [withValidStart]
      split
      · exact made
      · exact ⟨List.forall_mem_cons.mpr ⟨isName_underscore, made.areNames⟩, '_', _, rfl, rfl⟩

end AccessorName

/-- A derived name may be the name of an accessor. -/
theorem NamedEntry.IsDerived.isAccessorText {named : NamedEntry} (isDerived : named.IsDerived) :
    IsAccessorText named.name.toList := by
  obtain ⟨more, isName, behind⟩ := isDerived
  rw [isName]
  refine (AccessorName.isAccessorText_ofMessage _ _).append fun c member => ?_
  rcases behind c member with rfl | digit
  · exact isName_underscore
  · exact isName_of_isDigit digit

/-- A derived name is a word if what is made from the message is a word. -/
theorem NamedEntry.IsDerived.isWord {named : NamedEntry} (isDerived : named.IsDerived)
    (isWord : Lexeme.IsWord
      (AccessorName.ofMessage named.entry.message named.entry.code).toList) :
    Lexeme.IsWord named.name.toList := by
  obtain ⟨more, isName, behind⟩ := isDerived
  obtain ⟨c, tail, isText, begins, continues⟩ := isWord
  refine ⟨c, tail ++ more, by rw [isName, isText, List.cons_append], begins, ?_⟩
  refine List.forall_mem_append.mpr ⟨continues, fun d member => ?_⟩
  rcases behind d member with rfl | digit
  · decide
  · exact continuesWord_of_isDigit digit

/-- All names of the accessors of a method may be names of accessors. -/
theorem SiteModel.areAccessorTexts_named {model : SiteModel} {emission : Emission}
    {entries : List NamedEntry} (outcome : (model.named emission).outcome = .ok entries) :
    ∀ entry ∈ entries, IsAccessorText entry.name.toList :=
  fun entry member => ((derived_named outcome).2 entry member).isAccessorText

end Names

end ErrorAccessors
