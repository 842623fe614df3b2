/-
# Annotations are read back

A method is annotated with errors by attributes in front of it, one for each code
and message.  The code is written in decimal and the message as a string literal;
either may be passed by its place or by its name.  Whatever codes and messages there
are, the method is read with just these entries, in their order.

The text goes through every stage of reading: it is cut into tokens, these are read
as attribute lists in front of the method, the method is found as a site, and the
arguments of its attributes are looked up by name and by place.  The least code is
written as the negation of a number that no word holds, which is why the numbers and
their negation wrap around.
-/

import ErrorAccessors.Proofs.PassingAttributes
import ErrorAccessors.Proofs.RunOutcome
import ErrorAccessors.Proofs.WrittenMethod
import ErrorAccessors.Proofs.LiteralText

namespace ErrorAccessors

open ErrorAccessors.Parser

section Text

/-- The marks that may stand between the name of an argument and its value. -/
inductive NameMark where
  | colon
  | equals
deriving DecidableEq

namespace NameMark

def mark : NameMark → Mark
  | colon => .colon
  | equals => .equals

/-- The mark with its white space. -/
def text : NameMark → String
  | colon => ": "
  | equals => " = "

end NameMark

/-- A code or a message as the value of an argument. -/
inductive EntryValue where
  | code (value : Int)
  | message (value : String)

namespace EntryValue

/-- A code in decimal, a message as a string literal. -/
def text : EntryValue → String
  | code value => toString value
  | message value => StringLiteral.encode value

/-- The value that is read. -/
def value : EntryValue → AttributeValue
  | code value => .int value
  | message value => .str value

/-- A code is a 64-bit integer. -/
def Fits : EntryValue → Prop
  | code value => -9223372036854775808 ≤ value ∧ value < 9223372036854775808
  | message _ => True

def kinds : EntryValue → List TokenKind
  | code (.ofNat value) => [.integer (Numeral.signedWord value)]
  | code (.negSucc less) => [.mark .minus, .integer (Numeral.signedWord (less + 1))]
  | message value => [.string value]

end EntryValue

/-- An argument of an annotation, passed by a name or by its place. -/
structure EntryArgument where
  naming : Option (String × NameMark)
  value : EntryValue

namespace EntryArgument

def nameText (argument : EntryArgument) : String :=
  match argument.naming with
  | none => ""
  | some (name, mark) => name ++ mark.text

def text (argument : EntryArgument) : String :=
  argument.nameText ++ argument.value.text

def nameKinds (argument : EntryArgument) : List TokenKind :=
  match argument.naming with
  | none => []
  | some (name, mark) => [.ident name, .mark mark.mark]

def kinds (argument : EntryArgument) : List TokenKind :=
  argument.nameKinds ++ argument.value.kinds

/-- The argument that is read. -/
def said (argument : EntryArgument) : AttributeArgument :=
  ⟨.nowhere, argument.naming.map Prod.fst, argument.value.value⟩

end EntryArgument

/-- How a code and a message are passed to the marker.  Arguments that stand in
their order may be passed by place; the other way round, both have to be named. -/
inductive ArgumentStyle where
  | codeFirst (code message : Option NameMark)
  | messageFirst (code message : NameMark)

/-- An annotation of a method with one error. -/
structure ErrorTag where
  entry : ErrorEntry
  style : ArgumentStyle

namespace ErrorTag

/-- The conventional marker. -/
def marker : Marker := {}

def first (tag : ErrorTag) : EntryArgument :=
  match tag.style with
  | .codeFirst code _ =>
    ⟨code.map fun mark => (marker.codeParameter, mark), .code tag.entry.code⟩
  | .messageFirst _ message =>
    ⟨some (marker.messageParameter, message), .message tag.entry.message⟩

def second (tag : ErrorTag) : EntryArgument :=
  match tag.style with
  | .codeFirst _ message =>
    ⟨message.map fun mark => (marker.messageParameter, mark), .message tag.entry.message⟩
  | .messageFirst code _ => ⟨some (marker.codeParameter, code), .code tag.entry.code⟩

def arguments (tag : ErrorTag) : List EntryArgument :=
  [tag.first, tag.second]

/-- The annotation as it is written on a line of its own. -/
def text (tag : ErrorTag) : String :=
  "[" ++ marker.shortName ++ "(" ++ tag.first.text ++ ", " ++ tag.second.text ++ ")]\n"

/-- The code of the error is a 64-bit integer. -/
def Fits (tag : ErrorTag) : Prop :=
  -9223372036854775808 ≤ tag.entry.code ∧ tag.entry.code < 9223372036854775808

def kinds (tag : ErrorTag) : List TokenKind :=
  attributeListKinds marker.shortName (tag.arguments.map EntryArgument.kinds)

end ErrorTag

/-- A class whose only member is a method behind some annotations. -/
def annotatedSource (typeName : String) (tags : List ErrorTag) (method : String) :
    String :=
  "class " ++ typeName ++ "\n\x7b\n" ++ String.join (tags.map ErrorTag.text) ++ method ++
    "\n\x7d\n"

end Text

section Writing

open Lexeme

variable {text : List Char} {kinds : List TokenKind}

/-- A value in front of what ends a number. -/
private theorem EntryValue.writes {value : EntryValue} (fits : value.Fits) {c : Char}
    (ends : Numeral.Ends c) (writes : Writes (c :: text) kinds) :
    Writes (value.text.toList ++ c :: text) (value.kinds ++ kinds) := by
  cases value with
  | message message =>
      have written := Writes.behind_literal message.toList writes
      rw [String.ofList_toList] at written
      simpa [EntryValue.text, EntryValue.kinds, StringLiteral.encode] using written
  | code code =>
      have written := writes.behind_code code ends
      have isKind : Numeral.codeKinds code = (EntryValue.code code).kinds := by
        cases code with
        | ofNat value =>
            have small : value < Numeral.wordCount := by
              obtain ⟨-, most⟩ := fits
              simp only [Int.ofNat_eq_natCast] at most
              show value < 18446744073709551616
              omega
            rw [Numeral.codeKinds, Numeral.decimalKind_of_fits small]
            rfl
        | negSucc less =>
            have small : less + 1 < Numeral.wordCount := by
              obtain ⟨least, -⟩ := fits
              show less + 1 < 18446744073709551616
              omega
            rw [Numeral.codeKinds, Numeral.decimalKind_of_fits small]
            rfl
      rwa [isKind] at written

private theorem EntryArgument.writes {argument : EntryArgument} (fits : argument.value.Fits)
    (named : ∀ naming ∈ argument.naming, IsWord naming.1.toList) {c : Char}
    (ends : Numeral.Ends c) (writes : Writes (c :: text) kinds) :
    Writes (argument.text.toList ++ c :: text) (argument.kinds ++ kinds) := by
  have written := argument.value.writes fits ends writes
  obtain ⟨naming, value⟩ := argument
  cases naming with
  | none => simpa [EntryArgument.text, EntryArgument.nameText, EntryArgument.kinds,
      EntryArgument.nameKinds] using written
  | some naming =>
      obtain ⟨name, mark⟩ := naming
      have isWord : IsWord name.toList := named _ rfl
      cases mark with
      | colon =>
          have behind := Writes.behind_word isWord (c := ':') (by decide) (.behind_colon written)
          simpa [EntryArgument.text, EntryArgument.nameText, EntryArgument.kinds,
            EntryArgument.nameKinds, NameMark.text, NameMark.mark] using behind
      | equals =>
          have behind := Writes.behind_word isWord (c := ' ') (by decide)
            (.behind_blank (.behind_equals written))
          simpa [EntryArgument.text, EntryArgument.nameText, EntryArgument.kinds,
            EntryArgument.nameKinds, NameMark.text, NameMark.mark] using behind

namespace ErrorTag

/-- The arguments of an annotation can be written, and begin as an argument does. -/
private theorem arguments_ok {tag : ErrorTag} (fits : tag.Fits) :
    ∀ argument ∈ tag.arguments, argument.value.Fits ∧
      ∀ naming ∈ argument.naming, IsWord naming.1.toList := by
  obtain ⟨entry, style⟩ := tag
  have code : IsWord marker.codeParameter.toList := by decide
  have message : IsWord marker.messageParameter.toList := by decide
  cases style with
  | codeFirst first second =>
      simp only [arguments, ErrorTag.first, ErrorTag.second, List.mem_cons, List.not_mem_nil,
        or_false, forall_eq_or_imp, forall_eq]
      refine ⟨⟨fits, ?_⟩, trivial, ?_⟩
      all_goals
        intro naming member
        obtain ⟨mark, -, rfl⟩ := Option.map_eq_some_iff.mp member
        assumption
  | messageFirst second first =>
      simp only [arguments, ErrorTag.first, ErrorTag.second, List.mem_cons, List.not_mem_nil,
        or_false, forall_eq_or_imp, forall_eq]
      refine ⟨⟨trivial, ?_⟩, fits, ?_⟩
      all_goals
        intro naming member
        obtain rfl := Option.some.inj member
        assumption

/-- An annotation in front of what writes anything. -/
private theorem writes {tag : ErrorTag} (fits : tag.Fits)
    (writes : Writes text kinds) :
    Writes (tag.text.toList ++ text) (tag.kinds ++ kinds) := by
  have isWord : IsWord marker.shortName.toList := by decide
  obtain ⟨⟨firstFits, firstNamed⟩, secondFits, secondNamed⟩ :
      (tag.first.value.Fits ∧ ∀ naming ∈ tag.first.naming, IsWord naming.1.toList) ∧
        tag.second.value.Fits ∧
          ∀ naming ∈ tag.second.naming, IsWord naming.1.toList := by
    simpa [arguments] using arguments_ok fits
  have closed : Writes (')' :: ']' :: '\n' :: text)
      (.mark .rightParen :: .mark .rightBracket :: kinds) :=
    .behind_mark rfl (by decide) (.behind_mark rfl (by decide) writes.behind_lineEnd)
  have second := EntryArgument.writes secondFits secondNamed ⟨by decide, by decide⟩ closed
  have first := EntryArgument.writes firstFits firstNamed (c := ',') ⟨by decide, by decide⟩
    (.behind_mark rfl (by decide) second.behind_blank)
  have written : Writes _ _ := .behind_mark (c := '[') rfl (by decide)
    (.behind_word isWord (c := '(') (by decide) (.behind_mark rfl (by decide) first))
  simpa [ErrorTag.text, ErrorTag.kinds, attributeListKinds, attributeKinds, separatedKinds,
    arguments] using written

end ErrorTag

end Writing

section Reading

/-- The tokens of a value are a literal with that value.  The least code is the only
one whose digits are more than a word holds; it is negated into itself. -/
private theorem EntryValue.literal?_kinds {value : EntryValue} (fits : value.Fits) :
    literal? value.kinds = some value.value := by
  cases value with
  | message message => rfl
  | code code =>
      obtain ⟨least, most⟩ := fits
      cases code with
      | ofNat value =>
          have within : value < Numeral.signBit := by
            show value < 9223372036854775808
            simp only [Int.ofNat_eq_natCast] at most
            omega
          simp only [EntryValue.kinds, literal?, EntryValue.value, Numeral.signedWord,
            if_pos within]
          rfl
      | negSucc less =>
          have negated : negateWord (Numeral.signedWord (less + 1)) = Int.negSucc less := by
            rw [negateWord, Numeral.signedWord]
            by_cases within : less + 1 < Numeral.signBit
            · rw [if_pos within]
              have bound : less + 1 < 9223372036854775808 := within
              refine Int.bmod_eq_of_le ?_ ?_ <;> simp only [Numeral.wordCount] <;> omega
            · obtain rfl : less = 9223372036854775807 := by
                simp only [Numeral.signBit] at within
                omega
              decide
          simp only [EntryValue.kinds, literal?, EntryValue.value, negated]

private theorem EntryArgument.namesArgument (argument : EntryArgument) :
    NamesArgument argument.nameKinds argument.said.name := by
  obtain ⟨naming, value⟩ := argument
  cases naming with
  | none => exact .positional
  | some naming =>
      obtain ⟨name, mark⟩ := naming
      refine .named ?_
      cases mark with
      | colon => exact .inl rfl
      | equals => exact .inr rfl

/-- No argument begins with the mark that ends the arguments. -/
private theorem EntryArgument.head_kinds (argument : EntryArgument) :
    ∃ kind, argument.kinds.head? = some kind ∧ kind ≠ .mark .rightParen := by
  obtain ⟨naming, value⟩ := argument
  cases naming with
  | some naming => exact ⟨_, rfl, nofun⟩
  | none =>
      cases value with
      | message message => exact ⟨_, rfl, nofun⟩
      | code code =>
          cases code with
          | ofNat value => exact ⟨_, rfl, nofun⟩
          | negSucc less => exact ⟨_, rfl, nofun⟩

namespace ErrorTag

/-- The attribute that is read. -/
def said (tag : ErrorTag) : Attribute :=
  ⟨.nowhere, [marker.shortName], tag.arguments.map EntryArgument.said⟩

/-- Annotations are read as attribute lists, one for each. -/
private theorem passes {tags : List ErrorTag} (fit : ∀ found ∈ tags, found.Fits) :
    Passes attributeLists (· ≠ some (.mark .leftBracket)) (tags.flatMap kinds)
      fun lists => lists.map AttributeList.unplaced =
        tags.map fun tag => ⟨.nowhere, none, [tag.said]⟩ := by
  refine passes_attributeLists (fun _ _ => rfl) fun tag member => ?_
  refine passes_attributeList (passes_appliedAttribute nofun
    (fun argument _ => argument.head_kinds) fun argument inArguments => ?_)
  obtain ⟨fits, -⟩ := arguments_ok (fit tag member) argument inArguments
  exact passes_attributeArgument argument.namesArgument (EntryValue.literal?_kinds fits)

end ErrorTag

end Reading

section Methods

/-- A method with a name and some attribute lists is read. -/
def GivesMethod (name : String) (lists : List AttributeList) (value : Option TypeMember) : Prop :=
  ∃ method, value = some (.method method) ∧ method.name = name ∧
    method.attributeLists.map AttributeList.unplaced = lists

/-- A text is a method with a name and without attributes: wherever its tokens stand,
they are passed as such a method, and it leaves no string literal open. -/
def IsMethodText (text name : String) : Prop :=
  ∃ kinds, Writes text.toList kinds ∧ TokenKind.openString ∉ kinds ∧
    ∀ nested, Passes (typeMember nested) EndsDeclaration kinds (GivesMethod name [])

/-- Where no attribute lists are read, nothing has been passed. -/
private theorem cursor_of_noLists {file : SourceFile} {cursor later : Cursor}
    (run : attributeLists file cursor = .ok [] later) :
    cursor.peek? 0 ≠ some (.mark .leftBracket) ∧ later = cursor := by
  have noBracket : cursor.peek? 0 ≠ some (.mark .leftBracket) := by
    intro opened
    have rounds : loop [] listRound file cursor = .ok [] later := run
    rw [loop_apply file progresses_listRound, listRound_apply, if_pos opened] at rounds
    cases first : attributeList file cursor with
    | error diagnostic reached => simp [first] at rounds
    | ok list reached =>
        simp only [first, List.nil_append] at rounds
        -- a list that has been found stays among those found
        refine @loop_induction _ _ file progresses_listRound (fun found _ => found ≠ [])
          (fun found _ => found ≠ []) ?_ _ _ _ _ (List.cons_ne_nil list []) rounds rfl
        intro found here behind outcome nonempty round
        rw [listRound_apply] at round
        split at round
        · cases read : attributeList file here with
          | error diagnostic reached => simp [read] at round
          | ok next reached =>
              simp only [read] at round
              cases round
              simp
        · cases round
          exact nonempty
  refine ⟨noBracket, ?_⟩
  cases run.symm.trans (attributeLists_of_none file noBracket)
  rfl

/-- A method that is read without attributes is read behind attribute lists with
these. -/
private theorem typeMember_behind_lists
    {nested : Span → List AttributeList → List Modifier → Parser TypeDecl} {file : SourceFile}
    {cursor behind later : Cursor} {lists : List AttributeList} {method : MethodDecl}
    (begins : cursor.peek? 0 ≠ some (.mark .semicolon))
    (read : attributeLists file cursor = .ok lists behind)
    (run : typeMember nested file behind = .ok (some (.method method)) later)
    (plain : method.attributeLists = []) :
    ∃ span, typeMember nested file cursor =
      .ok (some (.method { method with span := span, attributeLists := lists })) later := by
  obtain ⟨⟨parts⟩, -⟩ := exists_parts run
  obtain ⟨-, nothingPassed⟩ := cursor_of_noLists (plain ▸ parts.lists_read)
  let again : Parts file cursor later { method with attributeLists := lists } :=
    { parts with
      behindLists := behind
      noEmpty := begins
      lists_read := read
      words_read := (congrArg (modifiers file) nothingPassed).symm.trans parts.words_read }
  exact ⟨_, again.read⟩

variable {tags : List ErrorTag} {kinds : List TokenKind} {name : String}

/-- A method behind annotations is a member of a type. -/
private theorem isTypeMember_annotated (some : tags ≠ [])
    (fit : ∀ tag ∈ tags, tag.Fits)
    (isMethod : ∀ nested, Passes (typeMember nested) EndsDeclaration kinds (GivesMethod name [])) :
    IsTypeMember (GivesMethod name (tags.map fun tag =>
      ⟨.nowhere, none, [tag.said]⟩)) (tags.flatMap ErrorTag.kinds ++ kinds) := by
  intro depth _
  have head : (tags.flatMap ErrorTag.kinds ++ kinds).head? = .some (.mark .leftBracket) := by
    cases tags with
    | nil => exact absurd rfl some
    | cons tag others => rfl
  refine ⟨⟨.mark .leftBracket, head, by decide, by decide, by simp⟩, ?_⟩
  intro file previous tokens rest recorded areKinds ends
  obtain ⟨tagTokens, own, rfl, tagKinds, ownKinds⟩ :=
    List.map_eq_append_iff.mp areKinds
  obtain ⟨_, ⟨method, rfl, named, plain⟩, run⟩ := isMethod (typeDeclWithin depth) file
    (Token.lastOf previous tagTokens) own rest recorded ownKinds ends
  have noLists : method.attributeLists = [] := by simpa using plain
  have noBracket : (own ++ rest).head?.map (·.kind) ≠ .some (.mark .leftBracket) := by
    obtain ⟨⟨parts⟩, -⟩ := exists_parts run
    obtain ⟨noBracket, -⟩ := cursor_of_noLists (noLists ▸ parts.lists_read)
    rwa [Cursor.peek?, ← List.head?_eq_getElem?] at noBracket
  obtain ⟨lists, areSaid, listsRun⟩ := ErrorTag.passes fit file previous tagTokens
    (own ++ rest) recorded tagKinds noBracket
  have begins : (Cursor.mk previous (tagTokens ++ (own ++ rest)) recorded).peek? 0 ≠
      .some (.mark .semicolon) := by
    rw [Cursor.peek?, ← List.head?_eq_getElem?, ← List.append_assoc, List.head?_append,
      Option.map_or, ← List.head?_map, areKinds, head]
    simp
  obtain ⟨span, again⟩ := typeMember_behind_lists begins listsRun run noLists
  refine ⟨_, ⟨{ method with span := span, attributeLists := lists }, rfl, named, areSaid⟩, ?_⟩
  rw [List.append_assoc, Token.lastOf_append]
  exact again

end Methods

section Sources

open Lexeme

variable {tags : List ErrorTag} {typeName : String}

/-- Annotations in front of what writes anything. -/
private theorem ErrorTag.writes_all {text : List Char} {kinds : List TokenKind}
    (fit : ∀ tag ∈ tags, tag.Fits) (writes : Writes text kinds) :
    Writes (tags.flatMap (·.text.toList) ++ text)
      (tags.flatMap ErrorTag.kinds ++ kinds) := by
  induction tags with
  | nil => exact writes
  | cons tag others ih =>
      obtain ⟨fits, others⟩ := List.forall_mem_cons.mp fit
      rw [List.flatMap_cons, List.flatMap_cons, List.append_assoc, List.append_assoc]
      exact ErrorTag.writes fits (ih others)

/-- The source is a class with one member. -/
private theorem writes_annotatedSource {method : String} {kinds : List TokenKind}
    (isWord : IsWord typeName.toList) (fit : ∀ tag ∈ tags, tag.Fits)
    (writes : Writes method.toList kinds) :
    Writes (annotatedSource typeName tags method).toList
      (classKinds [] typeName [tags.flatMap ErrorTag.kinds ++ kinds]) := by
  have keyword : IsWord "class".toList := by decide
  have closing : Writes ['\n', '\x7d', '\n'] [.mark .rightBrace] :=
    .behind_lineEnd (.behind_mark rfl (by decide) (.behind_lineEnd .nothing))
  have apart : continuesWord '\n' = false := by decide
  have method := writes.append closing fun d isHead => by
    obtain rfl := Option.some.inj isHead
    exact apart
  have body : Writes _ _ := .behind_lineEnd (.behind_mark (c := '\x7b') rfl (by decide)
    (.behind_lineEnd (ErrorTag.writes_all fit method)))
  have written : Writes _ _ := .behind_word keyword (c := ' ') (by decide)
    (.behind_blank (.behind_word isWord (by decide) body))
  have joined : (String.join (tags.map ErrorTag.text)).toList =
      tags.flatMap (·.text.toList) := by
    rw [String.toList_join, List.flatMap_map]
  simpa [annotatedSource, classKinds, bareClassKinds, joined] using written

/-- Annotations leave no string literal open. -/
private theorem ErrorTag.closed (tag : ErrorTag) :
    TokenKind.openString ∉ tag.kinds := by
  have value (value : EntryValue) : TokenKind.openString ∉ value.kinds := by
    rcases value with (_ | _) | _ <;> simp [EntryValue.kinds]
  have argument (argument : EntryArgument) : TokenKind.openString ∉ argument.kinds := by
    obtain ⟨_ | naming, own⟩ := argument <;>
      simp [EntryArgument.kinds, EntryArgument.nameKinds, value own]
  simp [kinds, attributeListKinds, attributeKinds, separatedKinds, arguments, argument]

end Sources

section Entries

variable {tags : List ErrorTag}

/-- An attribute that is read of an annotation gives its entry. -/
private theorem ErrorTag.errorEntry?_of_said {tag : ErrorTag} {applied : Attribute}
    (isSaid : applied.unplaced = tag.said) :
    marker.accepts (AppliedAttribute.ofAttribute applied).name = true ∧
      AppliedAttribute.errorEntry? (.ofAttribute applied) marker = some tag.entry := by
  obtain ⟨span, name, arguments⟩ := applied
  simp only [Attribute.unplaced, said, Attribute.mk.injEq, true_and] at isSaid
  obtain ⟨rfl, same⟩ := isSaid
  have views : (arguments.map fun argument => (argument.name, argument.value)) =
      (tag.arguments.map EntryArgument.said).map fun argument =>
        (argument.name, argument.value) := by
    rw [← same, List.map_map]
    rfl
  have accepted : marker.accepts marker.shortName = true := by decide
  refine ⟨accepted, ?_⟩
  obtain ⟨⟨code, message⟩, style⟩ := tag
  simp only [AppliedAttribute.ofAttribute, views, AppliedAttribute.errorEntry?,
    AppliedAttribute.intArgument?, AppliedAttribute.strArgument?, AppliedAttribute.argument?]
  rcases style with ⟨_ | first, _ | second⟩ | ⟨first, second⟩ <;>
    rfl

/-- Attributes that are read of annotations give the entries in their order, and all
of them are usable. -/
private theorem ErrorTag.entries_of_said {attributes : List Attribute}
    (areSaid : attributes.map Attribute.unplaced = tags.map ErrorTag.said) :
    (∀ applied ∈ attributes.map AppliedAttribute.ofAttribute,
        marker.accepts applied.name = true ∧ ( applied.errorEntry? marker).isSome = true) ∧
      (attributes.map AppliedAttribute.ofAttribute).filterMap
        (fun applied => applied.errorEntry? marker) = tags.map (·.entry) := by
  induction tags generalizing attributes with
  | nil =>
      obtain rfl : attributes = [] := by simpa using areSaid
      exact ⟨List.forall_mem_nil _, rfl⟩
  | cons tag others ih =>
      obtain ⟨applied, behind, rfl, isSaid, behindSaid⟩ := List.map_eq_cons_iff.mp areSaid
      obtain ⟨usable, entries⟩ := ih behindSaid
      obtain ⟨accepted, entry⟩ := ErrorTag.errorEntry?_of_said isSaid
      refine ⟨List.forall_mem_cons.mpr ⟨⟨accepted, by rw [entry]; rfl⟩, usable⟩, ?_⟩
      rw [List.map_cons, List.filterMap_cons, entry]
      simp only [entries, List.map_cons]

/-- A method with the attributes of some annotations is marked, has their entries and
gives no warning. -/
private theorem MethodSymbol.entries_of_tags {symbol : MethodSymbol} {method : MethodDecl}
    (some : tags ≠ [])
    (attributes : symbol.attributes = method.attributes.map AppliedAttribute.ofAttribute)
    (areSaid : method.attributeLists.map AttributeList.unplaced =
      tags.map fun tag => ⟨.nowhere, none, [tag.said]⟩) :
    symbol.isMarked ErrorTag.marker = true ∧
      symbol.errorEntries ErrorTag.marker = tags.map (·.entry) ∧
      symbol.annotationWarnings ErrorTag.marker = [] := by
  have flattened : method.attributes.map Attribute.unplaced = tags.map ErrorTag.said := by
    have inLists := congrArg (List.flatMap AttributeList.attributes) areSaid
    rw [List.flatMap_map, List.flatMap_map] at inLists
    rw [MethodDecl.attributes, List.map_flatMap]
    exact inLists.trans List.map_eq_flatMap.symm
  obtain ⟨usable, entries⟩ := ErrorTag.entries_of_said flattened
  rw [← attributes] at usable entries
  have all : symbol.annotations ErrorTag.marker = symbol.attributes :=
    List.filter_eq_self.mpr fun applied member => (usable applied member).1
  refine ⟨?_, ?_, ?_⟩
  · have nonempty : symbol.attributes ≠ [] := by
      rw [attributes, ← List.length_pos_iff, List.length_map,
        ← List.length_map (f := Attribute.unplaced), flattened, List.length_map]
      exact List.length_pos_iff.mpr some
    obtain ⟨applied, member⟩ := List.exists_mem_of_ne_nil _ nonempty
    exact List.any_eq_true.mpr ⟨applied, member, (usable applied member).1⟩
  · rw [MethodSymbol.errorEntries, all, entries]
  · rw [MethodSymbol.annotationWarnings, all, List.map_eq_nil_iff, List.filter_eq_nil_iff]
    intro applied member
    simp [Option.isSome_iff_ne_none.mp (usable applied member).2]

end Entries

section Sites

variable {decl : TypeDecl} {method : MethodDecl}

/-- The methods of a file with one class that has one method. -/
private theorem PlacedMethod.ofUnits_of_class (members : decl.members = [.method method])
    (path : String) (span : Span) :
    PlacedMethod.ofUnits [⟨path, span, [], [.type decl]⟩] = [⟨⟨decl, {}⟩, method⟩] := by
  obtain ⟨declSpan, kind, name, nameSpan, parameters, lists, modifiers, own⟩ := decl
  obtain rfl : own = [.method method] := members
  rfl

end Sites

/-- A method behind annotations is read with just their entries, in their order, and
without a diagnostic or a warning, whatever the codes and messages are and however
they are passed. -/
theorem ErrorTag.read_back {tags : List ErrorTag} (some : tags ≠ [])
    (fit : ∀ tag ∈ tags, tag.Fits) {typeName method name : String}
    (isWord : Lexeme.IsWord typeName.toList) (isMethod : IsMethodText method name)
    (path : String) :
    ∃ unit, SourceUnit.parse (annotatedSource typeName tags method) path = .ok unit ∧
      ∃ site, MarkedSite.ofUnits {} [unit] = [site] ∧ site.typeName = typeName ∧
        site.method = name ∧ ∀ grammar : ResultGrammar, ∃ shape,
          site.read (TypeTable.ofUnits [unit]) {} grammar =
            ⟨.ok (.some ⟨site, tags.map (·.entry), shape, []⟩), []⟩ := by
  obtain ⟨kinds, writes, closed, passes⟩ := isMethod
  have member := isTypeMember_annotated some fit passes
  have item := @isItem_class _ [_] [] typeName nofun (List.forall_mem_singleton.mpr member)
  have closedAll : TokenKind.openString ∉
      classKinds [] typeName [tags.flatMap ErrorTag.kinds ++ kinds] := by
    have noOpen : ∀ tag ∈ tags, TokenKind.openString ∉ tag.kinds :=
      fun tag _ => tag.closed
    simpa [classKinds, bareClassKinds, closed] using noOpen
  obtain ⟨values, oneValue, given, body, bodyIs, span, parsed⟩ := @SourceUnit.parse_of_items _
    [_] _ (by simpa using writes_annotatedSource isWord fit writes)
    (List.forall_mem_singleton.mpr item) (by simpa using closedAll) path
  obtain ⟨value, rfl⟩ := List.length_eq_one_iff.mp oneValue
  obtain ⟨decl, rfl, isClass⟩ := List.forall_mem_singleton.mp given
  obtain ⟨methods, oneMethod, methodsGiven, members⟩ := isClass.members
  obtain ⟨value, rfl⟩ := List.length_eq_one_iff.mp oneMethod
  obtain ⟨found, rfl, named, areSaid⟩ := List.forall_mem_singleton.mp methodsGiven
  obtain rfl : body = ⟨[], [.type decl]⟩ := bodyIs
  let unit : SourceUnit := ⟨path, span, [], [.type decl]⟩
  let placed : PlacedMethod := ⟨⟨decl, {}⟩, found⟩
  have only : PlacedMethod.ofUnits [unit] = [placed] :=
    PlacedMethod.ofUnits_of_class members path span
  let known := TypeTable.heads ([unit].flatMap SourceUnit.types)
  obtain ⟨marked, entries, silent⟩ := @MethodSymbol.entries_of_tags _ (placed.symbol known)
    found some rfl areSaid
  have isMarked : placed.isMarked {} = true := marked ▸ (placed.symbol_isMarked known {}).symm
  have selected : PlacedMethod.selected? {} [unit] placed.site = .some placed := by
    rw [PlacedMethod.selected?, only, List.find?_cons_of_pos]
    simp [isMarked, PlacedMethod.site, ScopedType.siteOf]
  refine ⟨unit, parsed, placed.site, ?_, isClass.name, named, fun grammar => ?_⟩
  · rw [MarkedSite.ofUnits, ← PlacedMethod.map_site_ofUnits, only, List.filter_cons_of_pos isMarked]
    rfl
  · obtain ⟨shape, shaped⟩ := @PlacedMethod.exists_returnShape [unit]
      (List.forall_mem_singleton.mpr ⟨_, _, parsed⟩) _ (List.mem_of_find?_eq_some selected) grammar
    refine ⟨shape, ?_⟩
    have entries : (placed.symbol known).errorEntries {} = tags.map (·.entry) := entries
    have silent : (placed.symbol known).annotationWarnings {} = [] := silent
    rw [MarkedSite.read_of_selected grammar selected, PlacedMethod.reading]
    simp only [shaped, known] at entries silent ⊢
    rw [entries, silent]
    rfl

/-- The tokens of the method `Result<int> Load();`. -/
private def loadKinds : List TokenKind :=
  [.ident "Result", .mark .less, .ident "int", .mark .greater] ++
    [.ident "Load", .mark .leftParen, .mark .rightParen, .mark .semicolon]

/-- The tokens are passed as the method, wherever they stand. -/
private theorem passes_load (nested : Span → List AttributeList → List Modifier → Parser TypeDecl) :
    Passes (typeMember nested) EndsDeclaration loadKinds (GivesMethod "Load" []) := by
  intro file previous tokens rest recorded areKinds _
  obtain ⟨typeTokens, behind, rfl, typeKinds, behindKinds⟩ := List.map_eq_append_iff.mp areKinds
  obtain ⟨nameToken, behind, rfl, isName, behindKinds⟩ := List.map_eq_cons_iff.mp behindKinds
  obtain ⟨opening, behind, rfl, opens, behindKinds⟩ := List.map_eq_cons_iff.mp behindKinds
  obtain ⟨closing, behind, rfl, closes, behindKinds⟩ := List.map_eq_cons_iff.mp behindKinds
  obtain ⟨semicolon, rfl, ends⟩ := List.map_eq_singleton_iff.mp behindKinds
  have spells : Spells (typeTokens.map (·.kind))
      (.type (.named none [⟨"Result", [.predefined "int" .nowhere]⟩] .nowhere)) :=
    typeKinds ▸ .named (by decide) (.lastPart (@Spells.genericPart "Result" _ [.ident "int"]
      (.lastArgument (.keyword (by decide)))))
  obtain ⟨returnType, -, read⟩ := @rereads_type file typeTokens
    (.named none [⟨"Result", [.predefined "int" .nowhere]⟩] .nowhere) spells file none typeTokens []
      [] (.refl file _) ⟨⟨nofun, nofun, nofun⟩, nofun, nofun, nofun⟩
  rw [List.append_nil] at read
  let written : WrittenMethod file :=
    { attributeTokens := []
      lists := []
      wordTokens := []
      typeTokens := typeTokens
      returnType := returnType
      nameToken := nameToken
      name := "Load"
      parameterTokens := []
      typeParameters := []
      listTokens := [opening, closing]
      bodyTokens := [semicolon]
      body := .absent
      attributes_read := ⟨none, rfl⟩
      words_modify := List.forall_mem_nil _
      type_read := ⟨_, read⟩
      type_plain := by
        intro word isFirst
        obtain rfl : "Result" = word := by simpa [← List.head?_map, typeKinds] using isFirst
        decide
      name_kind := isName
      name_plain := by decide
      parameters_read := .inl ⟨rfl, rfl⟩
      list_enclosed := ⟨congrArg some opens, closing, by
        simp only [closing?, opens, closes]
        rfl⟩
      body_written := .absent ends }
  obtain ⟨method, isRead, run⟩ := written.typeMember_of_method nested previous rest recorded
    (fun isOther => isOther.1 rfl)
  exact ⟨_, ⟨method, rfl, isRead.name, isRead.lists⟩, run⟩

/-- The text of the method. -/
private theorem isMethodText_load : IsMethodText "Result<int> Load();" "Load" := by
  have words : Lexeme.IsWord "Result".toList ∧ Lexeme.IsWord "int".toList ∧
      Lexeme.IsWord "Load".toList := by decide
  obtain ⟨result, int, load⟩ := words
  have tail : Writes ['(', ')', ';'] _ := .behind_mark rfl (by decide)
    (.behind_mark rfl (by decide) (.mark rfl (by decide)))
  have type : Writes _ _ := .behind_word result (c := '<') (by decide)
    (.behind_mark rfl (by decide) (.behind_word int (c := '>') (by decide)
      (.behind_mark rfl (by decide) (.behind_blank (.behind_word load (by decide) tail)))))
  exact ⟨loadKinds, type, by decide, passes_load⟩

/-- Three annotations: one passed by place with the least code, one the other way
round with quotes, line ends and a control character in its message, and one with the
code alone named. -/
private def loadTags : List ErrorTag :=
  [⟨⟨-9223372036854775808, "Not \"found\""⟩, .codeFirst none none⟩,
    ⟨⟨404, "line\nend \\ \x00 \x7f"⟩, .messageFirst .equals .colon⟩,
    ⟨⟨-1, ""⟩, .codeFirst (some .colon) none⟩]

/-- They are read back in front of the method. -/
theorem ErrorTag.read_back_of_load :
    loadTags ≠ [] ∧ (∀ tag ∈ loadTags, tag.Fits) ∧
      IsMethodText "Result<int> Load();" "Load" ∧
    ∃ unit, SourceUnit.parse (annotatedSource "Api" loadTags "Result<int> Load();") "Api.cs" =
        .ok unit ∧
      ∃ site, MarkedSite.ofUnits {} [unit] = [site] ∧ site.typeName = "Api" ∧
        site.method = "Load" ∧ ∀ grammar : ResultGrammar, ∃ shape,
          site.read (TypeTable.ofUnits [unit]) {} grammar =
            ⟨.ok (some ⟨site, loadTags.map (·.entry), shape, []⟩), []⟩ := by
  have nonempty : loadTags ≠ [] := List.cons_ne_nil _ _
  have fit : ∀ tag ∈ loadTags, tag.Fits := by
    simp [loadTags, ErrorTag.Fits]
  exact ⟨nonempty, fit, isMethodText_load,
    ErrorTag.read_back nonempty fit (by decide) isMethodText_load "Api.cs"⟩

end ErrorAccessors
