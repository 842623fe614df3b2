/-
# Templates are laid out as declarations

A template puts members into classes, classes into a namespace, and directives in front.
Whatever the names and types in it are, as long as they are words and code, its lines
write the tokens of such declarations, and all of these are passed without a diagnostic.
No attribute stands in front of anything that is generated.
-/

import ErrorAccessors.Proofs.AccessorText
import ErrorAccessors.Proofs.LayoutText
import ErrorAccessors.Proofs.PassingOutline
import ErrorAccessors.Proofs.RenderedTypes
import ErrorAccessors.Template

namespace ErrorAccessors

open ErrorAccessors.Parser

namespace Template

/-- A text that is laid out as parts of one sort, one behind the other. -/
def Holds (sort : List TokenKind → Prop) (text : String) : Prop :=
  ∃ parts : List (List TokenKind), (∀ kinds ∈ parts, sort kinds) ∧ LaysOut text parts.flatten

namespace Holds

variable {sort : List TokenKind → Prop} {text more : String} {kinds : List TokenKind}

theorem nothing (laysOut : LaysOut text []) : Holds sort text :=
  ⟨[], List.forall_mem_nil _, laysOut⟩

theorem single (isSort : sort kinds) (laysOut : LaysOut text kinds) : Holds sort text :=
  ⟨[kinds], List.forall_mem_singleton.mpr isSort, by simpa using laysOut⟩

theorem append (first : Holds sort text) (second : Holds sort more) :
    Holds sort (text ++ "\n" ++ more) := by
  obtain ⟨parts, areSort, laysOut⟩ := first
  obtain ⟨others, areSortToo, laysOutToo⟩ := second
  refine ⟨parts ++ others, List.forall_mem_append.mpr ⟨areSort, areSortToo⟩, ?_⟩
  rw [List.flatten_append]
  exact laysOut.append laysOutToo

theorem lines {texts : List String} (hold : ∀ text ∈ texts, Holds sort text) :
    Holds sort (lines texts) := by
  unfold Template.lines
  induction texts with
  | nil => exact nothing .blank
  | cons first texts ih =>
      obtain ⟨holdsFirst, others⟩ := List.forall_mem_cons.mp hold
      cases texts with
      | nil => rwa [String.intercalate_singleton]
      | cons second texts =>
          rw [String.intercalate_cons_cons]
          exact holdsFirst.append (ih others)

end Holds

section Blocks

variable {head : String} {texts : List String} {kinds others : List TokenKind}

/-- Texts on lines of their own write their tokens one behind the other. -/
theorem laysOut_lines {parts : List (List TokenKind)} (layOut : List.Forall₂ LaysOut texts parts) :
    LaysOut (lines texts) parts.flatten := by
  unfold lines
  induction layOut with
  | nil => exact .blank
  | cons first later ih =>
      cases later with
      | nil => simpa using first
      | cons second later =>
          rw [String.intercalate_cons_cons, List.flatten_cons]
          exact first.append ih

/-- What is between braces stands on lines of its own. -/
theorem laysOut_block (isHead : WritesNeatly head.toList kinds)
    (inside : LaysOut (lines texts) others) :
    LaysOut (block head texts) (kinds ++ .mark .leftBrace :: (others ++ [.mark .rightBrace])) := by
  have opening : LaysOut "\x7b" [.mark .leftBrace] := .code (.mark (c := '\x7b') rfl (by decide))
  have closing : LaysOut "\x7d" [.mark .rightBrace] := .code (.mark (c := '\x7d') rfl (by decide))
  have whole := (((LaysOut.code isHead).append opening).append inside).append closing
  have isBlock : block head texts =
      head ++ "\n" ++ "\x7b" ++ "\n" ++ lines texts ++ "\n" ++ "\x7d" := by
    simp [block, ← String.toList_inj]
  rw [isBlock]
  simpa using whole

private theorem laysOut_emptyBlock (isHead : WritesNeatly head.toList kinds) :
    LaysOut (emptyBlock head) (kinds ++ [.mark .leftBrace, .mark .rightBrace]) := by
  have braces : LaysOut "\x7b\x7d" [.mark .leftBrace, .mark .rightBrace] :=
    .code
      ((WritesNeatly.mark (c := '\x7d') rfl (by decide)).behind_mark (c := '\x7b') rfl (by decide))
  have isBlock : emptyBlock head = head ++ "\n" ++ "\x7b\x7d" := by
    simp [emptyBlock, ← String.toList_inj]
  rw [isBlock]
  exact (LaysOut.code isHead).append braces

end Blocks

section Words

/-- The words that generated code is written with, and the endings of names in it. -/
private def codeWords : List String :=
  ["using", "namespace", "class", "static", "public", "int", "long", "new", "false", "default",
    "succeeded", "errorCode", "errorMessage", "response", "ResultsFactory", "ErrorCodeRepository",
    "ResultsProvider", "Errors"]

theorem isWord_of_mem {word : String} (isCode : word ∈ codeWords) : Lexeme.IsWord word.toList := by
  have areWords : ∀ word ∈ codeWords, Lexeme.IsWord word.toList := by decide
  exact areWords word isCode

end Words

section Classes

/-- The text up to the name of a class: some modifiers and the keyword. -/
structure IsClassHead (head : String) (words : List String) (name : String) : Prop where
  modify : ∀ word ∈ words, word ∈ modifierWords
  isWord : Lexeme.IsWord name.toList
  spelled : ∃ front, head = front ++ name ∧
    front.toList = (words ++ ["class"]).flatMap fun word => word.toList ++ [' ']

private theorem isWord_of_modifies {words : List String}
    (modify : ∀ word ∈ words, word ∈ modifierWords) :
    ∀ word ∈ words, Lexeme.IsWord word.toList := by
  have areWords : ∀ word ∈ modifierWords, Lexeme.IsWord word.toList := by decide
  exact fun word member => areWords word (modify word member)

variable {head name : String} {words texts : List String}

theorem IsClassHead.written (isHead : IsClassHead head words name) :
    WritesNeatly head.toList (words.map .ident ++ [.ident "class", .ident name]) := by
  have areWords : ∀ word ∈ words ++ ["class"], Lexeme.IsWord word.toList :=
    List.forall_mem_append.mpr ⟨isWord_of_modifies isHead.modify,
      List.forall_mem_singleton.mpr (isWord_of_mem (by decide))⟩
  obtain ⟨front, rfl, isFront⟩ := isHead.spelled
  rw [String.toList_append, isFront]
  simpa using (WritesNeatly.word isHead.isWord).behind_words areWords

/-- A class is laid out with its members between braces. -/
theorem IsClassHead.laysOut (isHead : IsClassHead head words name) {parts : List (List TokenKind)}
    (inside : LaysOut (lines texts) parts.flatten) :
    LaysOut (block head texts) (classKinds words name parts) := by
  simpa [classKinds, bareClassKinds] using laysOut_block isHead.written inside

/-- A class is of every sort that classes of bare members are of. -/
private theorem IsClassHead.holds {sort : List TokenKind → Prop}
    (isHead : IsClassHead head words name)
    (isSort : ∀ members, (∀ kinds ∈ members, BareMember kinds) →
      sort (classKinds words name members))
    (members : Holds BareMember (lines texts)) : Holds sort (block head texts) := by
  obtain ⟨parts, areMembers, laysOut⟩ := members
  exact .single (isSort parts areMembers) (isHead.laysOut laysOut)

theorem IsClassHead.holdsMember (isHead : IsClassHead head words name)
    (members : Holds BareMember (lines texts)) : Holds BareMember (block head texts) :=
  isHead.holds (fun _ => bareMember_class isHead.modify) members

theorem IsClassHead.holdsItem (isHead : IsClassHead head words name)
    (members : Holds BareMember (lines texts)) : Holds BareItem (block head texts) :=
  isHead.holds (fun _ => bareItem_class isHead.modify) members

theorem IsClassHead.holdsEmpty {sort : List TokenKind → Prop}
    (isHead : IsClassHead head words name)
    (isSort : ∀ members, (∀ kinds ∈ members, BareMember kinds) →
      sort (classKinds words name members)) :
    Holds sort (emptyBlock head) := by
  refine .single (isSort [] (List.forall_mem_nil _)) ?_
  simpa [classKinds, bareClassKinds] using laysOut_emptyBlock isHead.written

end Classes

section Members

variable {type name value : String} {nameKinds : List TokenKind}

/-- A name behind a type is cut into some tokens in front of a blank. -/
structure IsDeclaredName (type name : String) (nameKinds : List TokenKind) : Prop where
  isName : NameKinds nameKinds
  noWord : type ∈ "record" :: modifierWords → NoSpecialWord nameKinds
  written : ∀ more others, WritesNeatly more others →
    WritesNeatly (name.toList ++ ' ' :: more) (nameKinds ++ others)

theorem isDeclaredName_word (isWord : Lexeme.IsWord name.toList)
    (plain : type ∉ "record" :: modifierWords) : IsDeclaredName type name [.ident name] :=
  ⟨nameKinds_word name, fun special => absurd special plain,
    fun _ _ written => (WritesNeatly.word isWord).spaced written⟩

theorem exists_isDeclaredName (isText : IsAccessorText name.toList) :
    ∃ nameKinds, IsDeclaredName type name nameKinds := by
  obtain ⟨nameKinds, isName, noWord, writes⟩ := isText.exists_kinds (d := ' ') (by decide)
  exact ⟨nameKinds, isName, fun _ => noWord, fun more others written =>
    ⟨writes more others written.writes.behind_blank, isText.neat.spaced written.neat⟩⟩

/-- The signs in front of the value of a member. -/
inductive IsSign : String → Mark → Prop
  | equals : IsSign "=" .equals
  | arrow : IsSign "=>" .arrow

private theorem IsSign.assigns {sign : String} {mark : Mark} (isSign : IsSign sign mark) :
    mark = .equals ∨ mark = .arrow := by
  cases isSign with
  | equals => exact .inl rfl
  | arrow => exact .inr rfl

private theorem IsSign.written {sign : String} {mark : Mark} (isSign : IsSign sign mark)
    {more : List Char} {others : List TokenKind} (written : WritesNeatly more others) :
    WritesNeatly (sign.toList ++ ' ' :: more) (.mark mark :: others) := by
  cases isSign with
  | equals => exact written.behind_equals
  | arrow => exact written.behind_arrow

private theorem writesNeatly_semicolon : WritesNeatly [';'] [.mark .semicolon] :=
  .mark rfl (by decide)

/-- A member with a value is bare. -/
theorem holds_value (words : List String) (front : String) {sign : String} {mark : Mark}
    (nonempty : words ≠ [])
    (modify : ∀ word ∈ words, word ∈ modifierWords) (isType : Lexeme.IsWord type.toList)
    (noType : type ∉ plainTypeWords) (declared : IsDeclaredName type name nameKinds)
    (isSign : IsSign sign mark) (isValue : IsValue value)
    (isFront : front.toList = words.flatMap fun word => word.toList ++ [' ']) :
    Holds BareMember (front ++ (type ++ " " ++ name ++ " " ++ sign ++ " " ++ value ++ ";")) := by
  obtain ⟨inside, bracketed, written⟩ := isValue
  have passes := isTypeMember_of_value nonempty modify noType declared.isName declared.noWord
    isSign.assigns bracketed
  refine .single ⟨passes, ?_⟩ (.code ?_)
  · simp [declared.isName.bracketed.closed, bracketed.closed]
  · have ends := written ';' [] _ ⟨Lexeme.notWord_of_single rfl, by decide⟩ writesNeatly_semicolon
    have behind := declared.written _ _ (isSign.written ends)
    rw [String.toList_append, isFront]
    simpa using ((WritesNeatly.word isType).spaced behind).behind_words (isWord_of_modifies modify)

end Members

section Accessors

variable {resultType carried : String} {generics : List String}

private theorem writesNeatly_intercalate {names : List String} (some : names ≠ [])
    (areWords : ∀ name ∈ names, Lexeme.IsWord name.toList) :
    WritesNeatly (", ".intercalate names).toList
      (separatedKinds (names.map fun name => [.ident name])) := by
  induction names with
  | nil => exact absurd rfl some
  | cons first names ih =>
      obtain ⟨isWord, others⟩ := List.forall_mem_cons.mp areWords
      cases names with
      | nil => simpa [separatedKinds] using WritesNeatly.word isWord
      | cons second names =>
          have behind := (WritesNeatly.word isWord).append_comma (ih (List.cons_ne_nil _ _) others)
          rw [String.intercalate_cons_cons]
          simpa [separatedKinds] using behind

/-- Type parameters in front of the parameters of a method begin with a separator. -/
private theorem exists_writesNeatly_genericList
    (areWords : ∀ name ∈ generics, Lexeme.IsWord name.toList) :
    ∃ d, Lexeme.separates d = true ∧ ∀ more others, WritesNeatly ('(' :: more) others →
      ∃ behind, (genericList generics).toList ++ '(' :: more = d :: behind ∧
        WritesNeatly (d :: behind) (parameterKinds generics ++ others) := by
  by_cases none : generics = []
  · subst none
    exact ⟨'(', by decide, fun more others written => ⟨more, rfl, written⟩⟩
  · refine ⟨'<', by decide, fun more others written => ?_⟩
    have names := (writesNeatly_intercalate none areWords).concat_mark (c := '>') rfl (by decide)
    have whole := (names.behind_mark (c := '<') rfl (by decide)).append written fun e isHead => by
      obtain rfl := Option.some.inj isHead
      exact Lexeme.notWord_of_single (c := '(') rfl
    refine ⟨(", ".intercalate generics).toList ++ ['>'] ++ '(' :: more,
      by simp [genericList, none], ?_⟩
    simpa [parameterKinds, none] using whole

/-- The arguments of a result up to its code are a value. -/
theorem isValue_code (code : Int) :
    IsValue ("succeeded: false, errorCode: " ++ toString code) := by
  have isFalse : IsCode "false" := .word (isWord_of_mem (by decide))
  have isSucceeded : Lexeme.IsWord "succeeded".toList := isWord_of_mem (by decide)
  have isErrorCode : Lexeme.IsWord "errorCode".toList := isWord_of_mem (by decide)
  have failed := isFalse.isValue.labelled isSucceeded
  have coded := (IsValue.code code).labelled isErrorCode
  have spelled : "succeeded: false, errorCode: " ++ toString code =
      "succeeded" ++ ": " ++ "false" ++ ", " ++ ("errorCode" ++ ": " ++ toString code) := by
    simp [← String.toList_inj]
  rw [spelled]
  exact failed.append_comma coded

/-- So are those of a result that carries something. -/
theorem isValue_response (code : Int) :
    IsValue ("succeeded: false, errorCode: " ++ toString code ++ ", response: response") := by
  have isWord : Lexeme.IsWord "response".toList := isWord_of_mem (by decide)
  have responds : IsValue ("response" ++ ": " ++ "response") :=
    (IsCode.word isWord).isValue.labelled isWord
  have spelled : "succeeded: false, errorCode: " ++ toString code ++ ", response: response" =
      "succeeded: false, errorCode: " ++ toString code ++ ", " ++
        ("response" ++ ": " ++ "response") := by
    simp [← String.toList_inj]
  rw [spelled]
  exact (isValue_code code).append_comma responds

/-- The message may be one more argument. -/
private theorem isValue_withMessage {text : String} (isValue : IsValue text) (withMessage : Bool)
    (message : String) : IsValue
      (text ++ if withMessage then ", errorMessage: " ++ StringLiteral.encode message else "") := by
  cases withMessage with
  | false => simpa using isValue
  | true =>
      have isLabel : Lexeme.IsWord "errorMessage".toList := isWord_of_mem (by decide)
      have labelled := (IsValue.literal message).labelled isLabel
      have spelled : text ++ (", errorMessage: " ++ StringLiteral.encode message) =
          text ++ ", " ++ ("errorMessage" ++ ": " ++ StringLiteral.encode message) := by
        simp [← String.toList_inj]
      simpa [spelled] using isValue.append_comma labelled

/-- A result that is made from arguments. -/
private theorem isCode_new {result arguments : String} (isResult : IsCode result)
    (isValue : IsValue arguments) : IsCode ("new " ++ result ++ "(" ++ arguments ++ ")") := by
  have isNew : IsCode "new" := .word (isWord_of_mem (by decide))
  have made := (isNew.spaced isResult).called isValue
  have spelled : "new " ++ result = "new" ++ " " ++ result := by simp
  rw [spelled]
  exact made

/-- Behind its name a method that takes what it carries writes its type parameters, its
parameter and the type of the result that it makes. -/
theorem exists_writesNeatly_methodHead (isType : Lexeme.IsWord resultType.toList)
    (isCarried : IsCode carried) (areWords : ∀ name ∈ generics, Lexeme.IsWord name.toList) :
    ∃ d behind list result, Lexeme.separates d = true ∧ Bracketed list ∧ Bracketed result ∧
      (genericList generics ++ "(" ++ carried ++ " response = default) => new " ++
        (resultType ++ "<" ++ carried ++ ">")).toList = d :: behind ∧
      WritesNeatly (d :: behind) (parameterKinds generics ++ .mark .leftParen ::
        (list ++ .mark .rightParen :: .mark .arrow :: result)) := by
  have isNew : IsCode "new" := .word (isWord_of_mem (by decide))
  have isResponse : IsCode "response" := .word (isWord_of_mem (by decide))
  have isDefault : IsCode "default" := .word (isWord_of_mem (by decide))
  obtain ⟨list, bracketedList, writtenList⟩ := (isCarried.spaced isResponse).assigned isDefault
  obtain ⟨result, bracketedResult, writtenResult⟩ :=
    isNew.spaced ((IsCode.word isType).angled isCarried)
  obtain ⟨d, separator, generic⟩ := exists_writesNeatly_genericList areWords
  -- from the result at the end to the type parameters
  have tail := ((writtenList.concat_mark (c := ')') rfl (by decide)).spaced
    writtenResult.behind_arrow).behind_mark (c := '(') rfl (by decide)
  obtain ⟨behind, isBehind, writtenBehind⟩ := generic _ _ tail
  refine ⟨d, behind, list, result, separator, bracketedList, bracketedResult, ?_,
    by simpa using writtenBehind⟩
  rw [← isBehind]
  simp

/-- So it does with the arguments of the result behind it. -/
theorem exists_writesNeatly_methodRest {arguments : String}
    (isType : Lexeme.IsWord resultType.toList)
    (isCarried : IsCode carried) (areWords : ∀ name ∈ generics, Lexeme.IsWord name.toList)
    (areArguments : IsValue arguments) :
    ∃ d behind list body, Lexeme.separates d = true ∧ Bracketed list ∧ Bracketed body ∧
      (genericList generics ++ "(" ++ carried ++ " response = default) => new " ++
        (resultType ++ "<" ++ carried ++ ">") ++ "(" ++ arguments ++ ");").toList = d :: behind ∧
      WritesNeatly (d :: behind) (parameterKinds generics ++ .mark .leftParen ::
        (list ++ .mark .rightParen :: .mark .arrow :: (body ++ [.mark .semicolon]))) := by
  obtain ⟨d, behind, list, result, separator, bracketedList, bracketedResult, isHead, written⟩ :=
    exists_writesNeatly_methodHead isType isCarried areWords
  obtain ⟨inside, bracketedInside, writtenInside⟩ := areArguments
  have closed := writtenInside ')' [';'] _ ⟨Lexeme.notWord_of_single rfl, by decide⟩
    (writesNeatly_semicolon.behind_mark (c := ')') rfl (by decide))
  have whole := written.append_mark (c := '(') rfl (by decide) closed
  refine ⟨d, behind ++ '(' :: (arguments.toList ++ [')', ';']), list, _, separator, bracketedList,
    bracketedResult.append
      (bracketedInside.enclosed (by decide : (Mark.leftParen, Mark.rightParen) ∈ _)), ?_, ?_⟩
  · rw [← List.cons_append, ← isHead]
    simp
  · simpa using whole

/-- What is public and returns a result with what it carries, up to its name. -/
theorem writesNeatly_publicResult {text : List Char} {inside kinds : List TokenKind}
    (isType : Lexeme.IsWord resultType.toList) (isCarried : WritesNeatly carried.toList inside)
    (declared : WritesNeatly text kinds) :
    WritesNeatly (("public " ++ (resultType ++ "<" ++ carried ++ ">") ++ " ").toList ++ text)
      (.ident "public" :: .ident resultType :: .mark .less ::
        (inside ++ .mark .greater :: kinds)) := by
  have isPublic : Lexeme.IsWord "public".toList := isWord_of_mem (by decide)
  have typed := ((WritesNeatly.word isType).append_mark (c := '<') rfl (by decide)
    (isCarried.concat_mark (c := '>') rfl (by decide))).spaced declared
  simpa using (WritesNeatly.word isPublic).spaced typed

/-- A method that takes what it carries is bare. -/
private theorem holds_method {name arguments : String} (isType : Lexeme.IsWord resultType.toList)
    (noType : resultType ∉ plainTypeWords) (isCarried : IsCode carried)
    (isText : IsAccessorText name.toList) (areWords : ∀ name ∈ generics, Lexeme.IsWord name.toList)
    (areArguments : IsValue arguments) :
    Holds BareMember ("public " ++ (resultType ++ "<" ++ carried ++ ">") ++ " " ++ name ++
      genericList generics ++ "(" ++ carried ++ " response = default) => new " ++
      (resultType ++ "<" ++ carried ++ ">") ++ "(" ++ arguments ++ ");") := by
  obtain ⟨d, behind, list, body, separator, bracketedList, bracketedBody, isRest, writtenRest⟩ :=
    exists_writesNeatly_methodRest isType isCarried areWords areArguments
  obtain ⟨inside, bracketedInside, writtenInside⟩ := isCarried
  obtain ⟨nameKinds, isName, -, writes⟩ := isText.exists_kinds separator
  have passes : IsTypeMember GivesBare (["public"].map .ident ++ _) :=
    isTypeMember_of_generic (by simp) (by decide) noType bracketedInside isName
      (.method generics bracketedList bracketedBody)
  refine .single ⟨passes, ?_⟩ (.code ?_)
  · simp [isName.bracketed.closed, bracketedInside.closed, bracketedList.closed,
      bracketedBody.closed, (bracketed_parameterKinds generics).closed]
  · have named : WritesNeatly (name.toList ++ d :: behind) _ :=
      ⟨writes behind _ writtenRest.writes, isText.neat.append writtenRest.neat⟩
    rw [← isRest] at named
    simpa using writesNeatly_publicResult isType writtenInside named

/-- What accessors return is spelled like a type, and the names of type parameters are words. -/
structure IsSpelledShape (shape : ReturnShape) : Prop where
  payload : ∀ carried, shape.payload.type? = some carried → IsTypeCode carried
  generics : ∀ name ∈ shape.generics, Lexeme.IsWord name.toList

/-- The arguments of the result that answers with an error. -/
def resultArguments (entry : ErrorEntry) (withMessage : Bool) : String :=
  "succeeded: false, errorCode: " ++ toString entry.code ++ ", response: response" ++
    if withMessage then ", errorMessage: " ++ StringLiteral.encode entry.message else ""

theorem isValue_resultArguments (entry : ErrorEntry) (withMessage : Bool) :
    IsValue (resultArguments entry withMessage) :=
  isValue_withMessage (isValue_response entry.code) withMessage entry.message

/-- The accessor for an error where something is carried. -/
theorem accessor_of_carried {shape : ReturnShape} (carries : shape.payload.type? = some carried)
    (withMessage : Bool) (named : NamedEntry) :
    accessor resultType shape withMessage named =
      "public " ++ (resultType ++ "<" ++ carried ++ ">") ++ " " ++ named.name ++
        genericList shape.generics ++ "(" ++ carried ++ " response = default) => new " ++
        (resultType ++ "<" ++ carried ++ ">") ++ "(" ++ resultArguments named.entry withMessage ++
        ");" := by
  unfold accessor resultArguments
  rw [carries]
  simp [← String.toList_inj]

/-- The accessor for an error is bare. -/
theorem holds_accessor {shape : ReturnShape} {named : NamedEntry}
    (isType : Lexeme.IsWord resultType.toList) (noType : resultType ∉ plainTypeWords)
    (spelled : IsSpelledShape shape) (isText : IsAccessorText named.name.toList)
    (withMessage : Bool) :
    Holds BareMember (accessor resultType shape withMessage named) := by
  cases carries : shape.payload.type? with
  | none =>
      obtain ⟨nameKinds, declared⟩ := @exists_isDeclaredName resultType _ isText
      have arguments := isValue_withMessage (isValue_code named.entry.code) withMessage
        named.entry.message
      have isBare := holds_value ["public"] "public " (by simp) (by decide) isType
        noType declared .arrow (isCode_new (.word isType) arguments).isValue (by simp)
      refine (congrArg (Holds BareMember) ?_).mp isBare
      simp [accessor, carries, ← String.toList_inj]
  | some carried =>
      rw [accessor_of_carried carries]
      exact holds_method isType noType (spelled.payload carried carries).isCode isText
        spelled.generics (isValue_resultArguments named.entry withMessage)

end Accessors

section Names

variable {name suffix : String}

/-- A word with an ending. -/
theorem isWord_append (isWord : Lexeme.IsWord name.toList)
    (isSuffix : Lexeme.IsWord suffix.toList) :
    Lexeme.IsWord (name ++ suffix).toList := by
  obtain ⟨c, tail, isName, begins, goesOn⟩ := isWord
  refine ⟨c, tail ++ suffix.toList, by rw [String.toList_append, isName, List.cons_append],
    begins, ?_⟩
  exact List.forall_mem_append.mpr ⟨goesOn, isSuffix.continues⟩

/-- The endings of the names of generated types. -/
def typeEndings : List String := ["ResultsProvider", "Errors"]

private theorem typeEndings_subset : typeEndings ⊆ codeWords := by
  simp [typeEndings, codeWords]

/-- What ends like a generated type is no word with a meaning of its own. -/
private theorem append_not_mem (isEnding : suffix ∈ typeEndings) :
    name ++ suffix ∉ "record" :: modifierWords ++ plainTypeWords := by
  have noEnding : typeEndings.all (fun suffix => ("record" :: modifierWords ++ plainTypeWords).all
      fun word => !suffix.toList.isSuffixOf word.toList) = true := by
    decide
  intro member
  have ends : suffix.toList.isSuffixOf (name ++ suffix).toList = true := by
    rw [String.toList_append, List.isSuffixOf_iff_suffix]
    exact List.suffix_append _ _
  have none := List.all_eq_true.mp (List.all_eq_true.mp noEnding _ isEnding) _ member
  rw [ends] at none
  cases none

/-- A property that makes an object of the type that is named after it. -/
theorem holds_property (words : List String) (front suffix : String) (nonempty : words ≠ [])
    (modify : ∀ word ∈ words, word ∈ modifierWords) (isWord : Lexeme.IsWord name.toList)
    (isEnding : suffix ∈ typeEndings)
    (isFront : front.toList = words.flatMap fun word => word.toList ++ [' ']) :
    Holds BareMember (front ++ (name ++ suffix ++ " " ++ name ++ " => new();")) := by
  have other :
      name ++ suffix ∉ "record" :: modifierWords ++ plainTypeWords := append_not_mem isEnding
  rw [List.mem_append, not_or] at other
  have isSuffix : Lexeme.IsWord suffix.toList := isWord_of_mem (typeEndings_subset isEnding)
  have isNew : IsCode "new" := .word (isWord_of_mem (by decide))
  have isBare := holds_value words front nonempty modify (isWord_append isWord isSuffix) other.2
    (isDeclaredName_word isWord other.1) .arrow isNew.called_bare.isValue isFront
  refine (congrArg (Holds BareMember) ?_).mp isBare
  simp [← String.toList_inj]

end Names

end Template

end ErrorAccessors
