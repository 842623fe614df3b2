/-
# Repairs of return types

A repair is put together as text: the wrapper as it was written or the default one, and in it
the result type around what the method returned.  For a grammar whose names are type names,
the text is that of a type.  So it is read back, the type that is read is admitted for the
method, and it carries what the method returned before.
-/

import ErrorAccessors.Proofs.ContractReport
import ErrorAccessors.Proofs.FullNames
import ErrorAccessors.Proofs.TypeRoundTrip

namespace ErrorAccessors

open Lexeme

/-- A word that can be the name of a type: it is not taken for a built-in type. -/
structure TypeExpr.IsTypeName (name : String) : Prop where
  isWord : IsWord name.toList
  isName : name ∉ TypeExpr.keywords

/-- The result type and the wrappers of a grammar are names of types, there is a wrapper, and
no wrapper is called like the result type. -/
structure ResultGrammar.HasTypeNames (grammar : ResultGrammar) : Prop where
  wraps : grammar.asyncWrappers ≠ []
  result : TypeExpr.IsTypeName grammar.resultType
  wrapper : ∀ name ∈ grammar.asyncWrappers, TypeExpr.IsTypeName name
  apart : grammar.resultType ∉ grammar.asyncWrappers

namespace TypeExpr

section Places

/-- Of a type without its places the same is seen as of the type, without places. -/
theorem head?_unplaced (type : TypeExpr) : TypeView.head? type.unplaced = TypeView.head? type := by
  cases type with
  | named qualifier segments span =>
      rw [unplaced_named]
      show (segments.map NameSegment.unplaced).getLast?.map (·.name) =
        segments.getLast?.map (·.name)
      rw [List.getLast?_map, Option.map_map]
      rfl
  | tuple elements span => rw [unplaced_tuple]; rfl
  | _ => rfl

theorem keepsArguments_unplaced (type : TypeExpr) : TypeView.KeepsArguments unplaced type := by
  cases type with
  | named qualifier segments span =>
      rw [TypeView.KeepsArguments, unplaced_named]
      show ((segments.map NameSegment.unplaced).getLast?.map (·.arguments)).getD [] =
        ((segments.getLast?.map (·.arguments)).getD []).map unplaced
      rw [List.getLast?_map]
      cases segments.getLast? <;> rfl
  | tuple elements span => rw [TypeView.KeepsArguments, unplaced_tuple]; rfl
  | _ => rfl

/-- A grammar reads a type alike without its places. -/
theorem readsAlike_unplaced (grammar : ResultGrammar) (type : TypeExpr) :
    ReadsAlike grammar unplaced type :=
  (ResultGrammar.readsAlike_iff_of_head (head?_unplaced type) (keepsArguments_unplaced type)
    fun inner _ => keepsArguments_unplaced inner).mpr
    fun inner _ =>
      ResultGrammar.isResult_view (head?_unplaced inner) (keepsArguments_unplaced inner)

end Places

section Applied

theorem isWellFormed_plain {name : String} (isName : IsTypeName name) (arguments : List TypeExpr)
    (formed : ∀ argument ∈ arguments, argument.IsWellFormed) (span : Span) :
    (named none [⟨name, arguments⟩] span).IsWellFormed :=
  .named isName.isName nofun (List.forall_mem_singleton.mpr isName.isWord)
    (List.forall_mem_singleton.mpr formed)

/-- Without the arguments of the last part, the parts of a name are its texts in front of the
last name. -/
theorem headTexts_concat (before : List NameSegment) (last : NameSegment) :
    NameSegment.headTexts (before ++ [last]) = before.map NameSegment.text ++ [last.name] := by
  induction before with
  | nil => rfl
  | cons first rest ih =>
      cases rest with
      | nil => rfl
      | cons next rest =>
          show first.text :: NameSegment.headTexts (next :: rest ++ [last]) = _
          rw [ih]
          rfl

/-- One other argument in place of those behind a dotted name. -/
theorem textOfList_concat (before : List NameSegment) (name : String) (argument : TypeExpr)
    (last : NameSegment) (isLast : last.name = name) :
    NameSegment.textOfList (before ++ [⟨name, [argument]⟩]) =
      ".".intercalate (NameSegment.headTexts (before ++ [last])) ++
        ("<" ++ argument.text ++ ">") := by
  rw [NameSegment.textOfList_eq, headTexts_concat, isLast, ← intercalate_concat_append,
    List.map_append, List.map_singleton, NameSegment.text_eq]
  simp [angled]

/-- The only argument behind the name that a type is called by is well formed. -/
theorem IsWellFormed.of_called {type inner : TypeExpr} {name : String} (formed : type.IsWellFormed)
    (called : type.IsCalled name [inner]) : inner.IsWellFormed := by
  generalize shown : [inner] = arguments at called
  cases called with
  | keyword => cases shown
  | named qualifier before last span =>
      obtain ⟨-, -, -, each⟩ := isWellFormed_named_iff.mp formed
      apply (each last (List.mem_append_right _ List.mem_cons_self)).2
      rw [← shown]
      exact List.mem_cons_self

/-- A type that is called by a type name can be given another argument behind this name.  The
text is that of the type up to the name, with the argument behind. -/
theorem IsWellFormed.exists_called {type argument : TypeExpr} {name : String}
    {arguments : List TypeExpr} (formed : type.IsWellFormed) (called : type.IsCalled name arguments)
    (isName : IsTypeName name) (argumentFormed : argument.IsWellFormed) :
    ∃ other : TypeExpr, other.IsWellFormed ∧ other.IsCalled name [argument] ∧
      other.text = type.headText ++ "<" ++ argument.text ++ ">" := by
  cases called with
  | keyword word span =>
      cases formed with
      | predefined known => exact absurd known isName.isName
  | named qualifier before last span =>
      refine ⟨.named qualifier (before ++ [⟨last.name, [argument]⟩]) span, ?_,
        .named qualifier before ⟨last.name, [argument]⟩ span, ?_⟩
      · obtain ⟨-, isName, qualified, each⟩ := isWellFormed_named_iff.mp formed
        refine isWellFormed_named_iff.mpr ⟨by simp, ?_, qualified, ?_⟩
        · cases before with
          | nil => simpa using isName
          | cons first rest => simpa using isName
        · intro segment member
          obtain inFront | isLast := List.mem_append.mp member
          · exact each segment (List.mem_append_left _ inFront)
          · rw [List.mem_singleton.mp isLast]
            exact ⟨(each last (List.mem_append_right _ List.mem_cons_self)).1,
              List.forall_mem_singleton.mpr argumentFormed⟩
      · have dotted := textOfList_concat before last.name argument last rfl
        cases isSegments : before ++ [last] with
        | nil => simp at isSegments
        | cons first rest =>
            rw [isSegments] at dotted
            cases qualifier with
            | none => simp only [text, headText, dotted, String.append_assoc]
            | some word => simp only [text, headText, dotted, String.append_assoc]

end Applied

end TypeExpr

namespace ResultGrammar

variable {grammar : ResultGrammar} {type : TypeExpr} {isAsync : Bool}

/-- What a repaired return type has to carry: nothing for `void`, a wrapper around nothing and
a result without a value, and else the value of a result, what stands under the wrapper, or the
whole type. -/
def carried? (grammar : ResultGrammar) (type : TypeExpr) : Option TypeExpr :=
  if type.isVoid || grammar.isUnitWrapper type then none
  else if grammar.isResult type then (TypeView.arguments type).head?
  else some ((grammar.unwrap? type).getD type)

/-- Whether a repaired return type has a wrapper: it is made up for an asynchronous method and
kept where there was one. -/
def keepsWrapper (grammar : ResultGrammar) (type : TypeExpr) (isAsync : Bool) : Bool :=
  isAsync || grammar.isUnitWrapper type || (grammar.unwrap? type).isSome

/-- The payload of a value, if there is one, with or without a wrapper. -/
def payloadOf (isWrapped : Bool) : Option TypeExpr → Payload TypeExpr
  | none => .void
  | some value => if isWrapped then .asyncValue value else .value value

/-- The payload that a repaired return type has to have. -/
def repairedPayload (grammar : ResultGrammar) (type : TypeExpr) (isAsync : Bool) :
    Payload TypeExpr :=
  payloadOf (grammar.keepsWrapper type isAsync) (grammar.carried? type)

theorem HasTypeNames.defaultWrapper_mem (names : grammar.HasTypeNames) :
    grammar.defaultWrapper ∈ grammar.asyncWrappers := by
  obtain ⟨first, rest, some⟩ := List.exists_cons_of_ne_nil names.wraps
  rw [defaultWrapper, some]
  exact List.mem_cons_self

/-- A result is no wrapper. -/
theorem HasTypeNames.unwrap?_of_isResult (names : grammar.HasTypeNames)
    (result : grammar.isResult type = true) : grammar.unwrap? type = none := by
  refine Option.eq_none_iff_forall_ne_some.mpr fun inner unwraps => ?_
  obtain ⟨wrapper, isWrapper, called⟩ := unwrap?_eq_some_iff_isCalled.mp unwraps
  rw [isResult, Bool.and_eq_true, beq_iff_eq, (TypeExpr.isCalled_iff.mp called).1,
    Option.some.injEq] at result
  exact names.apart (result.1 ▸ isWrapper)

/-- The value that a result has around what it holds. -/
def valueIn (grammar : ResultGrammar) : Option TypeExpr → Option TypeExpr
  | none => none
  | some type => if grammar.isResult type then (TypeView.arguments type).head? else some type

/-- A result shows its value and nothing else. -/
theorem arguments_of_isResult (result : grammar.isResult type = true) :
    TypeView.arguments type = (TypeView.arguments type).head?.toList := by
  rw [isResult, Bool.and_eq_true, decide_eq_true_iff] at result
  cases shown : TypeView.arguments type with
  | nil => rfl
  | cons value others =>
      rw [shown, List.length_cons] at result
      rw [List.eq_nil_of_length_eq_zero (Nat.le_zero.mp (Nat.le_of_succ_le_succ result.2))]
      rfl

/-- The text of the result type around what it holds is that of a result. -/
theorem HasTypeNames.exists_resultOf (names : grammar.HasTypeNames) {held : Option TypeExpr}
    (formed : ∀ type ∈ held, type.IsWellFormed) :
    ∃ result : TypeExpr, result.IsWellFormed ∧ result.text = grammar.resultOf held ∧
      grammar.isResult result = true ∧
      TypeView.arguments result = (grammar.valueIn held).toList := by
  cases held with
  | none =>
      exact ⟨.named none [⟨grammar.resultType, []⟩] .nowhere,
        TypeExpr.isWellFormed_plain names.result [] nofun .nowhere, rfl,
        by simp [isResult, TypeView.head?, TypeView.arguments], rfl⟩
  | some type =>
      cases isIt : grammar.isResult type with
      | true =>
          refine ⟨type, formed type rfl, by rw [resultOf, if_pos isIt], isIt, ?_⟩
          rw [valueIn, if_pos isIt]
          exact arguments_of_isResult isIt
      | false =>
          refine ⟨.named none [⟨grammar.resultType, [type]⟩] .nowhere,
            TypeExpr.isWellFormed_plain names.result [type]
              (List.forall_mem_singleton.mpr (formed type rfl)) .nowhere, ?_,
            by simp [isResult, TypeView.head?, TypeView.arguments], ?_⟩
          · simp [resultOf, isIt, TypeExpr.text, NameSegment.textOfList, NameSegment.text,
              TypeExpr.textOfList]
          · rw [valueIn, isIt]
            rfl

variable {value : Option TypeExpr}

/-- Under a wrapper a result conforms, and its value is the payload. -/
theorem settles_of_wrapped {result : TypeExpr} {wrapper : String}
    (isWrapper : wrapper ∈ grammar.asyncWrappers) (called : type.IsCalled wrapper [result])
    (isResult : grammar.isResult result = true)
    (shows : TypeView.arguments result = value.toList) :
    grammar.conforms type isAsync = true ∧ grammar.payload type = payloadOf true value := by
  have unwraps : grammar.unwrap? type = some result :=
    unwrap?_eq_some_iff_isCalled.mpr ⟨wrapper, isWrapper, called⟩
  refine ⟨by rw [conforms, unwraps]; exact isResult, ?_⟩
  simp only [payload, unwraps, shows]
  cases value <;> rfl

/-- Without a wrapper a result conforms for a method that is not asynchronous, and its value is
the payload. -/
theorem HasTypeNames.settles_of_bare (names : grammar.HasTypeNames)
    (isResult : grammar.isResult type = true)
    (shows : TypeView.arguments type = value.toList) :
    grammar.conforms type false = true ∧ grammar.payload type = payloadOf false value := by
  have unwraps := names.unwrap?_of_isResult isResult
  refine ⟨by rw [conforms, unwraps]; exact isResult, ?_⟩
  simp only [payload, unwraps, shows]
  cases value <;> rfl

/-- The default wrapper can be put around every type. -/
theorem HasTypeNames.exists_defaultWrapped (names : grammar.HasTypeNames)
    (formed : type.IsWellFormed) :
    ∃ wrapped : TypeExpr, wrapped.IsWellFormed ∧ wrapped.IsCalled grammar.defaultWrapper [type] ∧
      wrapped.text = grammar.defaultWrapper ++ "<" ++ type.text ++ ">" := by
  refine ⟨.named none ([] ++ [⟨grammar.defaultWrapper, [type]⟩]) .nowhere, ?_,
    .named none [] ⟨grammar.defaultWrapper, [type]⟩ .nowhere, ?_⟩
  · exact TypeExpr.isWellFormed_plain (names.wrapper _ names.defaultWrapper_mem) [type]
      (List.forall_mem_singleton.mpr formed) .nowhere
  · simp [TypeExpr.text, NameSegment.textOfList, NameSegment.text, TypeExpr.textOfList]

variable (isAsync) in
/-- Where a type has a wrapper, the wrapper is kept around a result. -/
theorem HasTypeNames.exists_rewrapped (names : grammar.HasTypeNames) (formed : type.IsWellFormed)
    {wrapper : String} {arguments : List TypeExpr} (isWrapper : wrapper ∈ grammar.asyncWrappers)
    (called : type.IsCalled wrapper arguments) {held : Option TypeExpr}
    (apart : grammar.takeApart type = (some type.headText, held))
    (heldFormed : ∀ inner ∈ held, inner.IsWellFormed) :
    ∃ fixed : TypeExpr, fixed.IsWellFormed ∧ fixed.text = grammar.corrected type isAsync ∧
      grammar.conforms fixed isAsync = true ∧
      grammar.payload fixed = payloadOf true (grammar.valueIn held) := by
  obtain ⟨result, resultFormed, isText, isResult, shows⟩ := names.exists_resultOf heldFormed
  obtain ⟨fixed, fixedFormed, fixedCalled, fixedText⟩ :=
    formed.exists_called called (names.wrapper _ isWrapper) resultFormed
  obtain ⟨conforming, carries⟩ := settles_of_wrapped isWrapper fixedCalled isResult shows
  refine ⟨fixed, fixedFormed, ?_, conforming, carries⟩
  rw [fixedText, isText, corrected, apart]
  rfl

variable (isAsync) in
/-- Where a type has no wrapper, there is one around the result of an asynchronous method. -/
theorem HasTypeNames.exists_wrapped (names : grammar.HasTypeNames) {held : Option TypeExpr}
    (apart : grammar.takeApart type = (none, held))
    (heldFormed : ∀ inner ∈ held, inner.IsWellFormed) :
    ∃ fixed : TypeExpr, fixed.IsWellFormed ∧ fixed.text = grammar.corrected type isAsync ∧
      grammar.conforms fixed isAsync = true ∧
      grammar.payload fixed = payloadOf isAsync (grammar.valueIn held) := by
  obtain ⟨result, resultFormed, isText, isResult, shows⟩ := names.exists_resultOf heldFormed
  cases isAsync with
  | false =>
      obtain ⟨conforming, carries⟩ := names.settles_of_bare isResult shows
      refine ⟨result, resultFormed, ?_, conforming, carries⟩
      rw [isText, corrected, apart]
      rfl
  | true =>
      obtain ⟨fixed, fixedFormed, called, fixedText⟩ := names.exists_defaultWrapped resultFormed
      obtain ⟨conforming, carries⟩ :=
        settles_of_wrapped names.defaultWrapper_mem called isResult shows
      refine ⟨fixed, fixedFormed, ?_, conforming, carries⟩
      rw [fixedText, isText, corrected, apart]
      rfl

/-- No wrapper is the keyword of a type without values. -/
theorem HasTypeNames.isVoid_of_called (names : grammar.HasTypeNames) (formed : type.IsWellFormed)
    {wrapper : String} {arguments : List TypeExpr} (isWrapper : wrapper ∈ grammar.asyncWrappers)
    (called : type.IsCalled wrapper arguments) : type.isVoid = false := by
  cases called with
  | named => rfl
  | keyword word span =>
      cases formed with
      | predefined known => exact absurd known (names.wrapper _ isWrapper).isName

/-- The text that a return type is replaced with, if it does not conform, is that of a type
that conforms and has the payload that is to be kept. -/
theorem HasTypeNames.exists_corrected (names : grammar.HasTypeNames) (formed : type.IsWellFormed)
    (breaks : grammar.conforms type isAsync = false) :
    ∃ fixed : TypeExpr, fixed.IsWellFormed ∧ fixed.text = grammar.corrected type isAsync ∧
      grammar.conforms fixed isAsync = true ∧
      grammar.payload fixed = grammar.repairedPayload type isAsync := by
  cases unwraps : grammar.unwrap? type with
  | some inner =>
      -- a wrapper around something that is no result
      obtain ⟨wrapper, isWrapper, called⟩ := unwrap?_eq_some_iff_isCalled.mp unwraps
      have noResult : grammar.isResult inner = false := by
        rw [conforms, unwraps] at breaks
        exact breaks
      have outside : grammar.isResult type = false := by
        rw [Bool.eq_false_iff]
        intro result
        rw [names.unwrap?_of_isResult result] at unwraps
        cases unwraps
      have notUnit : grammar.isUnitWrapper type = false := by
        rw [isUnitWrapper, (TypeExpr.isCalled_iff.mp called).2]
        exact Bool.and_false _
      have apart : grammar.takeApart type = (some type.headText, some inner) := by
        rw [takeApart, unwraps]
      obtain ⟨fixed, fixedFormed, isText, conforming, carries⟩ :=
        names.exists_rewrapped isAsync formed isWrapper called apart
          fun _ same => Option.mem_some_iff.mp same ▸ formed.of_called called
      refine ⟨fixed, fixedFormed, isText, conforming, carries.trans ?_⟩
      simp [repairedPayload, carried?, keepsWrapper, names.isVoid_of_called formed isWrapper called,
        notUnit, outside, unwraps, valueIn, noResult]
  | none =>
      cases isUnit : grammar.isUnitWrapper type with
      | true =>
          have isWrapper := isUnit
          rw [isUnitWrapper, Bool.and_eq_true, Option.any_eq_true, List.isEmpty_iff] at isWrapper
          obtain ⟨⟨wrapper, isHead, isWrapper⟩, noArguments⟩ := isWrapper
          have apart : grammar.takeApart type = (some type.headText, none) := by
            rw [takeApart, unwraps]
            simp [isUnit]
          obtain ⟨fixed, fixedFormed, isText, conforming, carries⟩ :=
            names.exists_rewrapped isAsync formed (List.contains_iff_mem.mp isWrapper)
              (TypeExpr.isCalled_iff.mpr ⟨isHead, noArguments⟩) apart (by simp)
          refine ⟨fixed, fixedFormed, isText, conforming, carries.trans ?_⟩
          simp [repairedPayload, carried?, isUnit, valueIn, payloadOf]
      | false =>
          cases isVoid : type.isVoid with
          | true =>
              have apart : grammar.takeApart type = (none, none) := by
                rw [takeApart, unwraps]
                simp [isUnit, isVoid]
              obtain ⟨fixed, fixedFormed, isText, conforming, carries⟩ :=
                names.exists_wrapped isAsync apart (by simp)
              refine ⟨fixed, fixedFormed, isText, conforming, carries.trans ?_⟩
              simp [repairedPayload, carried?, isVoid, valueIn, payloadOf]
          | false =>
              have apart : grammar.takeApart type = (none, some type) := by
                rw [takeApart, unwraps]
                simp [isUnit, isVoid]
              obtain ⟨fixed, fixedFormed, isText, conforming, carries⟩ :=
                names.exists_wrapped isAsync apart fun _ same =>
                  Option.mem_some_iff.mp same ▸ formed
              refine ⟨fixed, fixedFormed, isText, conforming, carries.trans ?_⟩
              cases isResult : grammar.isResult type <;>
                simp [repairedPayload, carried?, keepsWrapper, isVoid, isUnit, unwraps, valueIn,
                  isResult]

end ResultGrammar

open ResultGrammar in
/-- For a grammar of type names, a return type that can be read and does not conform is replaced
by a text that is read as a type.  That type conforms and carries what was returned. -/
theorem MethodDecl.repair_of_breaks {grammar : ResultGrammar} (names : grammar.HasTypeNames)
    {method : MethodDecl} (formed : method.returnType.IsWellFormed)
    (breaks : grammar.conforms method.returnType method.isAsync = false) :
    method.repair grammar =
      .ok ⟨method.returnType.span, method.correctedReturnType grammar⟩ ∧
    ∃ read, TypeExpr.parse (method.correctedReturnType grammar) = .ok read ∧
      grammar.conforms read method.isAsync = true ∧
      (grammar.payload read).map TypeExpr.unplaced =
        (grammar.repairedPayload method.returnType method.isAsync).map TypeExpr.unplaced := by
  obtain ⟨fixed, fixedFormed, isText, conforming, carries⟩ := names.exists_corrected formed breaks
  obtain ⟨read, isRead, same⟩ := fixedFormed.exists_parse_text
  replace isRead : TypeExpr.parse (method.correctedReturnType grammar) = .ok read := by
    rw [← isRead, isText]
    rfl
  have readText : read.text = method.correctedReturnType grammar := by
    rw [← read.text_unplaced, same, fixed.text_unplaced, isText]
    rfl
  have readsFixed := TypeExpr.readsAlike_unplaced grammar fixed
  have readsRead := TypeExpr.readsAlike_unplaced grammar read
  refine ⟨?_, read, isRead, ?_, ?_⟩
  · rw [repair, if_neg (by simp [breaks])]
    simp only [isRead, readText]
  · rw [← readsRead.conforms, same, readsFixed.conforms, conforming]
  · rw [← readsRead.payload, same, readsFixed.payload, carries]

open ResultGrammar in
/-- For a grammar of type names, the repair of a return type that can be read fails just if the
type conforms, because there is nothing to repair.  Otherwise it replaces exactly the type, by
a text that is read as a type.  That type conforms and carries what was returned. -/
theorem MethodDecl.repair_settles {grammar : ResultGrammar} (names : grammar.HasTypeNames)
    {method : MethodDecl} (formed : method.returnType.IsWellFormed) :
    (method.repair grammar = .error .alreadyValid ↔
      grammar.conforms method.returnType method.isAsync = true) ∧
    (grammar.conforms method.returnType method.isAsync = false →
      method.repair grammar =
        .ok ⟨method.returnType.span, method.correctedReturnType grammar⟩ ∧
      ∃ read, TypeExpr.parse (method.correctedReturnType grammar) = .ok read ∧
        grammar.conforms read method.isAsync = true ∧
        (grammar.payload read).map TypeExpr.unplaced =
          (grammar.repairedPayload method.returnType method.isAsync).map TypeExpr.unplaced) := by
  refine ⟨⟨fun fails => ?_, fun conforming => ?_⟩, repair_of_breaks names formed⟩
  · by_contra breaks
    rw [Bool.not_eq_true] at breaks
    rw [(repair_of_breaks names formed breaks).1] at fails
    cases fails
  · rw [repair, if_pos conforming]

/-- The names of the default grammar are names of types. -/
theorem ResultGrammar.hasTypeNames_default : ResultGrammar.HasTypeNames {} where
  wraps := by decide
  result := ⟨by decide, by decide⟩
  wrapper name member := by
    have known : name = "Task" ∨ name = "UniTask" ∨ name = "ValueTask" := by
      simpa using member
    rcases known with rfl | rfl | rfl <;> exact ⟨by decide, by decide⟩
  apart := by decide

/-- An asynchronous method that returns a type. -/
private def fetching (type : TypeExpr) : MethodDecl :=
  ⟨.nowhere, [], [⟨"async", .nowhere⟩], type, "Fetch", .nowhere, [], .block⟩

/-- The wrapper of the type below, as it is written, stays and gets a result around the pair
that was returned. -/
theorem MethodDecl.repair_settles_of_fetching :
    ∃ type, TypeExpr.parse "global::Tasks.ValueTask<(int code, Key<string>[])>" = .ok type ∧
      ResultGrammar.HasTypeNames {} ∧ type.IsWellFormed ∧
      (fetching type).correctedReturnType {} =
        "global::Tasks.ValueTask<Result<(int code, Key<string>[])>>" ∧
      (fetching type).repair {} = .ok ⟨type.span,
        "global::Tasks.ValueTask<Result<(int code, Key<string>[])>>"⟩ ∧
      ∃ read, TypeExpr.parse "global::Tasks.ValueTask<Result<(int code, Key<string>[])>>" =
          .ok read ∧
        ResultGrammar.conforms {} read true = true ∧
        (ResultGrammar.payload {} read).map TypeExpr.unplaced =
          (ResultGrammar.repairedPayload {} type true).map TypeExpr.unplaced := by
  have names := ResultGrammar.hasTypeNames_default
  have parses : ((TypeExpr.parse "global::Tasks.ValueTask<(int code, Key<string>[])>").map
      fun type => (ResultGrammar.conforms {} type true,
        (fetching type).correctedReturnType {})).toOption =
      some (false, "global::Tasks.ValueTask<Result<(int code, Key<string>[])>>") := by
    decide +kernel
  cases parsed : TypeExpr.parse "global::Tasks.ValueTask<(int code, Key<string>[])>" with
  | error diagnostics => rw [parsed] at parses; cases parses
  | ok type =>
      rw [parsed] at parses
      obtain ⟨breaks, corrected⟩ := Prod.mk.inj (Option.some.inj parses)
      have formed := TypeExpr.isWellFormed_of_parse parsed
      have settles := (@MethodDecl.repair_settles {} names (fetching type) formed).2 breaks
      rw [corrected] at settles
      exact ⟨type, rfl, names, formed, corrected, settles⟩

end ErrorAccessors
