/-
# What the parts of declarations are made of

All names in an outline are words of the language, the types in it are well formed, and
the directives bring dotted names and types into scope that can be written again.  A
parser that starts in front of words goes on in front of words, whether it succeeds or
fails, so what it gives can be described by following its text: `Gives` is closed under
sequence, choice, recovery and loop.

Only the keyword `static` tells a directive for the members of a type from one for a
namespace, and only the word `var` tells a statement from a directive.  So no namespace and
no alias begins with one of these words, apart from those that a global directive brings
into scope, which may begin with `var`.
-/

import ErrorAccessors.Proofs.MemberReading
import ErrorAccessors.Proofs.ProperTypes
import ErrorAccessors.Proofs.TypeText

namespace ErrorAccessors

namespace Parser

variable {α β σ : Type}

/-- In front of words, what a parser gives has a property, and what it leaves is
words again. -/
def Gives (property : α → Prop) (parser : Parser α) : Prop :=
  ∀ (file : SourceFile) (cursor : Cursor), Token.AreWords cursor.remaining →
    match parser file cursor with
    | .ok value later => property value ∧ Token.AreWords later.remaining
    | .error _ later => Token.AreWords later.remaining

section Combinators

variable {parser : Parser α} {next : α → Parser β} {property : α → Prop} {after : β → Prop}

theorem Forward.gives (forward : Forward parser)
    (holds : ∀ (file : SourceFile) (cursor later : Cursor) (value : α),
      Token.AreWords cursor.remaining → parser file cursor = .ok value later → property value) :
    Gives property parser := by
  intro file cursor words
  cases run : parser file cursor with
  | ok value later =>
      exact ⟨holds file cursor later value words run,
        words.of_suffix (forward.of_ok run).remaining⟩
  | error diagnostic later => exact words.of_suffix (forward.of_error run).1.remaining

/-- Nothing need be known of what is given. -/
theorem Forward.givesSome (forward : Forward parser) : Gives (fun _ => True) parser :=
  forward.gives fun _ _ _ _ _ _ => trivial

theorem gives_pure {value : α} (holds : property value) : Gives property (pure value) :=
  fun _ _ words => ⟨holds, words⟩

/-- Nothing is found. -/
theorem gives_none : Gives (fun found => ∀ value, found = some value → property value)
    (pure none) :=
  gives_pure fun _ isNone => absurd isNone (Option.some_ne_none _).symm

/-- What is found is as it should be. -/
theorem gives_some {value : α} (holds : property value) :
    Gives (fun found => ∀ value, found = some value → property value) (pure (some value)) :=
  gives_pure fun _ isValue => Option.some.inj isValue ▸ holds

theorem Gives.bind (first : Gives property parser)
    (second : ∀ value, property value → Gives after (next value)) :
    Gives after (parser >>= next) := by
  intro file cursor words
  have before := first file cursor words
  rw [bind_apply]
  cases run : parser file cursor with
  | ok value later =>
      rw [run] at before
      exact second value before.1 file later before.2
  | error diagnostic later =>
      rw [run] at before
      exact before

/-- What comes behind a parser of no interest. -/
theorem Gives.behind (forward : Forward parser) (second : ∀ value, Gives after (next value)) :
    Gives after (parser >>= next) :=
  forward.givesSome.bind fun value _ => second value

/-- What comes behind a look at the tokens. -/
theorem Gives.behind_look {value : SourceFile → Cursor → α}
    (look : ∀ file cursor, parser file cursor = .ok (value file cursor) cursor)
    (second : ∀ value, Gives after (next value)) : Gives after (parser >>= next) :=
  .behind (.of_look value look) second

/-- What is read behind a guard may rely on what the guard has seen. -/
theorem Gives.behind_guard {guard : Parser Bool} {first second : Parser α}
    {seen : SourceFile → Cursor → Bool}
    (look : ∀ file cursor, guard file cursor = .ok (seen file cursor) cursor)
    (forward : Forward first)
    (holds : ∀ (file : SourceFile) (cursor later : Cursor) (value : α), seen file cursor = true →
      Token.AreWords cursor.remaining → first file cursor = .ok value later → property value)
    (fails : Gives property second) :
    Gives property (guard >>= fun isSeen => if isSeen then first else second) := by
  intro file cursor words
  rw [bind_apply, look]
  cases isSeen : seen file cursor with
  | false => exact fails file cursor words
  | true =>
      show match first file cursor with
        | .ok value later => property value ∧ Token.AreWords later.remaining
        | .error _ later => Token.AreWords later.remaining
      cases run : first file cursor with
      | ok value later =>
          exact ⟨holds file cursor later value isSeen words run,
            words.of_suffix (forward.of_ok run).remaining⟩
      | error diagnostic later => exact words.of_suffix (forward.of_error run).1.remaining

theorem Gives.ite {condition : Prop} [Decidable condition] {first second : Parser α}
    (holds : Gives property first) (fails : Gives property second) :
    Gives property (if condition then first else second) := by
  split
  · exact holds
  · exact fails

theorem gives_failExpecting (expected : String) :
    Gives property (failExpecting expected : Parser α) := by
  intro file cursor words
  rw [failExpecting_apply]
  exact words

theorem gives_orElse {recover : Diagnostic → Parser α} (first : Gives property parser)
    (second : ∀ diagnostic, Gives property (recover diagnostic)) :
    Gives property (orElse parser recover) := by
  intro file cursor words
  have before := first file cursor words
  rw [orElse]
  cases run : parser file cursor with
  | ok value later =>
      rw [run] at before
      exact before
  | error diagnostic later =>
      rw [run] at before
      exact second diagnostic file later before

/-- The state that a round leaves behind, be it the last one or not. -/
def stateOf : ForInStep σ → σ
  | .done state => state
  | .yield state => state

/-- What every round keeps holds at the end of a loop. -/
theorem gives_loop {step : σ → Parser (ForInStep σ)} {keeps : σ → Prop}
    (round : ∀ state, keeps state → Gives (fun outcome => keeps (stateOf outcome)) (step state))
    {state : σ} (start : keeps state) : Gives keeps (loop state step) := by
  have rounds (count : Nat) (state : σ) (start : keeps state) :
      Gives keeps (loopWithin step count state) := by
    induction count generalizing state with
    | zero => exact gives_pure start
    | succ count ih =>
        refine (round state start).bind fun outcome kept => ?_
        cases outcome with
        | done result => exact gives_pure kept
        | yield next => exact ih next kept
  exact fun file cursor => rounds _ state start file cursor

end Combinators

section Members

variable {atStop : Parser Bool} {member : Parser (Option α)} {add : σ → α → σ}

theorem StopsAtEnd.forward (stops : StopsAtEnd atStop) : Forward atStop := by
  intro file cursor
  obtain ⟨stop, run, -⟩ := stops file cursor
  rw [run]
  exact .refl cursor

/-- Members of a kind are collected if they are all that is read. -/
theorem gives_memberLoop {ofKind : α → Prop} {keeps : σ → Prop} (stops : StopsAtEnd atStop)
    (read : Gives (fun found => ∀ value, found = some value → ofKind value) member)
    (adds : ∀ state value, keeps state → ofKind value → keeps (add state value)) {state : σ}
    (start : keeps state) : Gives keeps (memberLoop atStop member add state) := by
  have recovered (before : Nat) :
      Gives (fun found => ∀ value, found = some value → ofKind value)
        (memberOrRecovery member before) := by
    refine gives_orElse read fun diagnostic => ?_
    have recorded : Gives (fun _ => True) (record diagnostic) := fun _ _ words => ⟨trivial, words⟩
    exact recorded.bind fun _ _ => .behind (forward_recoverFrom before) fun _ => gives_none
  have round (state : σ) (kept : keeps state) :
      Gives (fun outcome => keeps (stateOf outcome)) (memberRound atStop member add state) := by
    rw [memberRound_eq]
    refine .behind stops.forward fun _ => .ite (gives_pure kept) ?_
    refine .behind forward_skipFault fun _ => .ite (gives_pure kept) ?_
    refine .behind_look get_apply fun before => (recovered _).bind fun found ofThem => ?_
    refine .behind (forward_stepIfStuck _) fun _ => gives_pure ?_
    cases found with
    | none => exact kept
    | some value => exact adds state value kept (ofThem value rfl)
  exact gives_loop round start

end Members

/-- An identifier that is read comes next. -/
theorem next_of_expectIdent {file : SourceFile} {cursor later : Cursor} {named : String × Span}
    (run : expectIdent file cursor = .ok named later) :
    cursor.peek? 0 = some (.ident named.1) := by
  rw [expectIdent_apply] at run
  cases next : (cursor.peek? 0).bind TokenKind.ident? with
  | none => simp [next] at run
  | some name =>
      simp only [next] at run
      cases run
      exact Cursor.peek?_eq_ident next

theorem gives_expectIdent :
    Gives (fun named => Lexeme.IsWord named.1.toList) expectIdent := by
  refine forward_expectIdent.gives fun file cursor later named words run => ?_
  obtain ⟨token, kind, remaining⟩ := Cursor.remaining_eq_cons (next_of_expectIdent run)
  exact words token (remaining ▸ List.mem_cons_self) named.1 kind

end Parser

/-- A text that is the canonical spelling of a type. -/
def IsTypeText (text : String) : Prop :=
  ∃ kinds type, Spells kinds (.type type) ∧ type.text = text ∧ WritesNeatly text.toList kinds

/-- A dotted name with its first part. -/
structure IsDottedName (name first : String) (others : List String) : Prop where
  isName : name = ".".intercalate (first :: others)
  words : ∀ word ∈ first :: others, Lexeme.IsWord word.toList

/-- A method whose names are words and whose return type is well formed. -/
structure MethodDecl.IsProper (method : MethodDecl) : Prop where
  name : Lexeme.IsWord method.name.toList
  typeParameters : ∀ name ∈ method.typeParameters, Lexeme.IsWord name.toList
  returnType : method.returnType.IsWellFormed

/-- A word with which a namespace or an alias may begin behind `using`.  The word `static`
would tell another kind of directive, and in front of the word `var` there would be a
statement, unless the directive is global. -/
def UsingKind.MayBegin (isGlobal : Bool) (word : String) : Prop :=
  word ≠ "static" ∧ (isGlobal = false → word ≠ "var")

/-- What a directive, global or not, may bring into scope. -/
inductive UsingKind.IsProper (isGlobal : Bool) : UsingKind → Prop
  | ofNamespace {name first : String} {others : List String}
      (isName : IsDottedName name first others) (begins : MayBegin isGlobal first) :
      IsProper isGlobal (.ofNamespace name)
  | ofStatic {type : String} (isType : IsTypeText type) : IsProper isGlobal (.ofStatic type)
  | ofAlias {name target : String} (isWord : Lexeme.IsWord name.toList)
      (begins : MayBegin isGlobal name) (isType : IsTypeText target) :
      IsProper isGlobal (.ofAlias name target)

/-- A directive that is read where it stands. -/
def UsingDirective.IsProper (directive : UsingDirective) : Prop :=
  directive.kind.IsProper directive.isGlobal

namespace Parser

section Names

theorem gives_typeParameters :
    Gives (fun names => ∀ name ∈ names, Lexeme.IsWord name.toList) typeParameters := by
  let keeps (names : List String) := ∀ name ∈ names, Lexeme.IsWord name.toList
  have round (names : List String) (areWords : keeps names) :
      Gives (fun outcome => keeps (stateOf outcome)) (parameterRound names) := by
    refine .behind forward_attributeLists fun _ => .behind repeats_variance.forward fun _ => ?_
    refine gives_expectIdent.bind fun ⟨name, _⟩ isWord => .behind (forward_eat .comma) fun _ => ?_
    have added : keeps (names ++ [name]) :=
      List.forall_mem_append.mpr ⟨areWords, List.forall_mem_singleton.mpr isWord⟩
    exact .ite (gives_pure added) (gives_pure added)
  rw [typeParameters_eq]
  refine .behind (forward_expect .less) fun _ => ?_
  refine (gives_loop round (List.forall_mem_nil _)).bind fun names areWords => ?_
  exact .behind (forward_expect .greater) fun _ => gives_pure areWords

/-- The name of a member and its type parameters are words. -/
theorem gives_memberName :
    Gives (fun found => Lexeme.IsWord found.1.toList ∧
      ∀ name ∈ found.2.2, Lexeme.IsWord name.toList) memberName := by
  let keeps (found : String × Span × List String) :=
    Lexeme.IsWord found.1.toList ∧ ∀ name ∈ found.2.2, Lexeme.IsWord name.toList
  refine gives_expectIdent.bind fun ⟨first, start⟩ isFirst => ?_
  show Gives keeps (loop (first, start, []) _)
  have begins : keeps (first, start, []) := ⟨isFirst, List.forall_mem_nil _⟩
  refine gives_loop (fun ⟨name, span, parameters⟩ ⟨isName, areWords⟩ => ?_) begins
  have goesOn {parameters : List String}
      (areWords : ∀ name ∈ parameters, Lexeme.IsWord name.toList) :
      Gives (fun outcome => keeps (stateOf outcome)) (do
        if (← atMark .dot) && (← secondIsIdent) then
          advance
          let named ← expectIdent
          return ForInStep.yield (named.1, named.2, [])
        else return ForInStep.done (name, span, parameters)) := by
    refine .behind_look (fun file cursor => atMark_apply file cursor _) fun _ => ?_
    refine .behind_look secondIsIdent_apply fun _ => .ite (.behind forward_advance fun _ => ?_) ?_
    · exact gives_expectIdent.bind fun _ isNext => gives_pure ⟨isNext, List.forall_mem_nil _⟩
    · exact gives_pure ⟨isName, areWords⟩
  refine .behind_look (fun file cursor => atMark_apply file cursor _) fun _ => .ite ?_ ?_
  · exact gives_typeParameters.bind fun _ => goesOn
  · exact (gives_pure areWords).bind fun _ => goesOn

/-- A dotted name has words for its parts, and its first part comes next. -/
theorem parts_of_dottedName {file : SourceFile} {cursor later : Cursor} {parts : List String}
    (words : Token.AreWords cursor.remaining) (run : dottedName file cursor = .ok parts later) :
    ∃ first others, IsDottedName (".".intercalate parts) first others ∧
      cursor.peek? 0 = some (.ident first) := by
  rw [dottedName, bind_apply] at run
  have begun := gives_expectIdent file cursor words
  cases read : expectIdent file cursor with
  | error diagnostic reached => simp [read] at run
  | ok named reached =>
      rw [read] at begun run
      let keeps (found : List String) :=
        ∃ others, found = named.1 :: others ∧ ∀ word ∈ found, Lexeme.IsWord word.toList
      have round (found : List String) (kept : keeps found) :
          Gives (fun outcome => keeps (stateOf outcome)) (dotRound found) := by
        obtain ⟨others, rfl, areWords⟩ := kept
        refine .behind (forward_eat .dot) fun _ => .ite ?_ ?_
        · refine gives_expectIdent.bind fun ⟨name, _⟩ isWord =>
            gives_pure ⟨others ++ [name], rfl, ?_⟩
          exact List.forall_mem_append.mpr ⟨areWords, List.forall_mem_singleton.mpr isWord⟩
        · exact gives_pure ⟨others, rfl, areWords⟩
      have start : keeps [named.1] := ⟨[], rfl, List.forall_mem_singleton.mpr begun.1⟩
      have parted := gives_loop round start file reached begun.2
      rw [show loop [named.1] dotRound file reached = .ok parts later from run] at parted
      obtain ⟨⟨others, rfl, areWords⟩, -⟩ := parted
      exact ⟨named.1, others, ⟨rfl, areWords⟩, next_of_expectIdent read⟩

end Names

section Methods

theorem gives_methodTail :
    Gives (fun found => ∀ tail, found = some tail → Lexeme.IsWord tail.name.toList ∧
      ∀ name ∈ tail.typeParameters, Lexeme.IsWord name.toList) methodTail := by
  have body : Repeats methodBody methodBody id := repeats_methodBody
  refine .behind_look (fun _ _ => rfl) fun _ =>
    .ite ?_ (gives_memberName.bind fun found areWords => ?_)
  · exact .behind forward_skipMember fun _ => gives_none
  refine .behind_look (fun file cursor => atMark_apply file cursor _) fun _ => .ite ?_ ?_
  · exact .behind forward_skipMember fun _ => gives_none
  refine .behind forward_skipBalanced fun _ => .behind (forward_skipUntil _) fun _ => ?_
  exact .behind body.forward fun _ => gives_some areWords

/-- Every method that is read is proper. -/
theorem gives_method? (start : Span) (lists : List AttributeList) (words : List Modifier) :
    Gives (fun found => ∀ decl, found = some decl → decl.IsProper) (method? start lists words) := by
  refine (forward_method? start lists words).gives fun file cursor later found inFront run => ?_
  rintro decl rfl
  rw [method?_apply] at run
  cases first : type file cursor with
  | error diagnostic reached =>
      simp only [first, bind_apply] at run
      cases skipped : skipMember file cursor <;> simp [skipped] at run
  | ok returnType reached =>
      have tailGiven := gives_methodTail file reached
        (inFront.of_suffix (forward_type.of_ok first).remaining)
      simp only [first] at run
      cases rest : methodTail file reached with
      | error diagnostic ended => simp [rest] at run
      | ok tail ended =>
          rw [rest] at tailGiven
          cases tail with
          | none => simp [rest] at run
          | some tail =>
              obtain ⟨isWord, areWords⟩ := tailGiven.1 tail rfl
              simp only [rest, EStateM.Result.ok.injEq, Option.some.injEq] at run
              obtain ⟨rfl, rfl⟩ := run
              exact ⟨isWord, areWords, type_isWellFormed inFront first⟩

end Methods

section Directives

/-- Whether an alias is defined next. -/
def atAlias : Parser Bool := do
  return (← atIdent) && (← secondIsMark .equals)

theorem atAlias_apply (file : SourceFile) (cursor : Cursor) :
    atAlias file cursor =
      .ok (((cursor.peek? 0).bind TokenKind.ident?).isSome &&
        cursor.peek? 1 == some (.mark .equals)) cursor := rfl

/-- The rest of a directive whose kind has been read. -/
def directiveEnd (start : Span) (isGlobal : Bool) (kind : UsingKind) :
    Parser UsingDirective := do
  expect .semicolon
  return ⟨← spanFrom start, isGlobal, kind⟩

/-- A directive behind its keyword. -/
def directiveRest (start : Span) (isGlobal : Bool) : Parser UsingDirective := do
  let isStatic ← eatWord "static"
  let isAlias ← atAlias
  if isStatic then directiveEnd start isGlobal (.ofStatic (← type).text)
  else if isAlias then
    let (name, _) ← expectIdent
    advance
    directiveEnd start isGlobal (.ofAlias name (← type).text)
  else directiveEnd start isGlobal (.ofNamespace (".".intercalate (← dottedName)))

theorem usingDirective_eq (start : Span) (isGlobal : Bool) :
    usingDirective start isGlobal = (do
      if ← eatWord "using" then directiveRest start isGlobal
      else
        failExpecting "`using`"
        directiveRest start isGlobal) := by
  simp only [usingDirective, directiveRest, directiveEnd, atAlias, qualifiedName, bind_assoc,
    pure_bind]

variable {start : Span} {isGlobal : Bool} {file : SourceFile} {cursor later : Cursor}
  {directive : UsingDirective}

private theorem eq_of_directiveEnd {kind : UsingKind}
    (run : directiveEnd start isGlobal kind file cursor = .ok directive later) :
    directive.isGlobal = isGlobal ∧ directive.kind = kind := by
  simp only [directiveEnd, bind_apply, expect_apply] at run
  by_cases ended : cursor.peek? 0 = some (.mark .semicolon)
  · simp only [ended, if_true, spanFrom_apply, pure_apply] at run
    cases run
    exact ⟨rfl, rfl⟩
  · simp [ended] at run

/-- The spelling of a type that is read in front of words is that of a type. -/
theorem isTypeText_of_type {read : TypeExpr} (words : Token.AreWords cursor.remaining)
    (run : type file cursor = .ok read later) : IsTypeText read.text := by
  obtain ⟨tokens, remaining, spells⟩ := type_spelled run
  obtain ⟨kinds, spelled, written⟩ := spells.isWritten fun name member => by
    obtain ⟨token, inTokens, isIdent⟩ := List.mem_map.mp member
    exact words token (remaining ▸ List.mem_append_left _ inTokens) name isIdent
  rw [TypePiece.text, TypeExpr.text_unplaced] at written
  exact ⟨kinds, _, spelled, TypeExpr.text_unplaced read, written⟩

private theorem typed_of_directiveEnd (kind : String → UsingKind)
    (words : Token.AreWords cursor.remaining)
    (run : (do directiveEnd start isGlobal (kind (← type).text)) file cursor =
      .ok directive later) :
    ∃ text, IsTypeText text ∧ directive.isGlobal = isGlobal ∧ directive.kind = kind text := by
  rw [bind_apply] at run
  cases read : type file cursor with
  | error diagnostic reached => simp [read] at run
  | ok type reached =>
      rw [read] at run
      exact ⟨type.text, isTypeText_of_type words read, eq_of_directiveEnd run⟩

/-- A directive in front of which no statement is taken for it is proper. -/
theorem isProper_of_directiveRest (words : Token.AreWords cursor.remaining)
    (noStatement : isGlobal = false → cursor.peek? 0 ≠ some (.ident "var"))
    (run : directiveRest start isGlobal file cursor = .ok directive later) :
    directive.IsProper := by
  have behind (cursor : Cursor) (words : Token.AreWords cursor.remaining) :
      Token.AreWords cursor.advance.remaining :=
    words.of_suffix (forward_advance.of_ok (advance_apply file cursor)).remaining
  rw [directiveRest, bind_apply, eatWord_apply] at run
  by_cases isStatic : (cursor.peek? 0).bind TokenKind.ident? = some "static"
  · rw [if_pos isStatic] at run
    dsimp only at run
    rw [bind_apply, atAlias_apply] at run
    dsimp only at run
    rw [if_pos rfl] at run
    obtain ⟨text, isType, rfl, isKind⟩ :=
      typed_of_directiveEnd .ofStatic (behind cursor words) run
    rw [UsingDirective.IsProper, isKind]
    exact .ofStatic isType
  · have mayBegin {word : String} (next : cursor.peek? 0 = some (.ident word)) :
        UsingKind.MayBegin isGlobal word := by
      constructor
      · rintro rfl
        exact isStatic (by rw [next]; rfl)
      · rintro isLocal rfl
        exact noStatement isLocal next
    rw [if_neg isStatic] at run
    dsimp only at run
    rw [bind_apply, atAlias_apply] at run
    dsimp only at run
    rw [if_neg (by decide)] at run
    split at run
    · rw [bind_apply] at run
      have named := gives_expectIdent file cursor words
      cases read : expectIdent file cursor with
      | error diagnostic reached => simp [read] at run
      | ok name reached =>
          rw [read] at run named
          dsimp only at run
          rw [bind_apply, advance_apply] at run
          obtain ⟨text, isType, rfl, isKind⟩ :=
            typed_of_directiveEnd (.ofAlias name.1) (behind reached named.2) run
          rw [UsingDirective.IsProper, isKind]
          exact .ofAlias named.1 (mayBegin (next_of_expectIdent read)) isType
    · rw [bind_apply] at run
      cases read : dottedName file cursor with
      | error diagnostic reached => simp [read] at run
      | ok parts reached =>
          rw [read] at run
          obtain ⟨rfl, isKind⟩ := eq_of_directiveEnd run
          obtain ⟨first, others, isName, next⟩ := parts_of_dottedName words read
          rw [UsingDirective.IsProper, isKind]
          exact .ofNamespace isName (mayBegin next)

/-- So it is with the keyword in front. -/
theorem isProper_of_usingDirective (words : Token.AreWords cursor.remaining)
    (noStatement : isGlobal = false → cursor.peek? 1 ≠ some (.ident "var"))
    (run : usingDirective start isGlobal file cursor = .ok directive later) :
    directive.IsProper := by
  rw [usingDirective_eq, bind_apply, eatWord_apply] at run
  by_cases begins : (cursor.peek? 0).bind TokenKind.ident? = some "using"
  · rw [if_pos begins] at run
    have behind : Token.AreWords cursor.advance.remaining :=
      words.of_suffix (forward_advance.of_ok (advance_apply file cursor)).remaining
    refine isProper_of_directiveRest behind (fun isLocal next => noStatement isLocal ?_) run
    obtain ⟨kind, isFirst, -⟩ := Option.bind_eq_some_iff.mp begins
    exact (Cursor.peek?_advance isFirst 0).symm.trans next
  · rw [if_neg begins] at run
    simp [bind_apply] at run

end Directives

end Parser

end ErrorAccessors
