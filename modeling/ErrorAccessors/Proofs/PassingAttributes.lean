/-
# Passing attributes

Attribute lists whose tokens are known are passed like the members behind them.  An
argument that is a literal gives the value of the literal, with or without a name in
front of it, and a list gives its items in their order.
-/

import ErrorAccessors.Proofs.PassingTokens

namespace ErrorAccessors.Parser

section Arguments

/-- What ends an attribute argument. -/
def EndsArgument (next : Option TokenKind) : Prop :=
  ∃ mark ∈ argumentEnds, next = some (.mark mark)

/-- The tokens by which an argument is passed by name, or none. -/
inductive NamesArgument : List TokenKind → Option String → Prop
  | positional : NamesArgument [] none
  | named {name : String} {mark : Mark} (isNaming : mark = .colon ∨ mark = .equals) :
      NamesArgument [.ident name, .mark mark] (some name)

/-- The tokens of a literal belong to the argument that it is, and they do not name
one. -/
private theorem argument_of_literal {tokens : List Token} {value : AttributeValue}
    (isLiteral : literal? (tokens.map (·.kind)) = some value) :
    tokens ≠ [] ∧ SkippedBy argumentAction tokens ∧
      ∀ name, tokens.head?.map (·.kind) = some (.ident name) → tokens.tail = [] := by
  have step {token : Token} {others : List Token}
      (does : argumentAction token.kind = .step) (behind : SkippedBy argumentAction others) :
      SkippedBy argumentAction (token :: others) := .step does behind
  generalize kindsAre : tokens.map (·.kind) = kinds at isLiteral
  unfold literal? at isLiteral
  split at isLiteral
  case h_2 =>
    obtain ⟨minus, behind, rfl, isMinus, isBehind⟩ := List.map_eq_cons_iff.mp kindsAre
    obtain ⟨token, rfl, isToken⟩ := List.map_eq_singleton_iff.mp isBehind
    refine ⟨nofun, step (by rw [isMinus]; rfl) (step (by rw [isToken]; rfl) .nil), ?_⟩
    simp [isMinus]
  case h_6 => cases isLiteral
  all_goals
    obtain ⟨token, rfl, isToken⟩ := List.map_eq_singleton_iff.mp kindsAre
    exact ⟨nofun, step (by rw [isToken]; rfl) .nil, fun _ _ => rfl⟩

/-- The name of an argument is read in front of a literal, and none is where a literal
stands alone. -/
private theorem argumentName_of_literal {nameTokens own rest : List Token} {name : Option String}
    {value : AttributeValue} (naming : NamesArgument (nameTokens.map (·.kind)) name)
    (isLiteral : literal? (own.map (·.kind)) = some value)
    (ends : EndsArgument (rest.head?.map (·.kind))) (file : SourceFile) (previous : Option Token)
    (recorded : List Diagnostic) :
    argumentName file ⟨previous, nameTokens ++ (own ++ rest), recorded⟩ =
      .ok name ⟨Token.lastOf previous nameTokens, own ++ rest, recorded⟩ := by
  rw [argumentName_apply]
  generalize kindsAre : nameTokens.map (·.kind) = kinds at naming
  cases naming with
  | @named word mark isNaming =>
      obtain ⟨first, others, rfl, isWord, kindsAre⟩ := List.map_eq_cons_iff.mp kindsAre
      obtain ⟨second, rfl, isMark⟩ := List.map_eq_singleton_iff.mp kindsAre
      rcases isNaming with rfl | rfl <;> simp [isWord, isMark, TokenKind.ident?]
  | positional =>
      obtain rfl : nameTokens = [] := by simpa using kindsAre
      obtain ⟨nonempty, -, single⟩ := argument_of_literal isLiteral
      obtain ⟨mark, isEnd, ends⟩ := ends
      cases own with
      | nil => exact absurd rfl nonempty
      | cons token others =>
          simp only [List.nil_append, List.cons_append, Cursor.peek?_zero_cons, Option.bind_some,
            Cursor.peek?_one_cons]
          cases isNamed : token.kind.ident? with
          | none => rfl
          | some word =>
              have isIdent : token.kind = .ident word := by
                cases kindIs : token.kind with
                | ident other => simp_all [TokenKind.ident?]
                | _ => simp_all [TokenKind.ident?]
              obtain rfl : others = [] := single word (congrArg some isIdent)
              have noNaming : ∀ mark ∈ argumentEnds, ¬(some (TokenKind.mark mark) =
                  some (.mark .colon) ∨ some (TokenKind.mark mark) = some (.mark .equals)) := by
                decide
              rw [List.nil_append, ends]
              exact if_neg (noNaming mark isEnd)

/-- A literal is passed as an argument, behind a name or alone. -/
theorem passes_attributeArgument {names literal : List TokenKind} {name : Option String}
    {value : AttributeValue} (naming : NamesArgument names name)
    (isLiteral : literal? literal = some value) :
    Passes attributeArgument EndsArgument (names ++ literal)
      fun argument => argument.unplaced = ⟨.nowhere, name, value⟩ := by
  intro file previous tokens rest recorded areKinds ends
  obtain ⟨nameTokens, own, rfl, rfl, rfl⟩ := List.map_eq_append_iff.mp areKinds
  let behindName : Cursor := ⟨Token.lastOf previous nameTokens, own ++ rest, recorded⟩
  let later : Cursor := ⟨Token.lastOf behindName.previous own, rest, recorded⟩
  have named := argumentName_of_literal naming isLiteral ends file previous recorded
  obtain ⟨nonempty, skipped, -⟩ := argument_of_literal isLiteral
  have stops : skipBy argumentAction file later = .ok () later := by
    obtain ⟨mark, isEnd, ends⟩ := ends
    have stopsAt : ∀ mark ∈ argumentEnds, argumentAction (.mark mark) = .stop := by decide
    refine @skipBy_of_stop file argumentAction later (.mark mark) ?_ (stopsAt mark isEnd)
    rw [Cursor.peek?, ← List.head?_eq_getElem?, ends]
  let start := (Cursor.mk previous (nameTokens ++ (own ++ rest)) recorded).nextSpan file
  have run : argumentRest start name file behindName =
      .ok ⟨later.spanFrom start, name, argumentValue file own⟩ later := by
    rw [argumentRest_apply start name file ((skipBy_of_skipped file _ _ skipped).trans stops) rfl,
      if_neg nonempty]
  refine ⟨⟨later.spanFrom start, name, argumentValue file own⟩, ?_, ?_⟩
  · simp only [AttributeArgument.unplaced, argumentValue, isLiteral]
  · show (nextSpan >>= fun start => argumentName >>= fun name => argumentRest start name) file _ = _
    rw [bind_apply, nextSpan_apply, List.append_assoc]
    simp only [bind_apply, named]
    rw [run, Token.lastOf_append]

end Arguments

section Lists

variable {α β ι : Type} {close : Mark} {item : Parser α} {view : α → β}
  {kindsOf : ι → List TokenKind} {said : ι → β} {items : List ι}

/-- The tokens of items with commas between them. -/
def separatedKinds : List (List TokenKind) → List TokenKind
  | [] => []
  | [last] => last
  | first :: second :: others => first ++ .mark .comma :: separatedKinds (second :: others)

/-- What ends an item of a list. -/
def EndsItem (close : Mark) (next : Option TokenKind) : Prop :=
  next = some (.mark .comma) ∨ next = some (.mark close)

/-- One item is passed in a round. -/
private theorem itemRound_of_item {kinds : List TokenKind} {said : β}
    (begins : ∃ kind, kinds.head? = some kind ∧ kind ≠ .mark close)
    (passes : Passes item (EndsItem close) kinds fun value => view value = said)
    (file : SourceFile) (previous : Option Token) {tokens : List Token} (rest : List Token)
    (recorded : List Diagnostic) (areKinds : tokens.map (·.kind) = kinds)
    (ends : EndsItem close (rest.head?.map (·.kind))) (found : List α) :
    ∃ value, view value = said ∧
      itemRound close item found file ⟨previous, tokens ++ rest, recorded⟩ =
        if (Cursor.mk (Token.lastOf previous tokens) rest recorded).peek? 0 =
          some (.mark .comma) then
          .ok (.yield (found ++ [value]))
            (Cursor.mk (Token.lastOf previous tokens) rest recorded).advance
        else .ok (.done (found ++ [value])) ⟨Token.lastOf previous tokens, rest, recorded⟩ := by
  obtain ⟨value, isSaid, run⟩ := passes file previous tokens rest recorded areKinds ends
  obtain ⟨kind, head, noClose⟩ := begins
  have next : (Cursor.mk previous (tokens ++ rest) recorded).peek? 0 = some kind := by
    apply Cursor.peek?_of_head
    rw [← List.head?_map, areKinds, head]
  refine ⟨value, isSaid, ?_⟩
  have notClosed : (some kind == some (TokenKind.mark close)) = false := by simpa using noClose
  simp only [itemRound, bind_apply, atMark_apply, next, notClosed, Bool.false_eq_true,
    if_false, run]
  rw [eat_apply]
  by_cases comma :
      (Cursor.mk (Token.lastOf previous tokens) rest recorded).peek? 0 = some (.mark .comma)
  · rw [if_pos comma, if_pos comma]
    rfl
  · rw [if_neg comma, if_neg comma]
    rfl

/-- Items between commas are passed one by one. -/
private theorem loop_itemRound_of_items (forward : Forward item) (nonempty : items ≠ [])
    (begins : ∀ i ∈ items, ∃ kind, (kindsOf i).head? = some kind ∧ kind ≠ .mark close)
    (passes : ∀ i ∈ items,
      Passes item (EndsItem close) (kindsOf i) fun value => view value = said i)
    (noComma : close ≠ .comma) (file : SourceFile) (previous : Option Token)
    {tokens : List Token} (rest : List Token) {closing : Token} (recorded : List Diagnostic)
    (areKinds : tokens.map (·.kind) = separatedKinds (items.map kindsOf))
    (closes : closing.kind = .mark close) (found : List α) :
    ∃ values, values.map view = items.map said ∧
      loop found (itemRound close item) file ⟨previous, tokens ++ closing :: rest, recorded⟩ =
        .ok (found ++ values) ⟨Token.lastOf previous tokens, closing :: rest, recorded⟩ := by
  induction items generalizing previous tokens found with
  | nil => exact absurd rfl nonempty
  | cons first others ih =>
      obtain ⟨beginsFirst, beginsOthers⟩ := List.forall_mem_cons.mp begins
      obtain ⟨passesFirst, passesOthers⟩ := List.forall_mem_cons.mp passes
      cases others with
      | nil =>
          obtain ⟨value, isSaid, round⟩ := itemRound_of_item beginsFirst passesFirst file previous
            (closing :: rest) recorded areKinds (.inr (congrArg some closes)) found
          refine ⟨[value], by simp [isSaid], loop_of_done file (progresses_itemRound forward) ?_⟩
          rw [round, if_neg (by simp [closes, noComma])]
      | cons second others =>
          obtain ⟨own, behind, rfl, ownKinds, behindKinds⟩ := List.map_eq_append_iff.mp areKinds
          obtain ⟨comma, behind, rfl, isComma, restKinds⟩ := List.map_eq_cons_iff.mp behindKinds
          obtain ⟨value, isSaid, round⟩ := itemRound_of_item beginsFirst passesFirst file previous
            (comma :: (behind ++ closing :: rest)) recorded ownKinds
            (.inl (congrArg some isComma)) found
          obtain ⟨values, areSaid, run⟩ := ih nofun beginsOthers passesOthers (some comma) restKinds
            (found ++ [value])
          refine ⟨value :: values, by simp [isSaid, areSaid], ?_⟩
          rw [List.append_assoc, List.cons_append, Token.lastOf_append, Token.lastOf_cons]
          rw [if_pos (by simp [isComma])] at round
          rw [loop_of_yield file (progresses_itemRound forward) round]
          simpa using run

/-- A list is passed up to its closing mark. -/
theorem passes_listUpTo (forward : Forward item) (nonempty : items ≠ [])
    (begins : ∀ i ∈ items, ∃ kind, (kindsOf i).head? = some kind ∧ kind ≠ .mark close)
    (passes : ∀ i ∈ items,
      Passes item (EndsItem close) (kindsOf i) fun value => view value = said i)
    (noComma : close ≠ .comma) :
    Passes (listUpTo close item) (fun _ => True)
      (separatedKinds (items.map kindsOf) ++ [.mark close])
        fun found => found.map view = items.map said := by
  intro file previous tokens rest recorded areKinds _
  obtain ⟨inner, last, rfl, innerKinds, lastKind⟩ := List.map_eq_append_iff.mp areKinds
  obtain ⟨closing, rfl, closes⟩ := List.map_eq_singleton_iff.mp lastKind
  obtain ⟨values, areSaid, run⟩ :=
    loop_itemRound_of_items forward nonempty begins passes noComma file
    previous rest recorded innerKinds closes []
  refine ⟨values, areSaid, ?_⟩
  show (loop [] (itemRound close item) >>= fun found => expect close >>= fun _ => pure found)
    file _ = _
  rw [bind_apply, List.append_assoc, List.singleton_append, run]
  simp [bind_apply, expect_apply, closes, -bind_pure_comp]

end Lists

section Applied

variable {ι : Type} {kindsOf : ι → List TokenKind}

/-- The tokens of an attribute of a simple name. -/
def attributeKinds (name : String) (arguments : List (List TokenKind)) : List TokenKind :=
  .ident name :: .mark .leftParen :: (separatedKinds arguments ++ [.mark .rightParen])

/-- The tokens of a list with one attribute. -/
def attributeListKinds (name : String) (arguments : List (List TokenKind)) : List TokenKind :=
  .mark .leftBracket :: (attributeKinds name arguments ++ [.mark .rightBracket])

/-- The tokens of words with dots in front of them. -/
def dotKinds (names : List String) : List TokenKind :=
  names.flatMap fun name => [.mark .dot, .ident name]

/-- Words with dots in front of them are read one by one. -/
private theorem loop_dotRound_of_kinds (file : SourceFile) {names : List String}
    {tokens rest : List Token} (areKinds : tokens.map (·.kind) = dotKinds names)
    (ends : rest.head?.map (·.kind) ≠ some (.mark .dot)) (found : List String)
    (previous : Option Token) (recorded : List Diagnostic) :
    loop found dotRound file ⟨previous, tokens ++ rest, recorded⟩ =
      .ok (found ++ names) ⟨Token.lastOf previous tokens, rest, recorded⟩ := by
  induction names generalizing tokens found previous with
  | nil =>
      obtain rfl := List.map_eq_nil_iff.mp areKinds
      refine loop_of_done file progresses_dotRound ?_
      rw [dotRound, eat_bind_apply, if_neg (by rwa [Cursor.peek?, ← List.head?_eq_getElem?]),
        List.append_nil]
      rfl
  | cons name names ih =>
      obtain ⟨dot, behind, rfl, isDot, behindKinds⟩ := List.map_eq_cons_iff.mp areKinds
      obtain ⟨token, behind, rfl, named, restKinds⟩ := List.map_eq_cons_iff.mp behindKinds
      have run := @ih behind restKinds (found ++ [name]) (some token)
      refine (loop_of_yield file progresses_dotRound ?_).trans (run.trans (by simp))
      rw [dotRound, eat_bind_apply, if_pos (by simp [isDot])]
      simp [bind_apply, expectIdent_apply, named, TokenKind.ident?, -bind_pure_comp]

/-- A dotted name is passed in front of anything but a dot. -/
theorem passes_dottedName (name : String) (names : List String) :
    Passes dottedName (· ≠ some (.mark .dot)) (.ident name :: dotKinds names)
      (· = name :: names) := by
  intro file previous tokens rest recorded areKinds ends
  obtain ⟨token, behind, rfl, named, behindKinds⟩ := List.map_eq_cons_iff.mp areKinds
  refine ⟨name :: names, rfl, ?_⟩
  show (expectIdent >>= fun found => loop [found.1] dotRound) file _ = _
  simp [bind_apply, expectIdent_apply, named, TokenKind.ident?,
    loop_dotRound_of_kinds file behindKinds ends]

/-- An attribute is passed with its arguments. -/
theorem passes_appliedAttribute {name : String} {arguments : List ι}
    {said : ι → AttributeArgument} (nonempty : arguments ≠ [])
    (begins : ∀ i ∈ arguments, ∃ kind, (kindsOf i).head? = some kind ∧ kind ≠ .mark .rightParen)
    (passes : ∀ i ∈ arguments, Passes attributeArgument EndsArgument (kindsOf i)
      fun argument => argument.unplaced = said i) :
    Passes appliedAttribute (fun _ => True) (attributeKinds name (arguments.map kindsOf))
      fun applied => applied.unplaced = ⟨.nowhere, [name], arguments.map said⟩ := by
  intro file previous tokens rest recorded areKinds _
  obtain ⟨nameToken, tokens, rfl, isName, areKinds⟩ := List.map_eq_cons_iff.mp areKinds
  obtain ⟨opening, inner, rfl, opens, innerKinds⟩ := List.map_eq_cons_iff.mp areKinds
  have items (i : ι) (member : i ∈ arguments) :
      Passes attributeArgument (EndsItem .rightParen) (kindsOf i)
        fun argument => argument.unplaced = said i := by
    intro file previous tokens rest recorded areKinds ends
    refine passes i member file previous tokens rest recorded areKinds ?_
    rcases ends with comma | close
    · exact ⟨.comma, by decide, comma⟩
    · exact ⟨.rightParen, by decide, close⟩
  have forward : Forward attributeArgument :=
    (@repeats_attributeArgument fun _ _ => True).forward
  obtain ⟨found, areSaid, listed⟩ := passes_listUpTo forward nonempty begins items (by decide) file
    (some opening) inner rest recorded innerKinds trivial
  let cursor : Cursor := ⟨previous, nameToken :: opening :: (inner ++ rest), recorded⟩
  let later : Cursor := ⟨Token.lastOf (some opening) inner, rest, recorded⟩
  have unqualified : atQualifier file cursor = .ok false cursor := by
    have looks : atQualifier file cursor = .ok (((cursor.peek? 0).bind TokenKind.ident?).isSome &&
        cursor.peek? 1 == some (.mark .doubleColon)) cursor := rfl
    rw [looks]
    simp [cursor, opens]
  obtain ⟨read, rfl, named⟩ := passes_dottedName name [] file previous [nameToken]
    (opening :: (inner ++ rest)) recorded (congrArg (fun kind => [kind]) isName) (by simp [opens])
  have named : dottedName file cursor = .ok [name] cursor.advance := named
  have typed : argumentsIfAny type file cursor.advance = .ok [] cursor.advance := by
    rw [argumentsIfAny_apply, if_neg (by simp [cursor, opens])]
  have applied : appliedArguments file cursor.advance = .ok found later := by
    rw [appliedArguments, eat_bind_apply, if_pos (by simp [cursor, opens])]
    exact listed
  refine ⟨⟨later.spanFrom (cursor.nextSpan file), [name], found⟩, ?_, ?_⟩
  · simp only [Attribute.unplaced, areSaid]
  · show appliedAttribute file cursor = .ok _ later
    rw [appliedAttribute_eq]
    simp only [bind_apply, nextSpan_apply, unqualified, Bool.false_eq_true, if_false, pure_apply,
      named, typed, applied, spanFrom_apply]

/-- A list with one attribute is passed, whatever comes behind it. -/
theorem passes_attributeList {name : String} {arguments : List (List TokenKind)} {said : Attribute}
    (passes : Passes appliedAttribute (fun _ => True) (attributeKinds name arguments)
      fun applied => applied.unplaced = said) :
    Passes attributeList (fun _ => True) (attributeListKinds name arguments)
      fun list => list.unplaced = ⟨.nowhere, none, [said]⟩ := by
  intro file previous tokens rest recorded areKinds _
  obtain ⟨opening, inner, rfl, opens, innerKinds⟩ := List.map_eq_cons_iff.mp areKinds
  have item (i : Unit) (_ : i ∈ [()]) : Passes appliedAttribute (EndsItem .rightBracket)
      (attributeKinds name arguments) fun applied => applied.unplaced = said :=
    fun file previous tokens rest recorded areKinds _ =>
      passes file previous tokens rest recorded areKinds trivial
  have forward : Forward appliedAttribute := repeats_appliedAttribute.forward
  obtain ⟨found, areSaid, listed⟩ :=
    @passes_listUpTo _ _ _ .rightBracket _ _ (fun _ => attributeKinds name arguments)
      (fun _ => said)
      [()] forward nofun (fun _ _ => ⟨.ident name, rfl, nofun⟩) item nofun file
        (some opening) inner rest
      recorded innerKinds trivial
  obtain ⟨nameToken, others, rfl, isName, otherKinds⟩ := List.map_eq_cons_iff.mp innerKinds
  obtain ⟨second, others, rfl, isSecond, -⟩ := List.map_eq_cons_iff.mp otherKinds
  let cursor : Cursor := ⟨previous, opening :: nameToken :: second :: (others ++ rest), recorded⟩
  let later : Cursor :=
    ⟨Token.lastOf (some opening) (nameToken :: second :: others), rest, recorded⟩
  have untargeted : attributeTarget file cursor.advance = .ok none cursor.advance := by
    simp [attributeTarget, bind_apply, cursor, isName, isSecond, TokenKind.ident?]
  refine ⟨⟨later.spanFrom (cursor.nextSpan file), none, found⟩, ?_, ?_⟩
  · simp only [AttributeList.unplaced, areSaid, List.map_cons, List.map_nil]
  · show attributeList file cursor = .ok _ later
    rw [attributeList]
    simp only [bind_apply, nextSpan_apply, expect_apply]
    rw [if_pos (by simp [cursor, opens])]
    have listed :
        listUpTo .rightBracket appliedAttribute file cursor.advance = .ok found later := listed
    simp only [untargeted, listed, spanFrom_apply, pure_apply]

/-- Attribute lists are passed one by one, in front of anything that is no further
list. -/
theorem passes_attributeLists {lists : List ι} {said : ι → AttributeList}
    (begins : ∀ i ∈ lists, (kindsOf i).head? = some (.mark .leftBracket))
    (passes : ∀ i ∈ lists, Passes attributeList (fun _ => True) (kindsOf i)
      fun list => list.unplaced = said i) :
    Passes attributeLists (· ≠ some (.mark .leftBracket)) (lists.flatMap kindsOf)
      fun found => found.map AttributeList.unplaced = lists.map said := by
  intro file previous tokens rest recorded areKinds ends
  suffices ∀ found, ∃ values : List AttributeList,
      values.map AttributeList.unplaced = lists.map said ∧
        loop found listRound file ⟨previous, tokens ++ rest, recorded⟩ =
          .ok (found ++ values) ⟨Token.lastOf previous tokens, rest, recorded⟩ from this []
  intro found
  induction lists generalizing previous tokens found with
  | nil =>
      obtain rfl : tokens = [] := by simpa using areKinds
      refine ⟨[], rfl, loop_of_done file progresses_listRound ?_⟩
      rw [listRound_apply, if_neg]
      · rw [List.append_nil]
        rfl
      · rwa [Cursor.peek?, List.nil_append, ← List.head?_eq_getElem?]
  | cons first others ih =>
      obtain ⟨beginsFirst, beginsOthers⟩ := List.forall_mem_cons.mp begins
      obtain ⟨passesFirst, passesOthers⟩ := List.forall_mem_cons.mp passes
      rw [List.flatMap_cons] at areKinds
      obtain ⟨own, behind, rfl, ownKinds, behindKinds⟩ := List.map_eq_append_iff.mp areKinds
      obtain ⟨list, isSaid, run⟩ :=
        passesFirst file previous own (behind ++ rest) recorded ownKinds trivial
      obtain ⟨values, areSaid, runs⟩ :=
        ih beginsOthers passesOthers (Token.lastOf previous own) behind
        behindKinds (found ++ [list])
      have next : (Cursor.mk previous (own ++ (behind ++ rest)) recorded).peek? 0 =
          some (.mark .leftBracket) := by
        apply Cursor.peek?_of_head
        rw [← List.head?_map, ownKinds, beginsFirst]
      have round := listRound_apply found file ⟨previous, own ++ (behind ++ rest), recorded⟩
      rw [if_pos next, run] at round
      refine ⟨list :: values, by rw [List.map_cons, List.map_cons, isSaid, areSaid], ?_⟩
      rw [List.append_assoc, loop_of_yield file progresses_listRound round, runs,
        Token.lastOf_append]
      simp

end Applied

end ErrorAccessors.Parser
