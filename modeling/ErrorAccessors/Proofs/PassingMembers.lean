/-
# Passing generated members

The members of generated classes are fields, properties and methods whose types and
names are taken from somewhere else.  A name may be a keyword, or it may be cut into
several tokens that are not all letters; a type may be one that the reader of types
gives up on.  Whatever they are, such a member is passed without a diagnostic: it is
read as a method, as a type without members, or it is skipped, and nothing stands in
front of it that would be read as an attribute.

The reader of types stops behind the type or behind the name in front of its
arguments, and in both places brackets match from there on.
-/

import ErrorAccessors.Proofs.BracketedTokens
import ErrorAccessors.Proofs.PassingAttributes
import ErrorAccessors.Proofs.WrittenMethod

namespace ErrorAccessors

open ErrorAccessors.Parser

/-- Whether a token may be part of a name that is not read as a word. -/
def TokenKind.isNamePart : TokenKind → Bool
  | .ident _ | .integer _ | .real _ | .fault _ => true
  | _ => false

theorem TokenKind.isInner_of_isNamePart {kind : TokenKind} (part : kind.isNamePart = true) :
    kind.isInner = true := by
  cases kind <;> first | rfl | cases part

/-- The tokens that a declared name is cut into.  A word is not followed by another
one. -/
structure NameKinds (kinds : List TokenKind) : Prop where
  some : kinds ≠ []
  parts : ∀ kind ∈ kinds, kind.isNamePart = true
  apart : ∀ name kind more, kinds = .ident name :: kind :: more → kind.isIdent = false

/-- The tokens of a type in front of a name: a word, possibly with something in angle
brackets. -/
inductive HeadKinds (name : String) : List TokenKind → Prop
  | plain : HeadKinds name [.ident name]
  | generic {inside : List TokenKind} (bracketed : Bracketed inside) :
      HeadKinds name (.ident name :: .mark .less :: (inside ++ [.mark .greater]))

/-- The tokens of type parameters behind a name, if there are any. -/
def parameterKinds (names : List String) : List TokenKind :=
  if names = [] then []
  else .mark .less :: (separatedKinds (names.map fun name => [.ident name]) ++ [.mark .greater])

/-- The tokens of a member behind its name: a value, or the parameters of a method and
its body as an expression. -/
inductive RestKinds : List TokenKind → Prop
  | value {mark : Mark} {inside : List TokenKind} (assigns : mark = .equals ∨ mark = .arrow)
      (bracketed : Bracketed inside) : RestKinds (.mark mark :: (inside ++ [.mark .semicolon]))
  | method (names : List String) {list body : List TokenKind} (bracketedList : Bracketed list)
      (bracketedBody : Bracketed body) :
      RestKinds (parameterKinds names ++ .mark .leftParen :: (list ++ .mark .rightParen ::
        .mark .arrow :: (body ++ [.mark .semicolon])))

/-- The methods of a type are those among its members. -/
theorem TypeDecl.methods_eq (decl : TypeDecl) :
    decl.methods = TypeMember.methodsOfList decl.members := by
  cases decl
  rfl

section Kinds

variable {name : String} {kinds : List TokenKind}

theorem NameKinds.bracketed (names : NameKinds kinds) : Bracketed kinds :=
  .of_inner fun kind member => TokenKind.isInner_of_isNamePart (names.parts kind member)

theorem NameKinds.bracketed_tail {kind : TokenKind} (names : NameKinds (kind :: kinds)) :
    Bracketed kinds :=
  .of_inner fun other member =>
    TokenKind.isInner_of_isNamePart (names.parts other (List.mem_cons_of_mem _ member))

theorem nameKinds_word (name : String) : NameKinds [.ident name] :=
  ⟨List.cons_ne_nil _ _, by simp [TokenKind.isNamePart], by simp⟩

theorem HeadKinds.bracketed (head : HeadKinds name kinds) : Bracketed kinds := by
  cases head with
  | plain => exact .inner rfl .nil
  | generic bracketed => exact .inner rfl (bracketed.enclosed (by decide))

theorem bracketed_separatedKinds {items : List (List TokenKind)}
    (bracketed : ∀ item ∈ items, Bracketed item) : Bracketed (separatedKinds items) := by
  induction items using separatedKinds.induct with
  | case1 => exact .nil
  | case2 last => exact bracketed last List.mem_cons_self
  | case3 first second others ih =>
      obtain ⟨isFirst, isLater⟩ := List.forall_mem_cons.mp bracketed
      exact isFirst.append (.inner rfl (ih isLater))

theorem bracketed_parameterKinds (names : List String) : Bracketed (parameterKinds names) := by
  unfold parameterKinds
  split
  · exact .nil
  · refine (bracketed_separatedKinds ?_).enclosed (by decide)
    exact List.forall_mem_map.mpr fun name _ => .inner rfl .nil

/-- All brackets of the rest of a member match up to its semicolon. -/
theorem RestKinds.bracketed (rest : RestKinds kinds) :
    ∃ inside, kinds = inside ++ [.mark .semicolon] ∧ Bracketed inside := by
  cases rest with
  | @value mark inside assigns bracketed =>
      refine ⟨.mark mark :: inside, rfl, .inner ?_ bracketed⟩
      rcases assigns with rfl | rfl <;> rfl
  | @method names list body bracketedList bracketedBody =>
      refine ⟨parameterKinds names ++ .mark .leftParen :: (list ++ .mark .rightParen ::
        .mark .arrow :: body), by simp, (bracketed_parameterKinds names).append ?_⟩
      exact .group (by decide) bracketedList (.inner rfl bracketedBody)

end Kinds

namespace Parser

section Parts

variable {name : String} {file : SourceFile} {previous : Option Token} {tokens rest : List Token}
  {recorded : List Diagnostic}

/-- The marks that continue a type. -/
def continuingMarks : List Mark :=
  [.less, .dot, .doubleColon, .question, .star, .leftBracket]

/-- A type ends in front of everything but certain marks. -/
theorem endsType_of_kind {cursor : Cursor} {kind : TokenKind} (next : cursor.peek? 0 = some kind)
    (ends : ∀ mark ∈ continuingMarks, kind ≠ .mark mark) : cursor.EndsType := by
  have differs {mark : Mark} (continues : mark ∈ continuingMarks) :
      cursor.peek? 0 ≠ some (.mark mark) := by
    rw [next]
    exact fun same => ends mark continues (Option.some.inj same)
  exact ⟨⟨differs (by decide), differs (by decide), differs (by decide)⟩, differs (by decide),
    differs (by decide), differs (by decide)⟩

/-- Names with commas between them are read one by one. -/
private theorem loop_parameterRound_of_names {names : List String} (nonempty : names ≠ [])
    {closing : Token} (closes : closing.kind = .mark .greater)
    (areKinds : tokens.map (·.kind) = separatedKinds (names.map fun name => [.ident name]))
    (found : List String) :
    loop found parameterRound file ⟨previous, tokens ++ closing :: rest, recorded⟩ =
      .ok (found ++ names) ⟨Token.lastOf previous tokens, closing :: rest, recorded⟩ := by
  induction names generalizing tokens found previous with
  | nil => exact absurd rfl nonempty
  | cons name others ih =>
      cases others with
      | nil =>
          obtain ⟨token, rfl, named⟩ := List.map_eq_singleton_iff.mp areKinds
          let cursor : Cursor := ⟨previous, token :: closing :: rest, recorded⟩
          have next : cursor.peek? 0 = some (.ident name) := congrArg some named
          refine loop_of_done file progresses_parameterRound ?_
          show parameterRound found file cursor = _
          rw [parameterRound_of_name found next
            (by simp [cursor, closes, TokenKind.isIdent, TokenKind.ident?])]
          simp [cursor, closes]
      | cons second others =>
          obtain ⟨token, behind, rfl, named, behindKinds⟩ := List.map_eq_cons_iff.mp areKinds
          obtain ⟨comma, behind, rfl, isComma, restKinds⟩ := List.map_eq_cons_iff.mp behindKinds
          let cursor : Cursor := ⟨previous, token :: comma :: (behind ++ closing :: rest), recorded⟩
          have next : cursor.peek? 0 = some (.ident name) := congrArg some named
          have run := @ih (some comma) behind (List.cons_ne_nil _ _) restKinds (found ++ [name])
          refine (loop_of_yield file progresses_parameterRound ?_).trans (run.trans (by simp))
          show parameterRound found file cursor = _
          rw [parameterRound_of_name found next
            (by simp [cursor, isComma, TokenKind.isIdent, TokenKind.ident?])]
          simp [cursor, isComma]

/-- Names in angle brackets are read as type parameters. -/
theorem typeParameters_of_names {names : List String} (nonempty : names ≠ [])
    (areKinds : tokens.map (·.kind) = parameterKinds names) :
    typeParameters file ⟨previous, tokens ++ rest, recorded⟩ =
      .ok names ⟨Token.lastOf previous tokens, rest, recorded⟩ := by
  rw [parameterKinds, if_neg nonempty] at areKinds
  obtain ⟨opening, behind, rfl, opens, areKinds⟩ := List.map_eq_cons_iff.mp areKinds
  obtain ⟨inner, last, rfl, innerKinds, lastKind⟩ := List.map_eq_append_iff.mp areKinds
  obtain ⟨closing, rfl, closes⟩ := List.map_eq_singleton_iff.mp lastKind
  rw [typeParameters_eq]
  simp [bind_apply, expect_apply, opens, closes,
    loop_parameterRound_of_names nonempty closes innerKinds, -bind_pure_comp]

/-- Names in angle brackets, or nothing, are read where type parameters may stand. -/
theorem parametersIfAny_of_names {names : List String}
    (areKinds : tokens.map (·.kind) = parameterKinds names)
    (noLess : rest.head?.map (·.kind) ≠ some (.mark .less)) :
    parametersIfAny [] file ⟨previous, tokens ++ rest, recorded⟩ =
      .ok names ⟨Token.lastOf previous tokens, rest, recorded⟩ := by
  rw [parametersIfAny_apply]
  by_cases nothing : names = []
  · subst nothing
    obtain rfl : tokens = [] := by simpa [parameterKinds] using areKinds
    rw [if_neg (by rwa [Cursor.peek?, ← List.head?_eq_getElem?])]
    rfl
  · have opened : (Cursor.mk previous (tokens ++ rest) recorded).peek? 0 = some (.mark .less) := by
      refine Cursor.peek?_of_head ?_ _ _ _
      rw [← List.head?_map, areKinds, parameterKinds, if_neg nothing]
      rfl
    rw [if_pos opened, typeParameters_of_names nothing areKinds]

end Parts

section Tails

variable {file : SourceFile} {previous : Option Token} {tokens rest : List Token}
  {recorded : List Diagnostic} {name : String} {nameKinds restKinds kinds : List TokenKind}

/-- The name and the type parameters in front of a list are read. -/
private theorem memberName_of_parameterKinds {names : List String} {token : Token}
    (named : token.kind = .ident name) (areKinds : tokens.map (·.kind) = parameterKinds names)
    (noLess : rest.head?.map (·.kind) ≠ some (.mark .less))
    (noDot : rest.head?.map (·.kind) ≠ some (.mark .dot)) :
    memberName file ⟨previous, token :: (tokens ++ rest), recorded⟩ =
      .ok (name, token.span, names) ⟨Token.lastOf (some token) tokens, rest, recorded⟩ :=
  memberName_of_parameters (congrArg some named) (parametersIfAny_of_names areKinds noLess)
    (by rwa [Cursor.peek?, ← List.head?_eq_getElem?])

/-- The rest of a member that is skipped. -/
private theorem skipped_of_bracketed {α : Type} (bracketed : Bracketed kinds)
    (areKinds : tokens.map (·.kind) = kinds ++ [.mark .semicolon]) :
    (do skipMember; return none : Parser (Option α)) file ⟨previous, tokens ++ rest, recorded⟩ =
      .ok none ⟨Token.lastOf previous tokens, rest, recorded⟩ := by
  simp [bind_apply, skipMember_of_bracketed bracketed areKinds, -bind_pure_comp]

/-- A list of parameters and a body behind a name are read as those of a method. -/
private theorem methodTail_of_method {names : List String} {list body : List TokenKind}
    (bracketedList : Bracketed list) (bracketedBody : Bracketed body) {token : Token}
    (named : token.kind = .ident name) (ordinary : name ≠ "operator" ∧ name ≠ "this")
    (areKinds : tokens.map (·.kind) = parameterKinds names ++ .mark .leftParen ::
      (list ++ .mark .rightParen :: .mark .arrow :: (body ++ [.mark .semicolon]))) :
    ∃ found, methodTail file ⟨previous, token :: (tokens ++ rest), recorded⟩ =
      .ok found ⟨Token.lastOf (some token) tokens, rest, recorded⟩ := by
  rw [← List.singleton_append (l := TokenKind.mark .arrow :: _), ← List.append_assoc,
    ← List.cons_append, ← List.append_assoc] at areKinds
  obtain ⟨front, bodyTokens, rfl, frontKinds, bodyKinds⟩ := List.map_eq_append_iff.mp areKinds
  obtain ⟨parameters, listTokens, rfl, areParameters, listKinds⟩ :=
    List.map_eq_append_iff.mp frontKinds
  obtain ⟨arrow, behind, rfl, arrows, behindKinds⟩ := List.map_eq_cons_iff.mp bodyKinds
  obtain ⟨inner, last, rfl, innerKinds, lastKind⟩ := List.map_eq_append_iff.mp behindKinds
  obtain ⟨semicolon, rfl, ends⟩ := List.map_eq_singleton_iff.mp lastKind
  have enclosed := enclosed_of_bracketed (by decide) bracketedList listKinds
  have written : WritesBody (arrow :: (inner ++ [semicolon])) .expression :=
    .expression arrows (skippedBy_of_bracketed skipsInner_statementAction bracketedBody innerKinds)
      ends
  have opened : (listTokens ++ (arrow :: (inner ++ [semicolon]) ++ rest)).head?.map (·.kind) =
      some (.mark .leftParen) := by
    rw [← List.head?_map, List.map_append, listKinds]
    rfl
  obtain ⟨last, closed⟩ := enclosed.closed
  refine ⟨some ⟨name, token.span, names, .expression⟩, ?_⟩
  rw [List.append_assoc, List.append_assoc, Token.lastOf_append, Token.lastOf_append]
  refine methodTail_of_parts (congrArg some named) ordinary
    (memberName_of_parameterKinds named areParameters (by rw [opened]; simp) (by rw [opened]; simp))
    (Cursor.peek?_of_head enclosed.opens _ _ _)
    (skipBalanced_of_closed file (Token.lastOf (some token) parameters) recorded closed)
    (by simp : Mark.arrow ∈ _) (congrArg some arrows) ?_
  exact methodBody_of_writes written file _ rest recorded

/-- A name without type parameters and without a list behind it is that of a member which
is skipped. -/
private theorem methodTail_of_other {next : TokenKind} (bracketed : Bracketed kinds) {token : Token}
    (named : token.kind = .ident name) (ordinary : name ≠ "operator" ∧ name ≠ "this")
    (areKinds : tokens.map (·.kind) = kinds ++ [.mark .semicolon])
    (head : tokens.head?.map (·.kind) = some next)
    (other : next ∉ [TokenKind.mark .less, .mark .dot, .mark .leftParen]) :
    methodTail file ⟨previous, token :: (tokens ++ rest), recorded⟩ =
      .ok none ⟨Token.lastOf (some token) tokens, rest, recorded⟩ := by
  simp only [List.mem_cons, List.not_mem_nil, or_false, not_or] at other
  have headIs : (tokens ++ rest).head?.map (·.kind) = some next := by
    rw [List.head?_append, Option.map_or, head]
    rfl
  have read : memberName file ⟨previous, token :: (tokens ++ rest), recorded⟩ =
      .ok (name, token.span, []) ⟨some token, tokens ++ rest, recorded⟩ := by
    refine @memberName_of_parameterKinds file previous [] (tokens ++ rest) recorded name [] token
      named rfl ?_ ?_
    · rw [headIs]
      exact fun same => other.1 (Option.some.inj same)
    · rw [headIs]
      exact fun same => other.2.1 (Option.some.inj same)
  have isName : (Cursor.mk previous (token :: (tokens ++ rest)) recorded).peek? 0 =
      some (.ident name) := congrArg some named
  refine (methodTail_of_noList isName ordinary read ?_).trans
    (skipped_of_bracketed bracketed areKinds)
  rw [Cursor.peek?_of_head head]
  exact fun same => other.2.2 (Option.some.inj same)

/-- From its name on a member is read as a method or skipped. -/
theorem methodTail_of_kinds (isName : NameKinds nameKinds) (isRest : RestKinds restKinds)
    (areKinds : tokens.map (·.kind) = nameKinds ++ restKinds) :
    ∃ found, methodTail file ⟨previous, tokens ++ rest, recorded⟩ =
      .ok found ⟨Token.lastOf previous tokens, rest, recorded⟩ := by
  obtain ⟨inside, restIs, bracketed⟩ := isRest.bracketed
  have whole := isName.bracketed.append bracketed
  cases nameKinds with
  | nil => exact absurd rfl isName.some
  | cons kind more =>
      have wholeKinds : tokens.map (·.kind) = kind :: more ++ inside ++ [.mark .semicolon] := by
        rw [areKinds, restIs, List.append_assoc]
      obtain ⟨token, behind, rfl, isKind, behindKinds⟩ := List.map_eq_cons_iff.mp areKinds
      by_cases ordinary : ∃ name, kind = .ident name ∧ name ≠ "operator" ∧ name ≠ "this"
      · obtain ⟨name, rfl, ordinary⟩ := ordinary
        have other {next : TokenKind} (head : behind.head?.map (·.kind) = some next)
            (other : next ∉ [TokenKind.mark .less, .mark .dot, .mark .leftParen]) :=
          @methodTail_of_other file previous behind rest recorded name _ next
            (isName.bracketed_tail.append bracketed) token isKind ordinary
            (List.cons.inj wholeKinds).2 head other
        cases more with
        | cons second more =>
            have part := isName.parts second (by simp)
            refine ⟨none, @other second ?_ ?_⟩
            · rw [← List.head?_map, behindKinds]
              rfl
            · simp only [List.mem_cons, List.not_mem_nil, or_false]
              rintro (rfl | rfl | rfl) <;> cases part
        | nil =>
            cases isRest with
            | @value mark inside assigns _ =>
                refine ⟨none, @other (.mark mark) ?_ ?_⟩
                · rw [← List.head?_map, behindKinds]
                  rfl
                · rcases assigns with rfl | rfl <;> decide
            | method names bracketedList bracketedBody =>
                exact methodTail_of_method bracketedList bracketedBody isKind ordinary behindKinds
      · refine ⟨none, (methodTail_of_noName fun name next => ?_).trans
          (skipped_of_bracketed whole wholeKinds)⟩
        obtain rfl : kind = .ident name := isKind.symm.trans (Option.some.inj next)
        exact Decidable.byContradiction fun other => ordinary ⟨name, rfl, not_or.mp other⟩

end Tails

section Methods

variable {file : SourceFile} {previous : Option Token} {tokens rest : List Token}
  {recorded : List Diagnostic} {name : String} {typeKinds nameKinds restKinds : List TokenKind}
  (start : Span) (words : List Modifier)

/-- Nothing but a word or a parenthesis begins a type. -/
private theorem type_of_noBeginning {cursor : Cursor} {kind : TokenKind}
    (next : cursor.peek? 0 = some kind) (noWord : kind.isIdent = false)
    (noParen : kind ≠ .mark .leftParen) :
    ∃ diagnostic later, type file cursor = .error diagnostic later := by
  have noName : kind.ident? = none := by simpa [TokenKind.isIdent] using noWord
  refine ⟨cursor.unexpected file "type", cursor, ?_⟩
  show typeWithin (cursor.remaining.length + 1) file cursor = _
  rw [typeWithin_apply, next, if_neg (by simpa using noParen)]
  simp [noName]

/-- What a member is read as from its type on is read as a method without
attributes. -/
private theorem method?_of_tail {cursor reached later : Cursor} {returnType : TypeExpr}
    {found : Option MethodTail} (read : type file cursor = .ok returnType reached)
    (tail : methodTail file reached = .ok found later) :
    ∃ method, (∀ decl ∈ method, decl.attributeLists = []) ∧
      method? start [] words file cursor = .ok method later := by
  rw [method?_apply, read]
  cases found with
  | none => exact ⟨none, nofun, by simp only [tail]⟩
  | some shape =>
      refine ⟨some ⟨later.spanFrom start, [], words, returnType, shape.name, shape.nameSpan,
        shape.typeParameters, shape.body⟩, ?_, by simp only [tail]⟩
      rintro decl ⟨⟩
      rfl

/-- A member that begins with no type is skipped. -/
private theorem method?_of_noType {kind : TokenKind} {inside : List TokenKind}
    (head : tokens.head?.map (·.kind) = some kind) (noWord : kind.isIdent = false)
    (noParen : kind ≠ .mark .leftParen) (bracketed : Bracketed inside)
    (areKinds : tokens.map (·.kind) = inside ++ [.mark .semicolon]) :
    method? start [] words file ⟨previous, tokens ++ rest, recorded⟩ =
      .ok none ⟨Token.lastOf previous tokens, rest, recorded⟩ := by
  obtain ⟨diagnostic, later, failed⟩ :=
    @type_of_noBeginning file _ kind
      (Cursor.peek?_of_head head previous rest recorded) noWord noParen
  rw [method?_apply, failed]
  exact skipped_of_bracketed bracketed areKinds

/-- The first part of a name does not continue a type. -/
private theorem endsType_of_name (isName : NameKinds nameKinds)
    (areKinds : tokens.map (·.kind) = nameKinds ++ restKinds) :
    (Cursor.mk previous (tokens ++ rest) recorded).EndsType := by
  cases nameKinds with
  | nil => exact absurd rfl isName.some
  | cons kind more =>
      have head : tokens.head?.map (·.kind) = some kind := by
        rw [← List.head?_map, areKinds]
        rfl
      refine endsType_of_kind (Cursor.peek?_of_head head previous rest recorded) ?_
      rintro mark - rfl
      cases isName.parts _ List.mem_cons_self

/-- From its type on a member is read as a method without attributes or skipped. -/
private theorem method?_of_kinds (head : HeadKinds name typeKinds) (isName : NameKinds nameKinds)
    (isRest : RestKinds restKinds)
    (areKinds : tokens.map (·.kind) = typeKinds ++ (nameKinds ++ restKinds)) :
    ∃ method, (∀ decl ∈ method, decl.attributeLists = []) ∧
      method? start [] words file ⟨previous, tokens ++ rest, recorded⟩ =
        .ok method ⟨Token.lastOf previous tokens, rest, recorded⟩ := by
  obtain ⟨typeTokens, behind, rfl, typeAre, behindKinds⟩ := List.map_eq_append_iff.mp areKinds
  have ends : (Cursor.mk (Token.lastOf previous typeTokens) (behind ++ rest) recorded).EndsType :=
    endsType_of_name isName behindKinds
  obtain ⟨found, tail⟩ := @methodTail_of_kinds file (Token.lastOf previous typeTokens) behind rest
    recorded nameKinds restKinds isName isRest behindKinds
  rw [List.append_assoc, Token.lastOf_append]
  cases head with
  | plain =>
      obtain ⟨read, run⟩ := @type_of_name name file previous typeTokens _ recorded typeAre ends
      exact method?_of_tail start words run tail
  | @generic inside bracketed =>
      obtain ⟨read, later, run, rfl | ⟨token, arguments, rfl, rfl⟩⟩ :=
        type_of_generic typeAre bracketed.angled ends
      · exact method?_of_tail start words run tail
      · -- the arguments are skipped with the rest of the member
        obtain ⟨inner, restIs, bracketedRest⟩ := isRest.bracketed
        have argumentKinds := (List.cons.inj typeAre).2
        have whole : (arguments ++ behind).map (·.kind) =
            (.mark .less :: (inside ++ [.mark .greater])) ++ (nameKinds ++ inner) ++
              [.mark .semicolon] := by
          rw [List.map_append, argumentKinds, behindKinds, restIs]
          simp
        have skipped := @skipped_of_bracketed file (some token) _ rest recorded _ MethodTail
          ((bracketed.enclosed (by decide)).append (isName.bracketed.append bracketedRest)) whole
        refine @method?_of_tail file start words _ _ _ _ none run
          (.trans (methodTail_of_noName ?_) ?_)
        · intro word next
          have atBracket :
              (Cursor.mk (some token) (arguments ++ (behind ++ rest)) recorded).peek? 0 =
              some (.mark .less) :=
            Cursor.peek?_of_head (by rw [← List.head?_map, argumentKinds]; rfl) _ _ _
          cases atBracket.symm.trans next
        · rw [← List.append_assoc, skipped, Token.lastOf_append]
          rfl

/-- A name with a value behind it, where a type is expected, is skipped. -/
private theorem method?_of_name {mark : Mark} {inside : List TokenKind}
    (isName : NameKinds nameKinds)
    (assigns : mark = .equals ∨ mark = .arrow) (bracketed : Bracketed inside)
    (areKinds : tokens.map (·.kind) = nameKinds ++ .mark mark :: (inside ++ [.mark .semicolon])) :
    ∃ method, (∀ decl ∈ method, decl.attributeLists = []) ∧
      method? start [] words file ⟨previous, tokens ++ rest, recorded⟩ =
        .ok method ⟨Token.lastOf previous tokens, rest, recorded⟩ := by
  obtain ⟨inner, restIs, bracketedRest⟩ := (RestKinds.value assigns bracketed).bracketed
  have whole := isName.bracketed.append bracketedRest
  rw [restIs, ← List.append_assoc] at areKinds
  cases nameKinds with
  | nil => exact absurd rfl isName.some
  | cons kind more =>
      by_cases isIdent : kind.isIdent = true
      · obtain ⟨word, rfl⟩ : ∃ word, kind = .ident word := by
          cases kind <;> first | exact ⟨_, rfl⟩ | cases isIdent
        obtain ⟨token, behind, rfl, named, behindKinds⟩ := List.map_eq_cons_iff.mp areKinds
        -- behind the word no other word comes, and nothing that continues a type
        obtain ⟨next, head, noWord, ends⟩ : ∃ next, behind.head?.map (·.kind) = some next ∧
            next.isIdent = false ∧ ∀ mark ∈ continuingMarks, next ≠ .mark mark := by
          rw [← List.head?_map, behindKinds]
          cases more with
          | nil =>
              refine ⟨.mark mark, ?_, rfl, ?_⟩
              · show (inner ++ [TokenKind.mark .semicolon]).head? = _
                rw [← restIs]
                rfl
              · rcases assigns with rfl | rfl <;> decide
          | cons second more =>
              refine ⟨second, rfl, isName.apart word second more rfl, ?_⟩
              rintro mark - rfl
              cases isName.parts (.mark mark) (by simp)
        have next (previous : Option Token) :=
          Cursor.peek?_of_head head previous rest recorded
        obtain ⟨read, run⟩ := @type_of_name word file previous [token] (behind ++ rest) recorded
          (congrArg (fun kind => [kind]) named) (endsType_of_kind (next _) ends)
        refine @method?_of_tail file start words _ _ _ _ none run
          (.trans (methodTail_of_noName ?_) ?_)
        · intro word isNext
          obtain rfl := Option.some.inj ((next _).symm.trans isNext)
          cases noWord
        · exact skipped_of_bracketed (isName.bracketed_tail.append bracketedRest) behindKinds
      · have noParen : kind ≠ .mark .leftParen := by
          rintro rfl
          cases isName.parts _ List.mem_cons_self
        refine ⟨none, nofun,
          @method?_of_noType file previous tokens rest recorded start words kind _ ?_
          (by simpa using isIdent) noParen whole areKinds⟩
        rw [← List.head?_map, areKinds]
        rfl

end Methods

section Members

variable {file : SourceFile} {previous : Option Token} {rest : List Token}
  {recorded : List Diagnostic} {name : String} {words : List String}
  {kinds nameKinds : List TokenKind}

/-- No attributes stand in front of the methods in what is read of a member. -/
def GivesBare (value : Option TypeMember) : Prop :=
  ∀ method ∈ TypeMember.methodsOfList value.toList, method.attributeLists = []

/-- Words that are read as modifiers in front of tokens. -/
private theorem lists_and_modifiers {wordTokens behind : List Token}
    (wordKinds : wordTokens.map (·.kind) = words.map .ident)
    (modify : ∀ word ∈ words, word ∈ modifierWords) (nonempty : words ≠ [])
    (endsWords : (Cursor.mk (Token.lastOf previous wordTokens) (behind ++ rest) recorded).EndsWords)
    (noParen : behind.head?.map (·.kind) ≠ some (.mark .leftParen)) (some : behind ≠ []) :
    ∃ read, attributeLists file ⟨previous, wordTokens ++ (behind ++ rest), recorded⟩ =
        .ok [] ⟨previous, wordTokens ++ (behind ++ rest), recorded⟩ ∧
      modifiers file ⟨previous, wordTokens ++ (behind ++ rest), recorded⟩ =
        .ok read ⟨Token.lastOf previous wordTokens, behind ++ rest, recorded⟩ ∧
      (Cursor.mk previous (wordTokens ++ (behind ++ rest)) recorded).peek? 0 ≠
        .some (.mark .semicolon) := by
  have areWords : ∀ token ∈ wordTokens, token.IsModifier := by
    intro token member
    have isKind : token.kind ∈ words.map TokenKind.ident := wordKinds ▸ List.mem_map_of_mem member
    obtain ⟨word, isWord, same⟩ := List.mem_map.mp isKind
    exact ⟨word, modify word isWord, same.symm⟩
  obtain ⟨read, -, run⟩ := @modifiers_of_words file wordTokens (behind ++ rest) areWords previous
    recorded endsWords (fun _ => by
      cases behind with
      | nil => exact absurd rfl some
      | cons token behind => exact noParen)
  cases words with
  | nil => exact absurd rfl nonempty
  | cons word words =>
      obtain ⟨token, others, rfl, isWord, -⟩ := List.map_eq_cons_iff.mp wordKinds
      exact ⟨read, attributeLists_of_none file (by simp [isWord]), run, by simp [isWord]⟩

/-- Behind its modifiers a member that is no type is read as what it is from its type on,
or skipped from its first word. -/
private theorem typeMember_of_method? {wordTokens behind : List Token}
    (wordKinds : wordTokens.map (·.kind) = words.map .ident)
    (modify : ∀ word ∈ words, word ∈ modifierWords) (nonempty : words ≠ [])
    (endsWords : (Cursor.mk (Token.lastOf previous wordTokens) (behind ++ rest) recorded).EndsWords)
    (noParen : behind.head?.map (·.kind) ≠ some (.mark .leftParen))
    (noType : (Cursor.mk (Token.lastOf previous wordTokens) (behind ++ rest) recorded).beginsType =
      false)
    (bracketed : Bracketed kinds) (areKinds : behind.map (·.kind) = kinds ++ [.mark .semicolon])
    (reads : ∀ start read, ∃ method, (∀ decl ∈ method, decl.attributeLists = []) ∧
      method? start [] read file ⟨Token.lastOf previous wordTokens, behind ++ rest, recorded⟩ =
        .ok method ⟨Token.lastOf (Token.lastOf previous wordTokens) behind, rest, recorded⟩)
    (nested : Span → List AttributeList → List Modifier → Parser TypeDecl) :
    ∃ value, GivesBare value ∧
      typeMember nested file ⟨previous, wordTokens ++ (behind ++ rest), recorded⟩ =
        .ok value ⟨Token.lastOf (Token.lastOf previous wordTokens) behind, rest, recorded⟩ := by
  have some : behind ≠ [] := by
    rintro rfl
    simp at areKinds
  obtain ⟨read, lists, run, noSemicolon⟩ := @lists_and_modifiers file previous rest recorded words
    wordTokens behind wordKinds modify nonempty endsWords noParen some
  rw [typeMember_apply, if_neg noSemicolon, lists]
  simp only [run, noType, Bool.false_eq_true, if_false]
  by_cases skipped : (Cursor.mk (Token.lastOf previous wordTokens) (behind ++ rest)
      recorded).beginsSkipped = true
  · refine ⟨none, List.forall_mem_nil _, ?_⟩
    rw [if_pos skipped]
    exact skipped_of_bracketed bracketed areKinds
  · obtain ⟨method, bare, isRead⟩ := reads
      ((Cursor.mk previous (wordTokens ++ (behind ++ rest)) recorded).nextSpan file) read
    refine ⟨method.map .method, ?_, ?_⟩
    · cases method with
      | none => exact List.forall_mem_nil _
      | some decl => exact List.forall_mem_singleton.mpr (bare decl rfl)
    · rw [if_neg skipped, isRead]

/-- The words that begin a type declaration whatever comes behind them. -/
def plainTypeWords : List String := ["class", "struct", "interface", "enum"]

/-- Tokens begin as a member does that is neither a type nor preceded by further
modifiers. -/
structure BeginsPlainly (kinds : List TokenKind) : Prop where
  noParen : kinds.head? ≠ some (.mark .leftParen)
  noModifier : ∀ word, kinds.head? = some (.ident word) → word ∉ modifierWords
  noType : ∀ word, kinds.head? = some (.ident word) →
    word ∉ plainTypeWords ∧
      (word = "record" → kinds[1]?.any TokenKind.isIdent = false)

/-- No type declaration begins where tokens begin plainly. -/
private theorem beginsType_of_plainly (plain : BeginsPlainly kinds) {tokens : List Token}
    (areKinds : tokens.map (·.kind) = kinds) (more : 2 ≤ kinds.length) :
    (Cursor.mk previous (tokens ++ rest) recorded).beginsType = false := by
  have length : tokens.length = kinds.length := by rw [← areKinds, List.length_map]
  have isFirst : (Cursor.mk previous (tokens ++ rest) recorded).peek? 0 = kinds.head? := by
    rw [Cursor.peek?, List.getElem?_append_left (by omega), ← List.getElem?_map, areKinds,
      List.head?_eq_getElem?]
  have isSecond : (Cursor.mk previous (tokens ++ rest) recorded).peek? 1 = kinds[1]? := by
    rw [Cursor.peek?, List.getElem?_append_left (by omega), ← List.getElem?_map, areKinds]
  unfold Cursor.beginsType
  rw [isFirst, isSecond]
  split
  case h_5 record =>
    obtain ⟨kind, head, named⟩ := Option.bind_eq_some_iff.mp record
    cases kind with
    | ident word =>
        obtain rfl : word = "record" := Option.some.inj named
        exact (plain.noType _ head).2 rfl
    | _ => cases named
  case h_6 => rfl
  all_goals
    rename_i isWord
    obtain ⟨kind, head, named⟩ := Option.bind_eq_some_iff.mp isWord
    cases kind with
    | ident word =>
        obtain rfl := Option.some.inj named
        exact absurd (by decide) (plain.noType _ head).1
    | _ => cases named

/-- A member that begins plainly is passed as what it is from its type on. -/
private theorem isTypeMember_of_method? {inside : List TokenKind} (nonempty : words ≠ [])
    (modify : ∀ word ∈ words, word ∈ modifierWords) (plain : BeginsPlainly kinds)
    (more : inside ≠ []) (bracketed : Bracketed inside)
    (ends : kinds = inside ++ [.mark .semicolon])
    (reads : ∀ start read file previous tokens rest recorded, tokens.map (·.kind) = kinds →
      ∃ method, (∀ decl ∈ method, decl.attributeLists = []) ∧
        method? start [] read file ⟨previous, tokens ++ rest, recorded⟩ =
          .ok method ⟨Token.lastOf previous tokens, rest, recorded⟩) :
    IsTypeMember GivesBare (words.map .ident ++ kinds) := by
  intro depth _
  refine ⟨?_, ?_⟩
  · cases words with
    | nil => exact absurd rfl nonempty
    | cons word words => exact ⟨.ident word, rfl, nofun, nofun, nofun⟩
  intro file previous tokens rest recorded areKinds _
  obtain ⟨wordTokens, behind, rfl, wordKinds, behindKinds⟩ := List.map_eq_append_iff.mp areKinds
  have length : 2 ≤ kinds.length := by
    have := List.length_pos_iff.mpr more
    rw [ends, List.length_append, List.length_singleton]
    omega
  have headIs : behind.head?.map (·.kind) = kinds.head? := by rw [← List.head?_map, behindKinds]
  have noParen : behind.head?.map (·.kind) ≠ some (.mark .leftParen) := by
    rw [headIs]
    exact plain.noParen
  have endsWords : (Cursor.mk (Token.lastOf previous wordTokens) (behind ++ rest)
      recorded).EndsWords := by
    intro word named modifies
    obtain ⟨kind, next, isWord⟩ := Option.bind_eq_some_iff.mp named
    obtain ⟨head, isHead⟩ : ∃ head, kinds.head? = some head := by
      cases kinds with
      | nil => exact absurd (congrArg List.length ends) (by simp)
      | cons head _ => exact ⟨head, rfl⟩
    obtain rfl :=
      Option.some.inj ((Cursor.peek?_of_head (headIs.trans isHead) _ _ _).symm.trans next)
    cases head with
    | ident found =>
        obtain rfl : found = word := Option.some.inj isWord
        exact absurd modifies (plain.noModifier _ isHead)
    | _ => cases isWord
  rw [List.append_assoc, Token.lastOf_append]
  exact typeMember_of_method? wordKinds modify nonempty endsWords noParen
    (beginsType_of_plainly plain behindKinds length) bracketed (behindKinds.trans ends)
    (fun start read => reads start read file _ behind rest recorded behindKinds) _

/-- What begins with a name in angle brackets' reach is no type declaration. -/
private theorem beginsPlainly_of_head {typeKinds : List TokenKind} (head : HeadKinds name typeKinds)
    (noModifier : name ∉ modifierWords) (noType : name ∉ plainTypeWords)
    (noRecord : typeKinds = [.ident name] → name = "record" →
      kinds.head?.any TokenKind.isIdent = false) : BeginsPlainly (typeKinds ++ kinds) := by
  cases head with
  | plain =>
      refine ⟨nofun, fun word same => ?_, fun word same => ?_⟩
      · obtain rfl : name = word := by simpa using same
        exact noModifier
      · obtain rfl : name = word := by simpa using same
        refine ⟨noType, fun isRecord => ?_⟩
        rw [List.singleton_append, List.getElem?_cons_succ, ← List.head?_eq_getElem?]
        exact noRecord rfl isRecord
  | generic bracketed =>
      refine ⟨nofun, fun word same => ?_, fun word same => ?_⟩
      · obtain rfl : name = word := by simpa using same
        exact noModifier
      · obtain rfl : name = word := by simpa using same
        exact ⟨noType, fun _ => rfl⟩

/-- A member whose type is generic is passed. -/
theorem isTypeMember_of_generic {inside restKinds : List TokenKind} (nonempty : words ≠ [])
    (modify : ∀ word ∈ words, word ∈ modifierWords) (noType : name ∉ plainTypeWords)
    (bracketed : Bracketed inside) (isName : NameKinds nameKinds) (isRest : RestKinds restKinds) :
    IsTypeMember GivesBare (words.map .ident ++
      (.ident name :: .mark .less ::
        (inside ++ [.mark .greater]) ++ (nameKinds ++ restKinds))) := by
  obtain ⟨inner, restIs, bracketedRest⟩ := isRest.bracketed
  have behindName := isName.bracketed.append bracketedRest
  by_cases modifies : name ∈ modifierWords
  · -- the name is read as one more modifier, and no type begins with a bracket
    have isMember := @isTypeMember_of_method? (words ++ [name])
      (.mark .less :: (inside ++ [.mark .greater]) ++ (nameKinds ++ restKinds))
      (.mark .less :: (inside ++ [.mark .greater]) ++ (nameKinds ++ inner)) (by simp)
      (by simpa [or_imp, forall_and, modifies] using modify) ⟨nofun, nofun, nofun⟩ nofun
      ((bracketed.enclosed (by decide)).append behindName) (by simp [restIs])
      (fun start read file previous tokens rest recorded areKinds => ⟨none, nofun, by
        refine @method?_of_noType file previous tokens rest recorded start read (.mark .less)
          (.mark .less :: (inside ++ [.mark .greater]) ++ (nameKinds ++ inner)) ?_ rfl nofun
          ((bracketed.enclosed (by decide)).append behindName) (by simp [areKinds, restIs])
        rw [← List.head?_map, areKinds]
        rfl⟩)
    simpa using isMember
  · have head : HeadKinds name (.ident name :: .mark .less :: (inside ++ [.mark .greater])) :=
      .generic bracketed
    exact isTypeMember_of_method? nonempty modify
      (beginsPlainly_of_head head modifies noType nofun) (by simp)
      (head.bracketed.append behindName) (by simp [restIs])
      fun start read file previous tokens rest recorded areKinds =>
        method?_of_kinds start read head isName isRest areKinds

/-- The word `record` in front of another one begins a type, which has no members if it
ends with a semicolon. -/
private theorem typeDeclWithin_of_record {word : String} {inside : List TokenKind}
    (noType : word ∉ typeWords) (bracketed : Bracketed inside)
    (noList : inside.head? ≠ some (.mark .less) ∧ inside.head? ≠ some (.mark .leftParen))
    {tokens : List Token} (areKinds : tokens.map (·.kind) =
      .ident "record" :: .ident word :: (inside ++ [.mark .semicolon]))
    (depth : Nat) (start : Span) (lists : List AttributeList) (read : List Modifier) :
    ∃ decl : TypeDecl, decl.members = [] ∧
      typeDeclWithin (depth + 1) start lists read file ⟨previous, tokens ++ rest, recorded⟩ =
        .ok decl ⟨Token.lastOf previous tokens, rest, recorded⟩ := by
  obtain ⟨keyword, tokens, rfl, isKeyword, areKinds⟩ := List.map_eq_cons_iff.mp areKinds
  obtain ⟨nameToken, tokens, rfl, isName, areKinds⟩ := List.map_eq_cons_iff.mp areKinds
  obtain ⟨inner, last, rfl, innerKinds, lastKind⟩ := List.map_eq_append_iff.mp areKinds
  obtain ⟨semicolon, rfl, ends⟩ := List.map_eq_singleton_iff.mp lastKind
  let behindName : Cursor := ⟨some nameToken, inner ++ semicolon :: rest, recorded⟩
  let atEnd : Cursor := ⟨Token.lastOf (some nameToken) inner, semicolon :: rest, recorded⟩
  have noWord : word ≠ "struct" ∧ word ≠ "class" := by
    constructor <;> rintro rfl <;> exact noType (by decide)
  have kind : typeKind file ⟨previous, keyword :: nameToken :: behindName.remaining, recorded⟩ =
      .ok .recordType ⟨some keyword, nameToken :: behindName.remaining, recorded⟩ := by
    simp [typeKind, bind_apply, eatWord_apply, isKeyword, isName, TokenKind.ident?, noWord,
      -bind_pure_comp]
  have named : expectIdent file ⟨some keyword, nameToken :: behindName.remaining, recorded⟩ =
      .ok (word, nameToken.span) behindName := by
    simp [expectIdent_apply, isName, TokenKind.ident?, behindName, Cursor.nextSpan]
  have skipped :
      skipUntil [.leftBrace, .semicolon, .rightBrace] file behindName = .ok () atEnd := by
    rw [skipUntil_eq, skipBy_of_skipped file (some nameToken) recorded
      (skippedBy_of_bracketed skipsInner_untilAction bracketed innerKinds)]
    exact skipBy_of_stop file (congrArg some ends) rfl
  have noParameters : behindName.peek? 0 ≠ some (.mark .less) ∧
      behindName.peek? 0 ≠ some (.mark .leftParen) := by
    cases inner with
    | nil => simp [behindName, ends]
    | cons token inner =>
        rw [← innerKinds] at noList
        exact noList
  have head : typeHead file behindName = .ok [] atEnd := by
    simp [typeHead, bind_apply, noParameters, skipped, -bind_pure_comp]
  let later : Cursor := ⟨some semicolon, rest, recorded⟩
  refine ⟨⟨later.spanFrom start, .recordType, word, nameToken.span, [], lists, read, []⟩, rfl, ?_⟩
  have tokensAre : keyword :: nameToken :: (inner ++ [semicolon]) ++ rest =
      keyword :: nameToken :: behindName.remaining := by
    simp [behindName]
  rw [tokensAre, typeDeclWithin]
  simp only [bind_apply, kind, named, head, spanFrom_apply, pure_apply, typeBody]
  simp [eat_apply, atEnd, later, ends, Token.lastOf_append, -bind_pure_comp]

/-- A name of a member that is none of the words which begin a member or modify
one. -/
def NoSpecialWord (kinds : List TokenKind) : Prop :=
  ∀ word, kinds.head? = some (.ident word) → word ∉ modifierWords ∧ word ∉ typeWords

/-- A member with a value whose type is a modifier is passed. -/
private theorem isTypeMember_of_modifier {mark : Mark} {inside : List TokenKind}
    (modify : ∀ word ∈ words, word ∈ modifierWords) (modifies : name ∈ modifierWords)
    (isName : NameKinds nameKinds) (noWord : NoSpecialWord nameKinds)
    (assigns : mark = .equals ∨ mark = .arrow) (bracketed : Bracketed inside) :
    IsTypeMember GivesBare (words.map .ident ++
      (.ident name :: (nameKinds ++ .mark mark :: (inside ++ [.mark .semicolon])))) := by
  obtain ⟨inner, restIs, bracketedRest⟩ := (RestKinds.value assigns bracketed).bracketed
  obtain ⟨kind, more, rfl⟩ := List.exists_cons_of_ne_nil isName.some
  have plain : BeginsPlainly (kind :: more ++ .mark mark :: (inside ++ [.mark .semicolon])) := by
    refine ⟨?_, fun word same => (noWord word same).1, fun word same => ?_⟩
    · rintro ⟨⟩
      cases isName.parts _ List.mem_cons_self
    · have noType : word ∉ plainTypeWords ++ ["record"] := (noWord word same).2
      refine ⟨fun isType => noType (List.mem_append_left _ isType), fun isRecord => ?_⟩
      exact absurd (List.mem_append_right _ (List.mem_singleton.mpr isRecord)) noType
  have isMember := @isTypeMember_of_method? (words ++ [name])
    (kind :: more ++ .mark mark :: (inside ++ [.mark .semicolon])) (kind :: more ++ inner) (by simp)
    (by simpa [or_imp, forall_and, modifies] using modify) plain nofun
    (isName.bracketed.append bracketedRest) (by rw [restIs, List.append_assoc])
    fun start read file previous tokens rest recorded areKinds =>
      method?_of_name start read isName assigns bracketed areKinds
  simpa using isMember

/-- A member with a value whose type is the word `record` in front of another one is
passed as a type. -/
private theorem isTypeMember_of_record {word : String} {inside : List TokenKind}
    (nonempty : words ≠ []) (modify : ∀ word ∈ words, word ∈ modifierWords)
    (noType : word ∉ typeWords) (bracketed : Bracketed inside)
    (noList : inside.head? ≠ some (.mark .less) ∧ inside.head? ≠ some (.mark .leftParen)) :
    IsTypeMember GivesBare (words.map .ident ++
      (.ident "record" :: .ident word :: (inside ++ [.mark .semicolon]))) := by
  intro depth enough
  refine ⟨?_, ?_⟩
  · cases words with
    | nil => exact absurd rfl nonempty
    | cons word words => exact ⟨.ident word, rfl, by simp, by simp, by simp⟩
  intro file previous tokens rest recorded areKinds _
  obtain ⟨wordTokens, behind, rfl, wordKinds, behindKinds⟩ := List.map_eq_append_iff.mp areKinds
  obtain ⟨inner, rfl⟩ : ∃ inner, depth = inner + 1 := by
    refine Nat.exists_eq_succ_of_ne_zero ?_
    rintro rfl
    simp at enough
  have next : (Cursor.mk (Token.lastOf previous wordTokens) (behind ++ rest) recorded).peek? 0 =
      some (.ident "record") :=
    Cursor.peek?_of_head (by rw [← List.head?_map, behindKinds]; rfl) _ _ _
  have endsWords : (Cursor.mk (Token.lastOf previous wordTokens) (behind ++ rest)
      recorded).EndsWords := by
    intro found named modifies
    rw [next] at named
    obtain rfl : "record" = found := by simpa [TokenKind.ident?] using named
    exact absurd modifies (by decide)
  have begins : (Cursor.mk (Token.lastOf previous wordTokens) (behind ++ rest)
      recorded).beginsType = true := by
    obtain ⟨keyword, behind, rfl, isKeyword, behindKinds⟩ := List.map_eq_cons_iff.mp behindKinds
    obtain ⟨nameToken, behind, rfl, isName, -⟩ := List.map_eq_cons_iff.mp behindKinds
    simp [Cursor.beginsType, isKeyword, isName, TokenKind.ident?, TokenKind.isIdent]
  obtain ⟨read, lists, run, noSemicolon⟩ := @lists_and_modifiers file previous rest recorded words
    wordTokens behind wordKinds modify nonempty endsWords
    (by rw [← List.head?_map, behindKinds]; simp) (by rintro rfl; cases behindKinds)
  obtain ⟨decl, noMembers, isRead⟩ := @typeDeclWithin_of_record file
    (Token.lastOf previous wordTokens) rest recorded word inside noType bracketed noList behind
    behindKinds inner
    ((Cursor.mk previous (wordTokens ++ (behind ++ rest)) recorded).nextSpan file) [] read
  refine ⟨some (.type decl), ?_, ?_⟩
  · simp [GivesBare, TypeMember.methodsOfList, TypeDecl.methods_eq, noMembers]
  · rw [List.append_assoc, typeMember_apply, if_neg noSemicolon, lists]
    simp only [run, begins, if_true, isRead, Token.lastOf_append]

/-- A member with a value whose type is a word is passed. -/
theorem isTypeMember_of_value {mark : Mark} {inside : List TokenKind} (nonempty : words ≠ [])
    (modify : ∀ word ∈ words, word ∈ modifierWords) (noType : name ∉ plainTypeWords)
    (isName : NameKinds nameKinds)
    (noWord : name ∈ "record" :: modifierWords → NoSpecialWord nameKinds)
    (assigns : mark = .equals ∨ mark = .arrow) (bracketed : Bracketed inside) :
    IsTypeMember GivesBare (words.map .ident ++
      (.ident name :: (nameKinds ++ .mark mark :: (inside ++ [.mark .semicolon])))) := by
  have isRest := RestKinds.value assigns bracketed
  obtain ⟨inner, restIs, bracketedRest⟩ := isRest.bracketed
  by_cases modifies : name ∈ modifierWords
  · exact isTypeMember_of_modifier modify modifies isName (noWord (List.mem_cons_of_mem _ modifies))
      assigns bracketed
  · by_cases isRecord : name = "record" ∧ nameKinds.head?.any TokenKind.isIdent = true
    · obtain ⟨rfl, isWord⟩ := isRecord
      obtain ⟨kind, more, rfl⟩ := List.exists_cons_of_ne_nil isName.some
      cases kind with
      | ident word =>
          have noList : (more ++ inner).head? ≠ some (.mark .less) ∧
              (more ++ inner).head? ≠ some (.mark .leftParen) := by
            cases more with
            | nil =>
                cases inner with
                | nil => exact ⟨nofun, nofun⟩
                | cons kind inner =>
                    obtain ⟨rfl, -⟩ := List.cons.inj restIs
                    rcases assigns with rfl | rfl <;> exact ⟨nofun, nofun⟩
            | cons second more =>
                have part := isName.parts second (by simp)
                constructor <;> rintro ⟨⟩ <;> cases part
          rw [restIs, List.cons_append, ← List.append_assoc]
          exact isTypeMember_of_record nonempty modify (noWord List.mem_cons_self word rfl).2
            (isName.bracketed_tail.append bracketedRest) noList
      | _ => cases isWord
    · have head : HeadKinds name [.ident name] := .plain
      refine @isTypeMember_of_method? words ([.ident name] ++ (nameKinds ++ _))
        ([.ident name] ++ (nameKinds ++ inner)) nonempty modify
        (beginsPlainly_of_head head modifies noType fun _ record => ?_) nofun
        (head.bracketed.append (isName.bracketed.append bracketedRest)) (by simp [restIs])
        fun start read file previous tokens rest recorded areKinds =>
          method?_of_kinds start read head isName isRest areKinds
      obtain ⟨kind, more, rfl⟩ := List.exists_cons_of_ne_nil isName.some
      simpa using fun isWord => isRecord ⟨record, isWord⟩

end Members

end Parser

end ErrorAccessors
