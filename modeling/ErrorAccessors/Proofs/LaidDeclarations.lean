/-
# Declarations are laid out

Every part of an outline stands where it was read, behind the part that was read before it,
and inside of the part that it belongs to.  The parsers of declarations go forward only, so
what they give is described by following their text once more, now with the row of parts
that has been laid out so far.

A member that cannot be read is skipped, and so is one of another kind.  Neither adds
anything to the row.
-/

import ErrorAccessors.Proofs.LaidTypes

namespace ErrorAccessors

namespace Parser

variable {file : SourceFile} {here : Cursor} {row : List SpanTree}

section Attributes

theorem forward_argumentName : Forward argumentName := by
  have repeats : Repeats argumentName argumentName id := repeats_argumentName
  exact repeats.forward

/-- An argument covers its tokens, of which there is at least one. -/
theorem lays_attributeArgument : Lays (fun argument => [argument.spanTree]) attributeArgument := by
  intro file here stands
  refine .behind_look nextSpan_apply (.starting stands ?_)
  refine .behind steady_laidTo forward_argumentName fun name => ?_
  intro cursor later argument laid run
  obtain ⟨middle, skipped⟩ := skipBy_ok argumentAction file cursor
  have reached := (forward_skipBy argumentAction).of_ok skipped
  obtain ⟨tokens, passed⟩ := reached.remaining
  change argumentRest (here.nextSpan file) name file cursor = .ok argument later at run
  rw [argumentRest_apply _ name file skipped passed.symm] at run
  by_cases empty : tokens = []
  · rw [if_pos empty] at run
    cases run
  · rw [if_neg empty] at run
    cases run
    have moved : cursor.IsBefore later := by
      have some := List.length_pos_iff.mpr empty
      rw [Cursor.IsBefore, ← passed, List.length_append]
      omega
    exact .node stands (laid.reached.trans reached) (laid.reached.moved moved)
      (List.forall_mem_nil _)

/-- The items of a list are laid out. -/
theorem ensures_listUpTo {α : Type} {item : Parser α} {tree : α → SpanTree} (close : Mark)
    (lays : Lays (fun value => [tree value]) item) :
    Ensures file (LaidPast file here row) (listUpTo close item) fun found =>
      LaidPast file here (row ++ found.map tree) := by
  let keeps (found : List α) := LaidPast file here (row ++ found.map tree)
  have rounds : Ensures file (keeps []) (loop [] (itemRound close item)) keeps := by
    refine ensures_loop (fun found => ?_) []
    refine .behind_any (fun file cursor => atMark_apply file cursor _) fun _ =>
      .ite (fun _ => ensures_pure fun _ => id) fun _ => ?_
    refine (lays.ensures.imp (fun _ laid => laid.toLaidTo) fun _ _ => id).bind fun value => ?_
    have added (later : Cursor)
        (laid : LaidPast file here (row ++ found.map tree ++ [tree value]) later) :
        keeps (found ++ [value]) later := by
      simpa [keeps] using laid
    exact .behind steady_laidPast (forward_eat .comma) fun _ =>
      .ite (fun _ => ensures_pure added) fun _ => ensures_pure added
  refine (rounds.imp (fun cursor laid => ?_) fun _ _ => id).bind fun found => ?_
  · simpa [keeps] using laid
  · exact .behind steady_laidPast (forward_expect close) fun _ => ensures_pure fun _ => id

/-- An attribute covers its arguments. -/
theorem lays_appliedAttribute : Lays (fun applied => [applied.spanTree]) appliedAttribute := by
  intro file here stands
  rw [appliedAttribute_eq]
  refine .behind_look nextSpan_apply (.starting stands ?_)
  have qualifier : Forward (do if ← atQualifier then advance; advance) :=
    Forward.behind_look (fun _ _ => rfl) fun _ =>
      .ite (forward_advance.bind fun _ => forward_advance) (forward_pure _)
  have ends (name : List String) : Ensures file (LaidPast file here [])
      ((do
        let _ ← argumentsIfAny type
        let arguments ← appliedArguments
        return ⟨← spanFrom (here.nextSpan file), name, arguments⟩) : Parser Attribute)
      fun applied => LaidPast file here [applied.spanTree] := by
    refine .behind steady_laidPast (forward_argumentsIfAny forward_type) fun _ => ?_
    have arguments : Ensures file (LaidPast file here []) appliedArguments fun found =>
        LaidPast file here (found.map AttributeArgument.spanTree) :=
      .behind steady_laidPast (forward_eat .leftParen) fun _ =>
        .ite (fun _ => ensures_listUpTo _ lays_attributeArgument) fun _ => ensures_pure fun _ => id
    exact arguments.bind fun found => ensures_spanFrom _ fun cursor laid => laid.node_row
  exact .behind steady_laidTo qualifier fun _ =>
    (Ensures.of_uses uses_dottedName forward_dottedName).bind ends

theorem forward_attributeTarget : Forward attributeTarget := by
  refine Forward.behind_look atIdent_apply fun _ => ?_
  refine Forward.behind_look (fun file cursor => secondIsMark_apply file cursor _) fun _ => ?_
  exact .ite (forward_expectIdent.bind fun _ => forward_advance.bind fun _ => forward_pure _)
    (forward_pure _)

/-- An attribute list covers its attributes. -/
theorem lays_attributeList : Lays (fun list => [list.spanTree]) attributeList := by
  intro file here stands
  refine .behind_look nextSpan_apply
    (.starting stands ((ensures_expect .leftBracket).bind fun _ => ?_))
  refine .behind steady_laidPast forward_attributeTarget fun target => ?_
  refine (ensures_listUpTo _ lays_appliedAttribute).bind fun attributes => ?_
  exact ensures_spanFrom _ fun cursor laid => laid.node_row

/-- Attribute lists are laid out one behind the other. -/
theorem ensures_attributeLists :
    Ensures file (LaidTo file here row) attributeLists fun lists =>
      LaidTo file here (row ++ lists.map AttributeList.spanTree) := by
  let keeps (found : List AttributeList) :=
    LaidTo file here (row ++ found.map AttributeList.spanTree)
  have rounds : Ensures file (keeps []) (loop [] listRound) keeps := by
    refine ensures_loop (fun found => ?_) []
    refine .behind_any (fun file cursor => atMark_apply file cursor _) fun _ =>
      .ite (fun _ => ?_) fun _ => ensures_pure fun _ => id
    refine lays_attributeList.ensures.bind fun list => ensures_pure fun later laid => ?_
    simpa [afterRound, keeps] using laid.toLaidTo
  exact rounds.imp (fun cursor laid => by simpa [keeps] using laid) fun _ _ => id

end Attributes

section Members

/-- Modifiers are words. -/
theorem ensures_modifiers :
    Ensures file (LaidTo file here row) modifiers fun words =>
      LaidTo file here (row ++ words.map Modifier.spanTree) := by
  let keeps (found : List Modifier) := LaidTo file here (row ++ found.map Modifier.spanTree)
  have rounds : Ensures file (keeps []) modifiers keeps := by
    refine ensures_loop (fun found => .of_forall fun cursor laid => ?_) []
    refine .behind_look peekName_apply ?_
    have stops : Ensures file (· = cursor) (pure (ForInStep.done found)) (afterRound keeps keeps) :=
      ensures_pure fun _ isHere => isHere ▸ laid
    cases comes : (cursor.peek? 0).bind TokenKind.ident? with
    | none => exact stops
    | some word =>
        refine .behind_any (fun file cursor => secondIsMark_apply file cursor _) fun _ =>
          .ite (fun _ => stops) fun _ => .behind_look nextSpan_apply ?_
        rintro _ later outcome rfl run
        cases run
        have isWord :=
          LaidTo.word (laid.stands.of_reaches laid.reached) (Cursor.peek?_eq_ident comes)
        simpa [afterRound, keeps, Modifier.spanTree] using laid.append isWord.toLaidTo
  exact rounds.imp (fun cursor laid => by simpa [keeps] using laid) fun _ _ => id

theorem forward_typeParameters : Forward typeParameters :=
  closes_typeParameters.forward

/-- The name of a member is the last part of what is written. -/
theorem ensures_memberName :
    Ensures file (LaidTo file here row) memberName fun found =>
      LaidPast file here (row ++ [.word found.2.1 found.1]) := by
  let keeps (found : String × Span × List String) :=
    LaidPast file here (row ++ [.word found.2.1 found.1])
  refine ensures_expectIdent.bind fun first => ?_
  show Ensures file (keeps (first.1, first.2, [])) (loop (first.1, first.2, []) _) keeps
  refine ensures_loop (fun found => ?_) (first.1, first.2, [])
  obtain ⟨name, span, parameters⟩ := found
  have goesOn (parameters : List String) : Ensures file (keeps (name, span, parameters)) (do
      if (← atMark .dot) && (← secondIsIdent) then
        advance
        let named ← expectIdent
        return ForInStep.yield (named.1, named.2, [])
      else return ForInStep.done (name, span, parameters)) (afterRound keeps keeps) := by
    refine .behind_any (fun file cursor => atMark_apply file cursor _) fun _ => ?_
    refine .behind_any secondIsIdent_apply fun _ =>
      .ite (fun _ => .behind steady_laidPast forward_advance fun _ => ?_) fun _ =>
        ensures_pure fun _ => id
    have next : Ensures file (keeps (name, span, parameters)) expectIdent fun named =>
        LaidPast file here (row ++ [.word named.2 named.1]) :=
      ensures_expectIdent.imp
        (fun _ laid => (laid.of_sublist (List.sublist_append_left _ _)).toLaidTo) fun _ _ => id
    exact next.bind fun named => ensures_pure fun _ => id
  refine .behind_any (fun file cursor => atMark_apply file cursor _) fun _ =>
    .ite (fun _ => ?_) fun _ => ?_
  · exact .behind steady_laidPast forward_typeParameters goesOn
  · exact .behind steady_laidPast (forward_pure _) goesOn

/-- The part of a method behind its return type holds its name. -/
theorem ensures_methodTail :
    Ensures file (LaidTo file here row) methodTail fun found later =>
      ∀ tail, found = some tail →
        LaidPast file here (row ++ [.word tail.nameSpan tail.name]) later := by
  refine .behind_any (fun _ _ => rfl) fun _ => .ite (fun _ => ?_) fun _ => ?_
  · exact .behind steady_laidTo forward_skipMember fun _ => ensures_pure nofun
  refine ensures_memberName.bind fun ⟨name, span, parameters⟩ => ?_
  refine .behind_any (fun file cursor => atMark_apply file cursor _) fun _ =>
    .ite (fun _ => ?_) fun _ => ?_
  · exact .behind steady_laidPast forward_skipMember fun _ => ensures_pure nofun
  refine .behind steady_laidPast forward_skipBalanced fun _ => ?_
  refine .behind steady_laidPast (forward_skipUntil _) fun _ => ?_
  have body : Repeats methodBody methodBody id := repeats_methodBody
  refine .behind steady_laidPast body.forward fun _ => ensures_pure fun later laid => ?_
  rintro tail ⟨⟩
  exact laid

/-- A method covers what stands in front of it, its return type and its name. -/
theorem ensures_method? {lists : List AttributeList} {words : List Modifier} :
    Ensures file (LaidTo file here (headTrees lists words))
      (method? (here.nextSpan file) lists words) fun found later =>
        LaidTo file here (found.map MethodDecl.spanTree).toList later := by
  intro cursor later found laid run
  have reached := (forward_method? _ lists words).of_ok run
  cases found with
  | none => exact (laid.of_sublist (List.nil_sublist _)).reach reached
  | some method =>
      rw [method?_apply] at run
      cases first : type file cursor with
      | error diagnostic middle =>
          simp only [first, bind_apply] at run
          cases skipped : skipMember file cursor <;> simp [skipped] at run
      | ok returnType middle =>
          simp only [first] at run
          cases rest : methodTail file middle with
          | error diagnostic ended => simp [rest] at run
          | ok tail ended =>
              cases tail with
              | none => simp [rest] at run
              | some tail =>
                  simp only [rest] at run
                  cases run
                  have typed := lays_type.ensures cursor middle returnType laid first
                  have named :=
                    ensures_methodTail middle later (some tail) typed.toLaidTo rest tail rfl
                  rw [List.append_assoc] at named
                  exact named.node_row.toLaidTo

variable {nested : Span → List AttributeList → List Modifier → Parser TypeDecl}

/-- A reader of type declarations lays them out, behind what it is told to stand in front of
them. -/
def LaysTypes (nested : Span → List AttributeList → List Modifier → Parser TypeDecl) : Prop :=
  ∀ (file : SourceFile) (here : Cursor) (lists : List AttributeList) (words : List Modifier),
    Ensures file (LaidTo file here (headTrees lists words))
      (nested (here.nextSpan file) lists words)
      fun decl => LaidPast file here [decl.spanTree]

/-- A member of a type is laid out if it is one that is recorded. -/
theorem ensures_typeMember (lays : LaysTypes nested) :
    Ensures file (LaidTo file here row) (typeMember nested) fun found =>
      LaidTo file here (row ++ TypeMember.spanTreesOfList found.toList) := by
  refine .of_forall fun cursor laid => ?_
  have stands := laid.stands.of_reaches laid.reached
  have read : Ensures file (· = cursor) (typeMember nested) fun found =>
      LaidTo file cursor (TypeMember.spanTreesOfList found.toList) := by
    refine .behind_look nextSpan_apply (.starting stands ?_)
    refine .behind steady_laidTo (forward_eat .semicolon) fun _ =>
      .ite (fun _ => ensures_pure fun _ => id) fun _ => ?_
    refine ensures_attributeLists.bind fun lists => ensures_modifiers.bind fun words => ?_
    refine .behind_any atTypeKeyword_apply fun _ => .ite (fun _ => ?_) fun _ => ?_
    · exact (lays file cursor lists words).bind fun decl => ensures_pure fun _ laid => laid.toLaidTo
    refine .behind_any atSkippedMember_apply fun _ => .ite (fun _ => ?_) fun _ => ?_
    · exact .behind steady_laidTo forward_skipMember fun _ =>
        ensures_pure fun _ laid => laid.of_sublist (List.nil_sublist _)
    · refine ensures_method?.bind fun found => ensures_pure fun _ laid => ?_
      cases found <;> exact laid
  exact read.imp (fun _ => id) fun found later next => laid.append next

/-- Whatever every member keeps holds behind all of them, also if some of them are skipped. -/
theorem ensures_memberLoop {α σ : Type} {atStop : Parser Bool} {member : Parser (Option α)}
    {add : σ → α → σ} {keeps : σ → Cursor → Prop} (stops : StopsAtEnd atStop)
    (forward : Forward member) (steady : ∀ state, Steady (keeps state))
    (read : ∀ state,
      Ensures file (keeps state) member fun found => keeps (addIfAny add state found))
    (state : σ) : Ensures file (keeps state) (memberLoop atStop member add state) keeps := by
  have round (state : σ) :
      Ensures file (keeps state) (memberRound atStop member add state)
        (afterRound keeps keeps) := by
    rw [memberRound_eq]
    refine .behind (steady state) stops.forward fun _ =>
      .ite (fun _ => ensures_pure fun _ => id) fun _ => ?_
    refine .behind (steady state) forward_skipFault fun _ =>
      .ite (fun _ => ensures_pure fun _ => id) fun _ => ?_
    refine .behind_any get_apply fun before => ?_
    have recovered : Ensures file (keeps state) (memberOrRecovery member before.remaining.length)
        fun found => keeps (addIfAny add state found) := by
      refine ensures_orElse (steady state) forward (read state) fun diagnostic isError => ?_
      exact .behind (steady state) (forward_record isError) fun _ =>
        .behind (steady state) (forward_recoverFrom _) fun _ => ensures_pure fun _ => id
    refine recovered.bind fun found => ?_
    exact .behind (steady _) (forward_stepIfStuck _) fun _ => ensures_pure fun _ => id
  exact ensures_loop round state

/-- The members of a type are laid out. -/
theorem ensures_typeBody (kind : TypeKind) (start : Span) {member : Parser (Option TypeMember)}
    (forward : Forward member)
    (lays : ∀ row, Ensures file (LaidTo file here row) member fun found =>
      LaidTo file here (row ++ TypeMember.spanTreesOfList found.toList)) :
    Ensures file (LaidPast file here row) (typeBody kind start member) fun members =>
      LaidPast file here (row ++ TypeMember.spanTreesOfList members) := by
  let keeps (members : List TypeMember) :=
    LaidPast file here (row ++ TypeMember.spanTreesOfList members)
  have nothing (cursor : Cursor) (laid : LaidPast file here row cursor) : keeps [] cursor := by
    simpa [keeps, TypeMember.spanTreesOfList] using laid
  have ends (members : List TypeMember) : Ensures file (keeps members)
      (eat .semicolon >>= fun _ => (pure members : Parser (List TypeMember))) keeps :=
    .behind steady_laidPast (forward_eat .semicolon) fun _ => ensures_pure fun _ => id
  have skips : Ensures file (LaidPast file here row)
      (skipBalanced >>= fun _ => (pure [] : Parser (List TypeMember)) >>= fun members =>
        eat .semicolon >>= fun _ => pure members) keeps :=
    .behind steady_laidPast forward_skipBalanced fun _ => (ensures_pure nothing).bind ends
  refine .behind steady_laidPast (forward_eat .semicolon) fun _ =>
    .ite (fun _ => ensures_pure nothing) fun _ => .ite (fun _ => ?_) fun _ => ?_
  · refine .behind_any (fun file cursor => atMark_apply file cursor _) fun _ =>
      .ite (fun _ => skips) fun _ => ?_
    exact .behind steady_laidPast (forward_failExpecting _) fun _ => skips
  · refine .behind steady_laidPast (forward_expect .leftBrace) fun _ => ?_
    have steady (members : List TypeMember) : Steady (keeps members) := steady_laidPast
    have members : Ensures file (keeps [])
        (memberLoop atBodyEnd member (fun found member => found ++ [member]) []) keeps := by
      refine ensures_memberLoop stopsAtEnd_atBodyEnd forward steady (fun members => ?_) []
      have added := (lays (row ++ TypeMember.spanTreesOfList members)).past forward
      intro cursor later found laid run
      have laid := added cursor later found laid run
      cases found with
      | none => exact laid.of_sublist (List.sublist_append_left _ _)
      | some found => simpa [addIfAny, keeps] using laid
    refine (members.imp nothing fun _ _ => id).bind fun members => ?_
    exact .behind steady_laidPast (forward_closeDeclaration start) fun _ =>
      Ensures.bind (ensures_pure fun _ => id) ends

/-- A type declaration covers what stands in front of it, its name and its members. -/
theorem laysTypes_typeDeclWithin (depth : Nat) : LaysTypes (typeDeclWithin depth) := by
  induction depth with
  | zero => exact fun _ _ _ _ => ensures_failExpecting _
  | succ depth ih =>
      intro file here lists words
      refine .behind steady_laidTo forward_typeKind fun kind => ?_
      refine ensures_expectIdent.bind fun ⟨name, nameSpan⟩ => ?_
      refine .behind steady_laidPast forward_typeHead fun parameters => ?_
      refine (ensures_typeBody kind _ (forward_typeMember _ (forward_typeDeclWithin depth))
        fun row => ensures_typeMember ih).bind fun members => ?_
      refine ensures_spanFrom _ fun cursor laid => ?_
      rw [List.append_assoc] at laid
      exact laid.node_row

end Members

section Namespaces

variable {inner : Span → Parser NamespaceDecl}

/-- A using directive covers its tokens. -/
theorem ensures_usingDirective (isGlobal : Bool) :
    Ensures file (LaidTo file here []) (usingDirective (here.nextSpan file) isGlobal)
      fun directive =>
      LaidPast file here [directive.spanTree] := by
  have ends (kind : UsingKind) : Ensures file (LaidTo file here [])
      (pure kind >>= fun kind => expect .semicolon >>= fun _ =>
        spanFrom (here.nextSpan file) >>= fun span =>
          (pure ⟨span, isGlobal, kind⟩ : Parser UsingDirective))
      fun directive => LaidPast file here [directive.spanTree] :=
    .behind steady_laidTo (forward_pure kind) fun kind => (ensures_expect .semicolon).bind fun _ =>
      ensures_spanFrom _ fun cursor laid =>
        .node laid.stands laid.reached laid.moved (List.forall_mem_nil _)
  refine .behind steady_laidTo (forward_eatWord _) fun _ => .ite (fun _ => ?_) fun _ =>
    .behind steady_laidTo (forward_failExpecting _) fun _ => ?_
  all_goals
    refine .behind steady_laidTo (forward_eatWord _) fun _ => .behind_any atIdent_apply fun _ => ?_
    refine .behind_any (fun file cursor => secondIsMark_apply file cursor _) fun _ => ?_
    refine .ite (fun _ => .behind steady_laidTo forward_type fun _ => ends _) fun _ =>
      .ite (fun _ => ?_) fun _ => ?_
    · exact .behind steady_laidTo forward_expectIdent fun _ =>
        .behind steady_laidTo forward_advance fun _ =>
          .behind steady_laidTo forward_type fun _ => ends _
    · exact .behind steady_laidTo (forward_dottedName.bind fun _ => forward_pure _) fun _ => ends _

/-- The places of an item of a namespace. -/
def NamespaceItem.spanTree : NamespaceItem → SpanTree
  | .directive found => found.spanTree
  | .member (.space decl) => decl.spanTree
  | .member (.type decl) => decl.spanTree

/-- A reader of namespaces lays them out. -/
def LaysSpaces (inner : Span → Parser NamespaceDecl) : Prop :=
  ∀ (file : SourceFile) (here : Cursor),
    Ensures file (LaidTo file here []) (inner (here.nextSpan file)) fun decl =>
      LaidPast file here [decl.spanTree]

/-- An item of a namespace is laid out if there is one. -/
theorem ensures_namespaceItem (lays : LaysSpaces inner) (stands : here.Stands file) :
    Ensures file (· = here) (namespaceItem inner) fun found =>
      LaidTo file here (found.map NamespaceItem.spanTree).toList := by
  have directive (isGlobal : Bool) : Ensures file (LaidTo file here [])
      (usingDirective (here.nextSpan file) isGlobal >>= fun directive =>
        (pure (some (.directive directive)) : Parser (Option NamespaceItem)))
      fun found => LaidTo file here (found.map NamespaceItem.spanTree).toList :=
    (ensures_usingDirective isGlobal).bind fun _ => ensures_pure fun _ laid => laid.toLaidTo
  refine .behind_look nextSpan_apply (.starting stands ?_)
  refine .behind_any (fun file cursor => atWord_apply file cursor _) fun _ => ?_
  refine .behind_any peekSecond_apply fun _ => .ite (fun _ => ?_) fun _ => ?_
  · exact .behind steady_laidTo forward_advance fun _ => directive true
  refine .behind_any (fun _ _ => rfl) fun _ => .ite (fun _ => directive false) fun _ => ?_
  refine .behind steady_laidTo (forward_eat .semicolon) fun _ =>
    .ite (fun _ => ensures_pure fun _ => id) fun _ => ?_
  refine ensures_attributeLists.bind fun lists => ?_
  have space : Ensures file (LaidTo file here ([] ++ lists.map AttributeList.spanTree))
      (inner (here.nextSpan file)) fun decl => LaidPast file here [decl.spanTree] :=
    (lays file here).imp (fun _ laid => laid.of_sublist (List.nil_sublist _)) fun _ _ => id
  refine .behind_any (fun file cursor => atWord_apply file cursor _) fun _ =>
    .ite (fun _ => ?_) fun _ => ?_
  · exact space.bind fun decl => ensures_pure fun _ laid => laid.toLaidTo
  refine ensures_modifiers.bind fun words => ?_
  refine .behind_any atTypeKeyword_apply fun _ => .ite (fun _ => ?_) fun _ => ?_
  · refine .behind_any get_apply fun before => ?_
    exact (laysTypes_typeDeclWithin _ file here lists words).bind fun decl =>
      ensures_pure fun _ laid => laid.toLaidTo
  · exact .behind steady_laidTo forward_skipMember fun _ =>
      ensures_pure fun _ laid => laid.of_sublist (List.nil_sublist _)

/-- The items of a namespace form two rows. -/
structure NamespaceBody.LaidOut (body : NamespaceBody) (file : SourceFile) (here cursor : Cursor) :
    Prop where
  usings : LaidTo file here (body.usings.map UsingDirective.spanTree) cursor
  members : LaidTo file here (NamespaceMember.spanTreesOfList body.members) cursor

theorem NamespaceBody.steady_laidOut (body : NamespaceBody) :
    Steady (body.LaidOut file here) :=
  fun _ _ laid reached => ⟨laid.usings.reach reached, laid.members.reach reached⟩

/-- An item is laid out in the row of its sort. -/
theorem NamespaceBody.LaidOut.add {body : NamespaceBody} {cursor later : Cursor}
    (laid : body.LaidOut file here cursor) {item : NamespaceItem}
    (next : LaidTo file cursor [item.spanTree] later) :
    (body.add item).LaidOut file here later := by
  cases item with
  | directive directive =>
      refine ⟨?_, laid.members.reach next.reached⟩
      simpa [NamespaceBody.add, NamespaceItem.spanTree] using laid.usings.append next
  | member member =>
      refine ⟨laid.usings.reach next.reached, ?_⟩
      cases member <;>
        simpa [NamespaceBody.add, NamespaceMember.spanTreesOfList,
          NamespaceItem.spanTree] using laid.members.append next

/-- The items of a namespace are laid out. -/
theorem ensures_namespaceBody (isBraced : Bool) (forward : ∀ start, Forward (inner start))
    (lays : LaysSpaces inner) :
    Ensures file (LaidTo file here []) (namespaceBody isBraced inner) fun body =>
      body.LaidOut file here := by
  have items (body : NamespaceBody) : Ensures file (body.LaidOut file here) (namespaceItem inner)
      fun found => (addIfAny NamespaceBody.add body found).LaidOut file here := by
    refine .of_forall fun cursor laid => ?_
    have stands := laid.usings.stands.of_reaches laid.usings.reached
    refine (ensures_namespaceItem lays stands).imp (fun _ => id) fun found later next => ?_
    cases found with
    | none => exact body.steady_laidOut cursor later laid next.reached
    | some item => exact laid.add next
  have nothing (cursor : Cursor) (laid : LaidTo file here [] cursor) :
      (NamespaceBody.mk [] []).LaidOut file here cursor := ⟨laid, laid⟩
  refine .ite (fun _ => ?_) fun _ => ?_
  · exact (ensures_memberLoop stopsAtEnd_atBodyEnd (forward_namespaceItem forward)
      NamespaceBody.steady_laidOut items _).imp nothing fun _ _ => id
  · refine (ensures_memberLoop stopsAtEnd_atEnd (forward_openItem forward)
      NamespaceBody.steady_laidOut (fun body => ?_) _).imp nothing fun _ _ => id
    exact .behind body.steady_laidOut forward_skipStrayBrace fun _ =>
      .ite (fun _ => ensures_pure fun _ => id) fun _ => items body

/-- A namespace covers its using directives and its members. -/
theorem laysSpaces_namespaceDeclWithin (depth : Nat) : LaysSpaces (namespaceDeclWithin depth) := by
  induction depth with
  | zero => exact fun _ _ => ensures_failExpecting _
  | succ depth ih =>
      intro file here
      rw [namespaceDeclWithin_eq]
      refine .behind steady_laidTo forward_advance fun _ => ?_
      refine (Ensures.of_uses uses_dottedName forward_dottedName).bind fun parts => ?_
      let passed (body : NamespaceBody) (cursor : Cursor) : Prop :=
        body.LaidOut file here cursor ∧ here.IsBefore cursor
      have steady (body : NamespaceBody) : Steady (passed body) := fun cursor later kept reached =>
        ⟨body.steady_laidOut cursor later kept.1 reached, kept.2.of_reaches reached⟩
      have forward := forward_namespaceDeclWithin depth
      have items (isBraced : Bool) : Ensures file (LaidPast file here [])
          (namespaceBody isBraced (namespaceDeclWithin depth)) passed :=
        fun cursor later body laid run =>
          ⟨ensures_namespaceBody isBraced forward ih cursor later body laid.toLaidTo run,
            laid.moved.of_reaches ((forward_namespaceBody isBraced forward).of_ok run)⟩
      have ends (isFileScoped : Bool) (name : String) (body : NamespaceBody) :
          Ensures file (passed body) (spanFrom (here.nextSpan file) >>= fun span =>
              (pure ⟨span, name, isFileScoped, body.usings, body.members⟩ : Parser NamespaceDecl))
            fun decl => LaidPast file here [decl.spanTree] := by
        refine ensures_spanFrom _ fun cursor ⟨laid, moved⟩ => ?_
        refine .node laid.usings.stands laid.usings.reached moved ?_
        exact List.forall_mem_cons.mpr ⟨laid.usings, List.forall_mem_singleton.mpr laid.members⟩
      refine .behind steady_laidPast (forward_eat .semicolon) fun _ =>
        .ite (fun _ => ?_) fun _ => ?_
      · exact (items false).bind fun body => ends _ _ body
      · refine .behind steady_laidPast (forward_expect .leftBrace) fun _ => ?_
        refine (items true).bind fun body => ?_
        exact .behind (steady body) (forward_closeDeclaration _) fun _ =>
          .behind (steady body) (forward_eat .semicolon) fun _ => ends _ _ body

end Namespaces

end Parser

end ErrorAccessors
