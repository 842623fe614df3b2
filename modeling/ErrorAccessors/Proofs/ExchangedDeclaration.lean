/-
# Type declarations with exchanged return types

A type declaration is read as it was, with the return types of the methods in it
exchanged: first loops over members, which step on where reading is stuck, then
bodies, then whole declarations by their nesting.

The readers of declarations are given a depth that bounds how deep declarations
nest, and the depth that suffices is another one for another text.  Every level
uses up a token, so a reader follows where fewer tokens are left than its depth.
-/

import ErrorAccessors.Proofs.ExchangedMember

namespace ErrorAccessors

namespace Parser

variable {α β σ τ ι : Type} {exchange : Exchange} {bound : ι → Nat}

section MemberLoops

variable {atStop : Parser Bool} {member : Parser (Option α)} {memberAgain : ι → Parser (Option α)}
  {add : σ → α → σ}

/-- Reading a member, recovering or stepping on where that is not possible. -/
def nextMember (member : Parser (Option α)) : Parser (Option α) := do
  let before := (← get).remaining.length
  let read ← memberOrRecovery member before
  stepIfStuck before
  return read

theorem memberRound_eq_nextMember (state : σ) :
    memberRound atStop member add state = (do
      if ← atStop then return .done state
      else if ← skipFault then return .yield state
      else
        let read ← nextMember member
        return .yield (addIfAny add state read)) := by
  simp only [memberRound_eq, nextMember, bind_assoc, pure_bind]

/-- Where reading goes on behind a member that has been read. -/
private def behindMember (cursor reached : Cursor) : Cursor :=
  if reached.remaining.length = cursor.remaining.length then reached.advance else reached

private theorem nextMember_of_ok {file : SourceFile} {cursor reached : Cursor} {read : Option α}
    (run : member file cursor = .ok read reached) :
    nextMember member file cursor = .ok read (behindMember cursor reached) := by
  simp only [nextMember, bind_apply, get_apply, memberOrRecovery, orElse, run, stepIfStuck,
    behindMember, ite_run, advance_apply, pure_apply]
  by_cases stuck : reached.remaining.length = cursor.remaining.length
  · simp only [if_pos stuck]
  · simp only [if_neg stuck]

private theorem forward_nextMember (forward : Forward member) : Forward (nextMember member) :=
  Forward.behind_look get_apply fun _ => (forward_memberOrRecovery forward _).bind fun _ =>
    (forward_stepIfStuck _).bind fun _ => forward_pure _

/-- Without a diagnostic, a member has been read. -/
private theorem ok_of_nextMember (forward : Forward member) {file : SourceFile}
    {cursor later : Cursor} {read : Option α} (run : nextMember member file cursor = .ok read later)
    (silent : later.recorded = cursor.recorded) :
    ∃ reached, member file cursor = .ok read reached ∧ later = behindMember cursor reached := by
  cases first : member file cursor with
  | ok value reached =>
      rw [nextMember_of_ok first] at run
      cases run
      exact ⟨reached, rfl, rfl⟩
  | error diagnostic reached =>
      let reported : Cursor := { reached with recorded := reached.recorded ++ [diagnostic] }
      let recovery : Parser (Option α) := do
        recoverFrom cursor.remaining.length
        return none
      have recovered : (recovery >>= fun read => do
          stepIfStuck cursor.remaining.length
          return read) file reported = .ok read later := by
        rw [← run]
        simp only [nextMember, bind_apply, get_apply, memberOrRecovery, orElse, first,
          record_apply, recovery, reported]
      have onward : Forward recovery := (forward_recoverFrom _).bind fun _ => forward_pure none
      have reachesEnd := (onward.bind fun read => (forward_stepIfStuck _).bind fun _ =>
        forward_pure read).of_ok recovered
      have before := (forward.of_error first).1.recorded.length_le
      have behind := reachesEnd.recorded.length_le
      rw [silent, List.length_append, List.length_singleton] at behind
      omega

/-- Stepping on, if reading is stuck. -/
private def stepIf (stuck : Bool) : Parser Unit :=
  if stuck then advance else pure ()

private theorem repeats_stepIf (stuck : Bool) : Repeats (stepIf stuck) (stepIf stuck) id := by
  cases stuck with
  | true => exact repeats_advance
  | false => exact repeats_pure rfl

private theorem stepIf_apply (file : SourceFile) (cursor reached : Cursor) :
    stepIf (decide (reached.remaining.length = cursor.remaining.length)) file reached =
      .ok () (behindMember cursor reached) := by
  rw [stepIf, behindMember]
  by_cases stuck : reached.remaining.length = cursor.remaining.length
  · simp [stuck]
  · simp [stuck]

/-- If a member is followed, so is a member behind which reading steps on where it is
stuck. -/
private theorem follows_nextMember {regard : Regard (Option α) β}
    (follows : Follows exchange bound anyValue member memberAgain [] regard) :
    Follows exchange bound anyValue (nextMember member)
      (fun context => nextMember (memberAgain context)) [] regard := by
  refine ⟨forward_nextMember follows.forward, fun file cursor later read run silent _ => ?_⟩
  obtain ⟨reached, first, rfl⟩ := ok_of_nextMember follows.forward run silent
  have stepped := stepIf_apply file cursor reached
  obtain ⟨silentFirst, silentStep⟩ := (follows.forward.of_ok first).recorded_eq
    ((repeats_stepIf _).forward.of_ok stepped) silent
  obtain ⟨front, passed, placed, found, leads, carried⟩ :=
    follows.carried file cursor reached read first silentFirst trivial
  obtain ⟨rear, passedStep, stepAgain⟩ :=
    (repeats_stepIf _).rereads file reached _ () stepped silentStep trivial
  refine ⟨front ++ [.other rear], ?_,
    .append (by simpa [Stretch.tokens, passedStep] using placed)
      (Stretch.arePlaced_other rear _), ?_,
    leads.append (leads_other passedStep), ?_⟩
  · rw [passed, passedStep]
    simp [Stretch.tokens]
  · rw [found]
    simp [Stretch.methodsOf, Stretch.method?]
  intro context other previous copies rest recorded rewritten within inFront
  obtain ⟨copiesFront, copiesRear, rfl, rewrittenFront, rewrittenRear⟩ := rewritten.of_append
  rw [Token.lastOf_append] at inFront ⊢
  rw [List.append_assoc] at within ⊢
  obtain ⟨read', same, runAgain⟩ := carried context other previous copiesFront (copiesRear ++ rest)
    recorded rewrittenFront within
    ((leads_other passedStep) other _ copiesRear rest recorded rewrittenRear inFront)
  refine ⟨read', same, ?_⟩
  show nextMember (memberAgain context) other _ = _
  rw [nextMember_of_ok runAgain]
  -- nothing has been read here if nothing has been read there
  have stuck : decide ((copiesRear ++ rest).length = (copiesFront ++ (copiesRear ++ rest)).length) =
      decide (reached.remaining.length = cursor.remaining.length) := by
    have nothing (first second : List Token) :
        second.length = (first ++ second).length ↔ first = [] := by simp
    rw [decide_eq_decide, passed, nothing, nothing]
    exact rewrittenFront.eq_nil_iff
  obtain ⟨_, -, steps⟩ := stepAgain other _ copiesRear rest recorded rewrittenRear.of_other inFront
  have alsoSteps := stepIf_apply other ⟨previous, copiesFront ++ (copiesRear ++ rest), recorded⟩
    ⟨Token.lastOf previous copiesFront, copiesRear ++ rest, recorded⟩
  rw [stuck, steps, EStateM.Result.ok.injEq] at alsoSteps
  rw [← alsoSteps.2]

/-- How what has been read changes what is regarded of a state. -/
structure AddsTo (add : σ → α → σ) (regard : Regard σ τ) (ofMember : Regard (Option α) β) :
    Prop where
  same : ∀ state state' read read', regard.view state' = regard.after state →
    ofMember.view read' = ofMember.after read →
      regard.view (addIfAny add state' read') = regard.after (addIfAny add state read)
  found : ∀ state read, regard.found (addIfAny add state read) =
    regard.found state ++ ofMember.found read

/-- Going through members is followed if each member is. -/
theorem follows_memberLoop {regard : Regard σ τ} {ofMember : Regard (Option α) β}
    (stops : StopsAtEnd atStop) (stopRepeats : Repeats atStop atStop id)
    (follows : Follows exchange bound anyValue member memberAgain [] ofMember)
    (forwardAgain : ∀ context, Forward (memberAgain context)) (adds : AddsTo add regard ofMember)
    {state : σ} {started : ι → σ}
    (same : ∀ context, regard.view (started context) = regard.after state) :
    Follows exchange bound anyValue (memberLoop atStop member add state)
      (fun context => memberLoop atStop (memberAgain context) add (started context))
      (regard.found state) regard := by
  refine follows_loop (progresses_memberRound stops follows.forward)
    (fun context => progresses_memberRound stops (forwardAgain context)) (fun state => ?_) same
  show Follows exchange _ anyValue (memberRound atStop member add state)
    (fun context : Continued ι regard.view (regard.after state) =>
      memberRound atStop (memberAgain context.context) add context.value) _ _
  simp only [memberRound_eq_nextMember]
  refine .behind_same stopRepeats fun stop => .ite (fun _ => ?_) fun _ => ?_
  · exact follows_pure (fun _ among => congrArg ForInStep.done among.same) fun _ => rfl
  refine .behind_same repeats_skipFault fun fault => .ite (fun _ => ?_) fun _ => ?_
  · exact follows_pure (fun _ among => congrArg ForInStep.yield among.same) fun _ => rfl
  have next := (follows_nextMember follows).behind_found (regard.found state)
  refine (next.mono (fun _ => id) fun among _ => ⟨among.context, rfl, Nat.le_refl _⟩).bind
    fun read => follows_pure (fun _ among => ?_) fun _ => adds.found state read
  exact congrArg ForInStep.yield (adds.same state among.context.value read among.value
    among.context.same among.same)

end MemberLoops

section TypeDeclarations

variable (exchange) in
/-- What is regarded of the members of a type. -/
def membersRegard : Regard (List TypeMember) (List TypeMember) :=
  exchange.regard TypeMember.unplacedListWith TypeMember.methodsOfList

private theorem addsTo_members :
    AddsTo (fun found member => found ++ [member]) (membersRegard exchange)
      (memberRegard exchange) := by
  refine ⟨fun found found' read read' same sameRead => ?_, fun found read => ?_⟩
  · simp only [membersRegard, memberRegard, Exchange.regard,
      TypeMember.unplacedListWith_eq_map] at same sameRead ⊢
    cases read with
    | none =>
        obtain rfl := Option.map_eq_none_iff.mp sameRead
        exact same
    | some member =>
        obtain ⟨member', rfl, sameMember⟩ := Option.map_eq_some_iff.mp sameRead
        simp only [addIfAny, List.map_append, List.map_cons, List.map_nil, same, sameMember]
  · cases read with
    | none =>
        simp [membersRegard, memberRegard, Exchange.regard, addIfAny, TypeMember.methodsOfList]
    | some member =>
        simp [membersRegard, memberRegard, Exchange.regard, addIfAny,
          TypeMember.methodsOfList_append]

theorem follows_typeBody (kind : TypeKind) (start : Span) (startAgain : ι → Span)
    {member : Parser (Option TypeMember)} {memberAgain : ι → Parser (Option TypeMember)}
    (follows : Follows exchange bound anyValue member memberAgain [] (memberRegard exchange))
    (forwardAgain : ∀ context, Forward (memberAgain context)) :
    Follows exchange bound anyValue (typeBody kind start member)
      (fun context => typeBody kind (startAgain context) (memberAgain context)) []
      (membersRegard exchange) := by
  have given {κ : Type} {bound : κ → Nat} {members : List TypeMember} {again : κ → List TypeMember}
      (same : ∀ context, (membersRegard exchange).view (again context) =
        (membersRegard exchange).after members) :
      Follows exchange bound anyValue (pure members : Parser (List TypeMember))
        (fun context => pure (again context)) ((membersRegard exchange).found members)
        (membersRegard exchange) := follows_pure (fun _ => same) fun _ => rfl
  have nothing {κ : Type} {bound : κ → Nat} : Follows exchange bound anyValue
      (pure [] : Parser (List TypeMember)) (fun _ : κ => pure []) [] (membersRegard exchange) :=
    given fun _ => rfl
  have ends {κ : Type} {bound : κ → Nat} {members : List TypeMember} {again : κ → List TypeMember}
      (same : ∀ context, (membersRegard exchange).view (again context) =
        (membersRegard exchange).after members) :
      Follows exchange bound anyValue
        (eat .semicolon >>= fun _ => (pure members : Parser (List TypeMember)))
        (fun context => eat .semicolon >>= fun _ => pure (again context))
        ((membersRegard exchange).found members) (membersRegard exchange) :=
    .behind_same (repeats_eat .semicolon) fun _ => given same
  have skips : Repeats skipBalanced skipBalanced id := repeats_skipBalanced
  have skipped {κ : Type} {bound : κ → Nat} : Follows exchange bound anyValue
      (skipBalanced >>= fun _ => (pure [] : Parser (List TypeMember)) >>= fun members =>
        eat .semicolon >>= fun _ => pure members)
      (fun _ : κ => skipBalanced >>= fun _ =>
        (pure [] : Parser (List TypeMember)) >>= fun members =>
        eat .semicolon >>= fun _ => pure members) [] (membersRegard exchange) :=
    .behind_same skips fun _ => nothing.bind fun _ => ends fun among => among.same
  refine .behind_same (repeats_eat .semicolon) fun _ => .ite (fun _ => nothing) fun _ => ?_
  refine .ite (fun _ => ?_) fun _ => ?_
  · refine .behind_same (repeats_atMark .leftBrace) fun _ => .ite (fun _ => skipped) fun _ => ?_
    exact .behind_same (repeats_failExpecting _) fun _ => skipped
  · refine .behind_same (repeats_expect .leftBrace) fun _ => ?_
    refine (follows_memberLoop stopsAtEnd_atBodyEnd repeats_atBodyEnd follows forwardAgain
      addsTo_members fun _ => rfl).bind fun members => ?_
    refine .behind (forward_closeDeclaration start)
      (fun among => repeats_closeDeclaration start (startAgain among.context)) fun _ => ?_
    exact (given fun among => among.context.same).bind fun _ => ends fun among => among.same

/-- A type declaration behind its name. -/
private def declRest (kind : TypeKind) (named : String × Span) (start : Span)
    (lists : List AttributeList) (words : List Modifier) (member : Parser (Option TypeMember)) :
    Parser TypeDecl := do
  let parameters ← typeHead
  let members ← typeBody kind start member
  return ⟨← spanFrom start, kind, named.1, named.2, parameters, lists, words, members⟩

private theorem typeDeclWithin_eq (depth : Nat) (start : Span) (lists : List AttributeList)
    (words : List Modifier) :
    typeDeclWithin (depth + 1) start lists words = (do
      let kind ← typeKind
      let named ← expectIdent
      declRest kind named start lists words (typeMember (typeDeclWithin depth))) := rfl

private theorem follows_declRest (kind : TypeKind) (named : String × Span) (start : Span)
    {lists : List AttributeList} {words : List Modifier} {member : Parser (Option TypeMember)}
    {memberAgain : ι → Parser (Option TypeMember)} (declared : ι → Declared α lists words)
    {namedAgain : ι → String × Span} (sameName : ∀ context, (namedAgain context).1 = named.1)
    (follows : Follows exchange bound anyValue member memberAgain [] (memberRegard exchange))
    (forwardAgain : ∀ context, Forward (memberAgain context)) :
    Follows exchange bound anyValue (declRest kind named start lists words member)
      (fun context => declRest kind (namedAgain context) (declared context).start
        (declared context).lists' (declared context).words' (memberAgain context)) []
      (declRegard exchange) := by
  refine .behind_same repeats_typeHead fun parameters => ?_
  refine (follows_typeBody kind start (fun context => (declared context).start) follows
    forwardAgain).bind fun members => ?_
  refine .behind (settles_spanFrom start start).forward
    (fun among => (settles_spanFrom start (declared among.context).start).repeats) fun _ => ?_
  refine follows_pure (fun _ among => ?_) fun _ => ?_
  · have members : TypeMember.unplacedListWith MethodDecl.unplaced among.context.value =
        TypeMember.unplacedListWith (fun method => (method.exchanged exchange).unplaced) members :=
      among.context.same
    simp only [declRegard, Exchange.regard, TypeDecl.unplacedWith, sameName,
      (declared among.context.context).sameLists, members,
      Modifier.map_unplaced (declared among.context.context).sameWords]
  · simp only [declRegard, membersRegard, Exchange.regard, TypeDecl.methods]

/-- A type declaration is read as it was, with the return types in it exchanged. -/
theorem nestedFollow_typeDeclWithin (fits : exchange.Fits) (depth : Nat) (depthOf : ι → Nat) :
    NestedFollow exchange depthOf (typeDeclWithin depth)
      (fun context => typeDeclWithin (depthOf context)) := by
  induction depth generalizing ι with
  | zero => exact fun _ _ _ => follows_failExpecting _
  | succ depth ih =>
  intro start lists words
  let less (among : Declared ι lists words) : Nat := depthOf among.context - 1
  have behind (kind : TypeKind) (named : String × Span) :
      Follows exchange
        (fun among : Continued (Declared ι lists words) Prod.fst named.1 => less among.context)
          anyValue
        (declRest kind named start lists words (typeMember (typeDeclWithin depth)))
        (fun among => declRest kind among.value among.context.start among.context.lists'
          among.context.words' (typeMember (typeDeclWithin (less among.context))))
        [] (declRegard exchange) := by
    let Named := Continued (Declared ι lists words) (Prod.fst : String × Span → String) named.1
    have nested : NestedFollow exchange (fun among : Named => less among.context)
        (typeDeclWithin depth) (fun among => typeDeclWithin (less among.context)) := ih _
    exact follows_declRest kind named start Continued.context
      (fun among => among.same) (follows_typeMember fits nested)
      fun among => forward_typeMember _ (forward_typeDeclWithin _)
  have named {κ : Type} {bound : κ → Nat} : Follows exchange bound anyValue expectIdent
      (fun _ : κ => expectIdent) [] (.same Prod.fst []) :=
    follows_of_repeats forward_expectIdent fun _ => repeats_expectIdent
  have level (kind : TypeKind) : Follows exchange
      (fun among : Declared ι lists words => depthOf among.context) anyValue
      (do declRest kind (← expectIdent) start lists words (typeMember (typeDeclWithin depth)))
      (fun among => do
        declRest kind (← expectIdent) among.start among.lists' among.words'
          (typeMember (typeDeclWithin (less among)))) [] (declRegard exchange) :=
    named.bind_within (behind kind)
      (.inr ⟨uses_expectIdent, fun among => Nat.le_add_of_sub_le (Nat.le_refl _)⟩)
  refine (Follows.behind_same repeats_typeKind level).mono (fun _ => id) fun among some =>
    ⟨among, ?_, Nat.le_refl _⟩
  rw [← typeDeclWithin_eq, Nat.sub_add_cancel some]

end TypeDeclarations

end Parser

end ErrorAccessors
