/-
# The outline of a text with exchanged return types and bodies

What is read of a text in which return types have been exchanged and bodies replaced is
the outline that was read before, with these return types exchanged.  Namespaces nest like
types do.  The reader of a type in a namespace starts from a depth of its own, which
is one more than the tokens that are left there.
-/

import ErrorAccessors.Proofs.ExchangedDeclaration

namespace ErrorAccessors

section Views

variable (left : MethodDecl → MethodDecl)

/-- An item of a namespace without its places, given what is left of a method. -/
def Parser.NamespaceItem.unplacedWith : Parser.NamespaceItem → Parser.NamespaceItem
  | .directive found => .directive found.unplaced
  | .member found => .member (found.unplacedWith left)

/-- The methods in an item of a namespace. -/
def Parser.NamespaceItem.methods : Parser.NamespaceItem → List MethodDecl
  | .directive _ => []
  | .member found => NamespaceMember.methodsOfList [found]

/-- What a namespace holds without its places, given what is left of a method. -/
def Parser.NamespaceBody.unplacedWith (body : Parser.NamespaceBody) : Parser.NamespaceBody where
  usings := body.usings.map UsingDirective.unplaced
  members := NamespaceMember.unplacedListWith left body.members

/-- The methods in what a namespace holds. -/
def Parser.NamespaceBody.methods (body : Parser.NamespaceBody) : List MethodDecl :=
  NamespaceMember.methodsOfList body.members

end Views

namespace Parser

variable {α ι : Type} {exchange : Exchange} {bound : ι → Nat}

section Regards

variable (exchange)

/-- What is regarded of a namespace. -/
def spaceRegard : Regard NamespaceDecl NamespaceDecl :=
  exchange.regard NamespaceDecl.unplacedWith NamespaceDecl.methods

/-- What is regarded of an item of a namespace, if there is one. -/
def itemRegard : Regard (Option NamespaceItem) (Option NamespaceItem) :=
  exchange.regard (fun left => Option.map (NamespaceItem.unplacedWith left))
    fun item => item.toList.flatMap NamespaceItem.methods

/-- What is regarded of what a namespace holds. -/
def bodyRegard : Regard NamespaceBody NamespaceBody :=
  exchange.regard NamespaceBody.unplacedWith NamespaceBody.methods

end Regards

private theorem addsTo_items :
    AddsTo NamespaceBody.add (bodyRegard exchange) (itemRegard exchange) := by
  refine ⟨fun body body' read read' same sameRead => ?_, fun body read => ?_⟩
  · simp only [bodyRegard, itemRegard, Exchange.regard, NamespaceBody.unplacedWith,
      NamespaceMember.unplacedListWith_eq_map, NamespaceBody.mk.injEq] at same sameRead ⊢
    cases read with
    | none =>
        obtain rfl := Option.map_eq_none_iff.mp sameRead
        exact same
    | some item =>
        obtain ⟨item', rfl, sameItem⟩ := Option.map_eq_some_iff.mp sameRead
        cases item with
        | directive directive =>
            cases item' with
            | member member' => cases sameItem
            | directive directive' =>
                have agree : directive'.unplaced = directive.unplaced :=
                  NamespaceItem.directive.inj sameItem
                simp only [addIfAny, NamespaceBody.add, List.map_append, List.map_cons,
                  List.map_nil, same, agree, and_self]
        | member member =>
            cases item' with
            | directive directive' => cases sameItem
            | member member' =>
                have agree := NamespaceItem.member.inj sameItem
                simp only [addIfAny, NamespaceBody.add, List.map_append, List.map_cons,
                  List.map_nil, same, agree, and_self]
  · cases read with
    | none => simp [bodyRegard, itemRegard, Exchange.regard, addIfAny]
    | some item =>
        cases item with
        | directive directive =>
            simp [bodyRegard, itemRegard, Exchange.regard, addIfAny, NamespaceBody.add,
              NamespaceBody.methods, NamespaceItem.methods]
        | member member =>
            simp [bodyRegard, itemRegard, Exchange.regard, addIfAny, NamespaceBody.add,
              NamespaceBody.methods, NamespaceItem.methods, NamespaceMember.methodsOfList_append]

section Items

/-- Whether a directive for all files comes next. -/
private def atGlobalUsing : Parser Bool := do
  return (← atWord "global") && ((← peekSecond).any fun kind => kind.isWord "using")

private theorem repeats_atGlobalUsing : Repeats atGlobalUsing atGlobalUsing id := by
  refine repeats_of_second (fun next => next.bind TokenKind.ident? == some "global")
    (fun next => next.any fun kind => kind.isWord "using")
    (fun next isGlobal => further_of_ident ?_) fun file cursor => rfl
  rw [eq_of_beq isGlobal]
  rfl

/-- A type declaration, with a depth that is enough for it. -/
private def typeDeclHere (start : Span) (lists : List AttributeList) (words : List Modifier) :
    Parser TypeDecl := do
  typeDeclWithin ((← get).remaining.length + 1) start lists words

private theorem forward_typeDeclHere (start : Span) (lists : List AttributeList)
    (words : List Modifier) : Forward (typeDeclHere start lists words) :=
  Forward.behind_look get_apply fun _ => forward_typeDeclWithin _ start lists words

private theorem namespaceItem_eq (inner : Span → Parser NamespaceDecl) :
    namespaceItem inner = (do
      let start ← nextSpan
      if ← atGlobalUsing then
        advance
        return some (.directive (← usingDirective start true))
      else if ← atUsingDirective then
        return some (.directive (← usingDirective start false))
      else if ← eat .semicolon then return none
      else
        let lists ← attributeLists
        if ← atWord "namespace" then return some (.member (.space (← inner start)))
        else
          let words ← modifiers
          if ← atTypeKeyword then
            return some (.member (.type (← typeDeclHere start lists words)))
          else
            skipMember
            return none) := by
  simp only [namespaceItem, atGlobalUsing, typeDeclHere, bind_assoc, pure_bind]

/-- A depth that is enough for a type here is enough for it elsewhere. -/
private theorem follows_typeDeclHere (fits : exchange.Fits) (start : Span)
    (lists : List AttributeList) (words : List Modifier) :
    Follows exchange (fun among : Declared ι lists words => bound among.context) anyValue
      (typeDeclHere start lists words)
      (fun among => typeDeclHere among.start among.lists' among.words') []
        (declRegard exchange) := by
  refine ⟨forward_typeDeclHere start lists words, fun file cursor later decl run silent _ => ?_⟩
  obtain ⟨stretches, passed, placed, found, leads, carried⟩ :=
    (nestedFollow_typeDeclWithin fits (cursor.remaining.length + 1) (Prod.snd : ι × Nat → Nat)
      start lists words).carried file cursor later decl run silent trivial
  refine ⟨stretches, passed, placed, found, leads, ?_⟩
  intro among other previous copies rest recorded rewritten _ inFront
  exact carried ⟨(among.context, (copies ++ rest).length + 1), among.start, among.lists',
    among.words', among.sameLists, among.sameWords⟩ other previous copies rest recorded rewritten
    (Nat.lt_succ_self _) inFront

/-- The readers of nested namespaces follow in every context. -/
def SpaceFollow (exchange : Exchange) (bound : ι → Nat) (inner : Span → Parser NamespaceDecl)
    (again : ι → Span → Parser NamespaceDecl) : Prop :=
  ∀ start, Follows exchange (fun among : ι × Span => bound among.1) anyValue (inner start)
    (fun among => again among.1 among.2) [] (spaceRegard exchange)

variable {inner : Span → Parser NamespaceDecl} {innerAgain : ι → Span → Parser NamespaceDecl}

private theorem follows_namespaceItem (fits : exchange.Fits)
    (follow : SpaceFollow exchange bound inner innerAgain) :
    Follows exchange bound anyValue (namespaceItem inner)
      (fun context => namespaceItem (innerAgain context)) [] (itemRegard exchange) := by
  have nothing {κ : Type} {bound : κ → Nat} : Follows exchange bound anyValue
      (pure none : Parser (Option NamespaceItem)) (fun _ : κ => pure none) []
      (itemRegard exchange) := follows_pure (fun _ _ => rfl) fun _ => rfl
  simp only [namespaceItem_eq]
  have directive {κ : Type} {bound : κ → Nat} (start : Span) (startAgain : κ → Span)
      (isGlobal : Bool) : Follows exchange bound anyValue
        (usingDirective start isGlobal >>= fun read =>
          (pure (some (.directive read)) : Parser (Option NamespaceItem)))
        (fun context => usingDirective (startAgain context) isGlobal >>= fun read =>
          pure (some (.directive read))) [] (itemRegard exchange) := by
    refine .behind (closes_usingDirective start start isGlobal).forward
      (fun context => (closes_usingDirective start (startAgain context) isGlobal).repeats)
      fun read => follows_pure (fun _ among => ?_) fun _ => rfl
    exact congrArg (fun read => some (NamespaceItem.directive read)) among.same
  have advances : Repeats advance advance id := repeats_advance
  refine .behind settles_nextSpan.forward (fun _ => settles_nextSpan.repeats) fun start => ?_
  refine .behind_same repeats_atGlobalUsing fun _ => .ite (fun _ => ?_) fun _ => ?_
  · exact .behind_same advances fun _ => directive start Continued.value true
  refine .behind_same repeats_atUsingDirective fun _ => .ite (fun _ => ?_) fun _ => ?_
  · exact directive start Continued.value false
  refine .behind_same (repeats_eat .semicolon) fun _ => .ite (fun _ => nothing) fun _ => ?_
  refine .behind forward_attributeLists (fun _ => repeats_attributeLists) fun lists => ?_
  refine .behind_same (repeats_atWord "namespace") fun _ => .ite (fun _ => ?_) fun _ => ?_
  · refine Follows.bind ((follow start).mono (fun _ => id) fun among _ =>
      ⟨(among.context.context, among.context.value), rfl, Nat.le_refl _⟩) fun decl => ?_
    refine follows_pure (fun _ among => ?_) fun _ => ?_
    · exact congrArg (fun decl => some (NamespaceItem.member (.space decl))) among.same
    · simp [itemRegard, spaceRegard, Exchange.regard, NamespaceItem.methods,
        NamespaceMember.methodsOfList]
  refine .behind forward_modifiers (fun _ => repeats_modifiers) fun words => ?_
  refine .behind_same repeats_atTypeKeyword fun _ => .ite (fun _ => ?_) fun _ => ?_
  · refine Follows.bind ((follows_typeDeclHere fits start lists words).mono (fun _ => id)
      fun among _ => ⟨⟨among.context.context.context, among.context.context.value,
        among.context.value, among.value, among.context.same, among.same⟩, rfl, Nat.le_refl _⟩)
      fun decl => ?_
    refine follows_pure (fun _ among => ?_) fun _ => ?_
    · exact congrArg (fun decl => some (NamespaceItem.member (.type decl))) among.same
    · simp [itemRegard, declRegard, Exchange.regard, NamespaceItem.methods,
        NamespaceMember.methodsOfList]
  · exact .behind_same repeats_skipMember fun _ => nothing

end Items

section Namespaces

variable {inner : Span → Parser NamespaceDecl} {innerAgain : ι → Span → Parser NamespaceDecl}

private theorem follows_namespaceBody (fits : exchange.Fits) (isBraced : Bool)
    (follow : SpaceFollow exchange bound inner innerAgain)
    (forwardAgain : ∀ context start, Forward (innerAgain context start)) :
    Follows exchange bound anyValue (namespaceBody isBraced inner)
      (fun context => namespaceBody isBraced (innerAgain context)) [] (bodyRegard exchange) := by
  have items := follows_namespaceItem fits follow
  have openItems : Follows exchange bound anyValue (openItem inner)
      (fun context => openItem (innerAgain context)) [] (itemRegard exchange) :=
    .behind_same repeats_skipStrayBrace fun _ =>
      .ite (fun _ => follows_pure (fun _ _ => rfl) fun _ => rfl) fun _ => items
  refine .ite (fun _ => ?_) fun _ => ?_
  · exact follows_memberLoop stopsAtEnd_atBodyEnd repeats_atBodyEnd items
      (fun context => forward_namespaceItem (forwardAgain context)) addsTo_items fun _ => rfl
  · exact follows_memberLoop stopsAtEnd_atEnd repeats_atEnd openItems
      (fun context => forward_openItem (forwardAgain context)) addsTo_items fun _ => rfl

private theorem follows_spaceRest (fits : exchange.Fits) (start : Span) (name : String)
    (startAgain : ι → Span) (follow : SpaceFollow exchange bound inner innerAgain)
    (forwardAgain : ∀ context start, Forward (innerAgain context start)) :
    Follows exchange bound anyValue (spaceRest start name inner)
      (fun context => spaceRest (startAgain context) name (innerAgain context)) []
      (spaceRegard exchange) := by
  have ends {κ : Type} {bound : κ → Nat} {isFileScoped : Bool} {body : NamespaceBody}
      {startAgain : κ → Span} {bodyAgain : κ → NamespaceBody}
      (same : ∀ context, (bodyRegard exchange).view (bodyAgain context) =
        (bodyRegard exchange).after body) :
      Follows exchange bound anyValue
        (spanFrom start >>= fun span =>
          (pure ⟨span, name, isFileScoped, body.usings, body.members⟩ : Parser NamespaceDecl))
        (fun context => spanFrom (startAgain context) >>= fun span =>
          pure ⟨span, name, isFileScoped, (bodyAgain context).usings, (bodyAgain context).members⟩)
        ((bodyRegard exchange).found body) (spaceRegard exchange) := by
    refine .behind (settles_spanFrom start start).forward
      (fun context => (settles_spanFrom start (startAgain context)).repeats) fun _ => ?_
    refine follows_pure (fun _ among => ?_) fun _ => ?_
    · have agree := same among.context
      simp only [bodyRegard, spaceRegard, Exchange.regard, NamespaceBody.unplacedWith,
        NamespaceDecl.unplacedWith, NamespaceBody.mk.injEq] at agree ⊢
      rw [agree.1, agree.2]
    · simp only [bodyRegard, spaceRegard, Exchange.regard, NamespaceBody.methods,
        NamespaceDecl.methods]
  refine .behind_same (repeats_eat .semicolon) fun _ => .ite (fun _ => ?_) fun _ => ?_
  · exact (follows_namespaceBody fits false follow forwardAgain).bind fun body =>
      ends fun among => among.same
  · refine .behind_same (repeats_expect .leftBrace) fun _ => ?_
    refine (follows_namespaceBody fits true follow forwardAgain).bind fun body => ?_
    refine .behind (forward_closeDeclaration start)
      (fun among => repeats_closeDeclaration start (startAgain among.context)) fun _ => ?_
    exact .behind_same (repeats_eat .semicolon) fun _ => ends fun among => among.context.same

/-- A namespace is read as it was, with the return types in it exchanged. -/
private theorem spaceFollow_namespaceDeclWithin (fits : exchange.Fits) (depth : Nat)
    (depthOf : ι → Nat) :
    SpaceFollow exchange depthOf (namespaceDeclWithin depth)
      (fun context => namespaceDeclWithin (depthOf context)) := by
  induction depth generalizing ι with
  | zero => exact fun _ => follows_failExpecting _
  | succ depth ih =>
  intro start
  let less (among : ι × Span) : Nat := depthOf among.1 - 1
  have behind (parts : List String) :
      Follows exchange (fun among : Continued (ι × Span) id parts => less among.context) anyValue
        (spaceRest start (".".intercalate parts) (namespaceDeclWithin depth))
        (fun among => spaceRest among.context.2 (".".intercalate among.value)
          (namespaceDeclWithin (less among.context))) [] (spaceRegard exchange) := by
    have rest := follows_spaceRest fits start (".".intercalate parts) Prod.snd (ih less)
      fun _ => forward_namespaceDeclWithin _
    refine rest.mono (fun _ => id) fun among _ => ⟨among.context, ?_, Nat.le_refl _⟩
    have same : among.value = parts := among.same
    rw [same]
  have named {κ : Type} {bound : κ → Nat} : Follows exchange bound anyValue dottedName
      (fun _ : κ => dottedName) [] (.same id []) :=
    follows_of_repeats forward_dottedName fun _ => repeats_dottedName
  have level : Follows exchange (fun among : ι × Span => depthOf among.1) anyValue
      (do spaceRest start (".".intercalate (← dottedName)) (namespaceDeclWithin depth))
      (fun among => do
        spaceRest among.2 (".".intercalate (← dottedName)) (namespaceDeclWithin (less among)))
      [] (spaceRegard exchange) :=
    named.bind_within behind
      (.inr ⟨uses_dottedName, fun among => Nat.le_add_of_sub_le (Nat.le_refl _)⟩)
  rw [namespaceDeclWithin_eq]
  have advances : Repeats advance advance id := repeats_advance
  refine (Follows.behind_same advances fun _ => level).mono (fun _ => id) fun among some =>
    ⟨among, ?_, Nat.le_refl _⟩
  rw [← namespaceDeclWithin_eq, Nat.sub_add_cancel some]

end Namespaces

section Files

/-- Items outside of braces are read up to the end of the file. -/
theorem remaining_of_namespaceBody {file : SourceFile} {cursor later : Cursor}
    {inner : Span → Parser NamespaceDecl} {body : NamespaceBody}
    (forward : ∀ start, Forward (inner start))
    (run : namespaceBody false inner file cursor = .ok body later) : later.remaining = [] := by
  let ends (_ : NamespaceBody) (reached : Cursor) : Prop := reached.remaining = []
  refine @loop_induction _ _ file (progresses_memberRound stopsAtEnd_atEnd
    (forward_openItem forward)) (fun _ _ => True) ends ?_ _ _ _ _ trivial run
  intro state here behind outcome _ round
  cases outcome with
  | yield next => trivial
  | done result =>
      rw [memberRound_eq_nextMember, bind_apply, atEnd_apply] at round
      cases nothing : here.remaining with
      | nil =>
          rw [nothing] at round
          cases round
          exact nothing
      | cons token rest =>
          simp only [nothing, List.isEmpty_cons, Bool.false_eq_true, if_false, bind_apply] at round
          cases fault : skipFault file here with
          | error diagnostic reached => simp [fault] at round
          | ok isFault reached =>
          cases isFault with
          | true => simp [fault] at round
          | false =>
          cases read : nextMember (openItem inner) file reached with
          | error diagnostic reached => simp [fault, bind_apply, read] at round
          | ok item reached => simp [fault, bind_apply, read] at round

/-- What is read of a file is read of the file in which return types have been
exchanged, with these return types. -/
theorem carried_fileBody (fits : exchange.Fits) {file : SourceFile} {tokens : List Token}
    {body : NamespaceBody} {later : Cursor}
    (run : fileBody file (Cursor.start tokens) = .ok body later) (silent : later.recorded = []) :
    ∃ stretches, tokens = Stretch.tokensOf stretches ∧ Stretch.ArePlaced [] stretches ∧
      (bodyRegard exchange).found body = Stretch.methodsOf stretches ∧
      ∀ (other : SourceFile) (copies : List Token),
        Rewritten exchange file other stretches copies →
          ∃ again, (bodyRegard exchange).view again = (bodyRegard exchange).after body ∧
            ∃ ended, ended.recorded = [] ∧
              fileBody other (Cursor.start copies) = .ok again ended := by
  rw [fileBody_apply] at run
  generalize (Cursor.start tokens).remaining.length + 1 = depth at run
  have nested : SpaceFollow exchange (fun depth : Nat => depth)
      (namespaceDeclWithin depth) (fun depth => namespaceDeclWithin depth) :=
    spaceFollow_namespaceDeclWithin fits _ _
  have follows := follows_namespaceBody fits false nested fun _ => forward_namespaceDeclWithin _
  obtain ⟨stretches, passed, placed, found, -, carried⟩ :=
    follows.carried file (Cursor.start tokens) later body run silent trivial
  have ended := remaining_of_namespaceBody (forward_namespaceDeclWithin depth) run
  rw [ended, List.append_nil] at passed
  refine ⟨stretches, passed, ended ▸ placed, found, fun other copies rewritten => ?_⟩
  have inFront : later.SameNext ⟨Token.lastOf none copies, [], []⟩ := by
    have same : later.SameNext later := ⟨rfl, fun _ _ _ => rfl⟩
    exact same.of_remaining rfl ended.symm
  obtain ⟨again, same, runAgain⟩ := carried (copies.length + 1) other none copies [] [] rewritten
    (by simp) inFront
  rw [List.append_nil] at runAgain
  refine ⟨again, same, ⟨Token.lastOf none copies, [], []⟩, rfl, ?_⟩
  rw [fileBody_apply]
  exact runAgain

end Files

end Parser

/-- What spells a type holds no string literal. -/
theorem Spells.noOpenString {kinds : List TokenKind} {piece : TypePiece}
    (spells : Spells kinds piece) : TokenKind.openString ∉ kinds := by
  induction spells with
  | array commas inner ih => simp [ih]
  | openArray commas inner ih => simp [ih]
  | element name inner ih => cases name <;> simp [ih]
  | _ => simp_all

namespace Rewritten

variable {exchange : Exchange} {file other : SourceFile} {stretches : List Stretch}
  {copies : List Token}

/-- No string literal is left open by an exchange. -/
theorem noOpenString (rewritten : Rewritten exchange file other stretches copies)
    (closed : TokenKind.openString ∉ (Stretch.tokensOf stretches).map (·.kind)) :
    TokenKind.openString ∉ copies.map (·.kind) := by
  induction rewritten with
  | nil => exact closed
  | cons first rest ih =>
      simp only [Stretch.tokensOf_cons, List.map_append, List.mem_append, not_or] at closed ⊢
      refine ⟨?_, ih closed.2⟩
      cases first with
      | other alike =>
          rw [alike.kinds]
          exact closed.1
      | method alikeBefore typed alikeHead opens fills closes =>
          simp only [Stretch.tokens, MethodTokens.tokens, MethodTokens.tail, List.map_append,
            List.map_cons, List.mem_append, List.mem_cons, not_or] at closed
          obtain ⟨⟨before, type, head, opening, body, ending⟩, -⟩ := closed
          simp only [List.map_append, List.map_cons, List.mem_append, List.mem_cons, not_or,
            alikeBefore.kinds, alikeHead.kinds, opens, closes]
          refine ⟨before, ?_, head, opening, ?_, ending⟩
          · cases typed with
            | kept _ alike =>
                rw [alike.kinds]
                exact type
            | given _ spells => exact spells.noOpenString
          · rcases fills with same | admits
            · rw [same]
              exact body
            · exact admits.closed

end Rewritten

section Outlines

variable {file : SourceFile} {tokens : List Token}

private theorem openStrings_eq_nil_iff :
    Parser.openStrings tokens = [] ↔ TokenKind.openString ∉ tokens.map (·.kind) := by
  rw [Parser.openStrings, List.map_eq_nil_iff, List.filter_eq_nil_iff]
  simp

/-- Without an open string literal, a file has the outline of what is read of it. -/
theorem SourceFile.outlineOf_of_fileBody {body : Parser.NamespaceBody} {later : Cursor}
    (closed : TokenKind.openString ∉ tokens.map (·.kind))
    (run : Parser.fileBody file (Cursor.start tokens) = .ok body later)
    (silent : later.recorded = []) :
    file.outlineOf tokens =
      .ok ⟨file.path, file.span 0 file.size, body.usings, body.members⟩ := by
  have start : ({ Cursor.start tokens with recorded := Parser.openStrings tokens } : Cursor) =
      Cursor.start tokens := by
    rw [openStrings_eq_nil_iff.mpr closed]
    rfl
  simp only [SourceFile.outlineOf, start, run, silent]
  rfl

/-- A file with an outline has no open string literal, and is read without a
diagnostic. -/
theorem SourceFile.fileBody_of_outlineOf {unit : SourceUnit}
    (outlined : file.outlineOf tokens = .ok unit) :
    TokenKind.openString ∉ tokens.map (·.kind) ∧
      ∃ body later, Parser.fileBody file (Cursor.start tokens) = .ok body later ∧
        later.recorded = [] ∧
        unit = ⟨file.path, file.span 0 file.size, body.usings, body.members⟩ := by
  let start : Cursor := { Cursor.start tokens with recorded := Parser.openStrings tokens }
  simp only [SourceFile.outlineOf] at outlined
  cases run : Parser.fileBody file start with
  | error diagnostic later =>
      simp only [start] at run
      simp [run] at outlined
  | ok body later =>
  have reached := Parser.forward_fileBody.of_ok run
  obtain ⟨errors, recorded, areErrors⟩ := reached.reported
  simp only [start] at run
  simp only [run] at outlined
  split at outlined
  · cases outlined
  next noError =>
  cases outlined
  have nothing : later.recorded = [] := by
    rw [recorded]
    refine List.eq_nil_iff_forall_not_mem.mpr fun diagnostic member => noError ?_
    rw [recorded, Diagnostic.anyError, List.any_eq_true]
    refine ⟨diagnostic, member, ?_⟩
    obtain isOpen | isError := List.mem_append.mp member
    · obtain ⟨token, -, rfl⟩ := List.mem_map.mp isOpen
      rfl
    · exact areErrors diagnostic isError
  have noOpen : Parser.openStrings tokens = [] :=
    (List.append_eq_nil_iff.mp (recorded.symm.trans nothing)).1
  rw [noOpen] at run
  exact ⟨openStrings_eq_nil_iff.mp noOpen, body, later, run, nothing, rfl⟩

/-- What is read of some tokens is read of the tokens in which return types have been
exchanged and bodies replaced, with these return types. -/
theorem SourceFile.outlineOf_rewritten {exchange : Exchange} (fits : exchange.Fits)
    {unit : SourceUnit} (outlined : file.outlineOf tokens = .ok unit) :
    ∃ stretches, tokens = Stretch.tokensOf stretches ∧ Stretch.ArePlaced [] stretches ∧
      unit.methods = Stretch.methodsOf stretches ∧
      ∀ (other : SourceFile) (copies : List Token), other.path = file.path →
        Rewritten exchange file other stretches copies →
          ∃ again, other.outlineOf copies = .ok again ∧
            again.unplaced =
              unit.unplacedWith fun method => (method.exchanged exchange).unplaced := by
  obtain ⟨closed, body, later, run, silent, rfl⟩ := fileBody_of_outlineOf outlined
  obtain ⟨stretches, passed, placed, found, carried⟩ := Parser.carried_fileBody fits run silent
  refine ⟨stretches, passed, placed, found, fun other copies samePath rewritten => ?_⟩
  obtain ⟨again, same, ended, silentAgain, runAgain⟩ := carried other copies rewritten
  refine ⟨_,
    outlineOf_of_fileBody (rewritten.noOpenString (passed ▸ closed)) runAgain silentAgain, ?_⟩
  simp only [Parser.bodyRegard, Exchange.regard, Parser.NamespaceBody.unplacedWith,
    Parser.NamespaceBody.mk.injEq] at same
  simp only [SourceUnit.unplaced, SourceUnit.unplacedWith, same, samePath]

end Outlines

/-- What is parsed of a text is parsed of the text in which return types have been
exchanged and bodies replaced, with these return types. -/
theorem SourceUnit.parse_rewritten {exchange : Exchange} (fits : exchange.Fits)
    {text path : String} {unit : SourceUnit} (parsed : SourceUnit.parse text path = .ok unit) :
    ∃ stretches, Token.tokens (.ofText path text) = Stretch.tokensOf stretches ∧
      Stretch.ArePlaced [] stretches ∧ unit.methods = Stretch.methodsOf stretches ∧
      ∀ fixed : String, Rewritten exchange (.ofText path text) (.ofText path fixed) stretches
          (Token.tokens (.ofText path fixed)) →
        ∃ again, SourceUnit.parse fixed path = .ok again ∧
          again.unplaced =
            unit.unplacedWith fun method => (method.exchanged exchange).unplaced := by
  obtain ⟨stretches, passed, placed, found, carried⟩ := SourceFile.outlineOf_rewritten fits parsed
  exact ⟨stretches, passed, placed, found, fun fixed => carried (.ofText path fixed) _ rfl⟩

end ErrorAccessors
