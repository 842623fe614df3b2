/-
# Where the methods of a parsed file stand

The return type and the name of a method cover some of its text, the type in front of the
name, and no method reaches into another one.  An offset strictly inside of a method, such as
that of its name, therefore leads back to the method and to no other.
-/

import ErrorAccessors.Proofs.CoherentOutline
import ErrorAccessors.Proofs.OpaqueBodies

namespace ErrorAccessors

/-- The return type and the name of a method are places of a file, not empty, and one behind
the other in the method. -/
structure MethodDecl.StandsIn (method : MethodDecl) (file : SourceFile) : Prop where
  type : method.returnType.span.IsOf file
  name : method.nameSpan.IsOf file
  typed : method.returnType.span.start.offset < method.returnType.span.stop.offset
  named : method.nameSpan.start.offset < method.nameSpan.stop.offset
  typeInside : method.returnType.span.Inside method.span
  nameInside : method.nameSpan.Inside method.span
  precedes : method.returnType.span.Precedes method.nameSpan

/-- Tokens in a row reach from a start to a stop behind it. -/
theorem Token.InOrder.start_lt_stop {tokens : List Token} {first last : Token}
    (inOrder : InOrder tokens) (isFirst : tokens.head? = some first)
    (isLast : tokens.getLast? = some last) : first.span.start.offset < last.span.stop.offset := by
  have covers := inOrder.nonempty first (List.mem_of_mem_head? isFirst)
  obtain ⟨rest, rfl⟩ := List.head?_eq_some_iff.mp isFirst
  cases rest with
  | nil =>
      obtain rfl : first = last := by simpa using isLast
      exact covers
  | cons second rest =>
      have behind : last ∈ second :: rest := by
        rw [List.getLast?_cons_cons] at isLast
        exact List.mem_of_getLast? isLast
      have apart := List.rel_of_pairwise_cons inOrder.apart behind
      have lastCovers := inOrder.nonempty last (List.mem_cons_of_mem _ behind)
      exact (covers.trans_le apart).trans lastCovers

theorem Token.InOrder.sublist {tokens some : List Token} (inOrder : InOrder tokens)
    (sub : some.Sublist tokens) : InOrder some :=
  ⟨fun token member => inOrder.nonempty token (sub.subset member), inOrder.apart.sublist sub⟩

/-- The tokens of a method are among those of its stretches. -/
theorem Stretch.ArePlaced.exists_of_mem {stretches : List Stretch} {rest : List Token}
    {method : MethodDecl} (placed : ArePlaced rest stretches)
    (member : method ∈ methodsOf stretches) :
    ∃ (found : MethodTokens) (next : Option TokenKind), found.decl = method ∧ found.IsPlaced next ∧
      found.tokens.Sublist (tokensOf stretches) := by
  induction placed with
  | nil => cases member
  | other _ ih =>
      obtain ⟨found, next, isFound, isPlaced, among⟩ := ih member
      exact ⟨found, next, isFound, isPlaced, among.trans (List.sublist_append_right _ _)⟩
  | @method found stretches isPlaced _ ih =>
      obtain rfl | later := List.mem_cons.mp member
      · exact ⟨found, _, rfl, isPlaced, List.sublist_append_left _ _⟩
      · obtain ⟨found, next, isFound, isPlaced, among⟩ := ih later
        exact ⟨found, next, isFound, isPlaced, among.trans (List.sublist_append_right _ _)⟩

/-- A return type that is spelled by tokens in order is not empty. -/
theorem MethodTokens.IsPlaced.typed {found : MethodTokens} {next : Option TokenKind}
    (isPlaced : found.IsPlaced next) (inOrder : Token.InOrder found.tokens) :
    found.decl.returnType.span.start.offset < found.decl.returnType.span.stop.offset := by
  have typeInOrder : Token.InOrder found.type := by
    apply inOrder.sublist
    exact (List.sublist_append_left _ _).trans (List.sublist_append_right _ _)
  have spelled : found.type ≠ [] := by
    intro nothing
    have begins := isPlaced.spells.beginsWell
    simp [nothing, BeginsWell] at begins
  obtain ⟨first, isFirst⟩ : ∃ first, found.type.head? = some first :=
    ⟨_, List.head?_eq_some_head spelled⟩
  obtain ⟨last, isLast⟩ : ∃ last, found.type.getLast? = some last :=
    ⟨_, List.getLast?_eq_some_getLast spelled⟩
  have reaches := typeInOrder.start_lt_stop isFirst isLast
  rw [isPlaced.typeSpan first last isFirst isLast reaches.le, Span.merge_start_offset,
    Span.merge_stop_offset]
  exact (min_le_left _ _).trans_lt (reaches.trans_le (le_max_right _ _))

/-- The return type and the name of a method with coherent places. -/
theorem MethodDecl.standsIn_of_coherent {file : SourceFile} {method : MethodDecl}
    (coherent : method.spanTree.Coherent file)
    (typed : method.returnType.span.start.offset < method.returnType.span.stop.offset) :
    method.StandsIn file := by
  obtain ⟨precedes, nameInside, named, -⟩ := name_of_coherent coherent
  rw [spanTree] at coherent
  cases coherent with
  | node isOf parts inside apart =>
    have typePart := parts _ (List.mem_singleton_self _) method.returnType.spanTree (by simp)
    have typeInside := inside _ (List.mem_singleton_self _) method.returnType.spanTree (by simp)
    have namePart :=
      parts _ (List.mem_singleton_self _) (.word method.nameSpan method.name) (by simp)
    rw [TypeExpr.span_spanTree] at typeInside
    exact { type := method.returnType.span_spanTree ▸ typePart.isOf
            name := namePart.isOf
            typed, named, typeInside, nameInside, precedes }

namespace SourceUnit

variable {text path : String} {unit : SourceUnit}

theorem path_of_parse (parsed : parse text path = .ok unit) : unit.path = path := by
  simp only [parse, SourceFile.outline, SourceFile.outlineOf] at parsed
  split at parsed
  · split at parsed
    · cases parsed
    · cases parsed
      rfl
  · cases parsed

/-- Every method of a parsed text stands in the text. -/
theorem standsIn_of_parse (parsed : parse text path = .ok unit) :
    ∀ method ∈ unit.methods, method.StandsIn (.ofText path text) := by
  intro method member
  obtain ⟨each, -⟩ := methods_of_coherent (SourceFile.coherent_of_outline parsed)
  apply MethodDecl.standsIn_of_coherent (each method member)
  obtain ⟨stretches, tokens, placed, methods, -⟩ := parse_rewritten Exchange.fits_nothing parsed
  rw [methods] at member
  obtain ⟨found, next, rfl, isPlaced, among⟩ := placed.exists_of_mem member
  apply isPlaced.typed
  apply (Token.inOrder_tokens (.ofText path text)).sublist
  rw [tokens]
  exact among

/-- The methods of a parsed text stand one behind the other. -/
theorem pairwise_precedes_of_parse (parsed : parse text path = .ok unit) :
    unit.methods.Pairwise fun method later => method.span.Precedes later.span :=
  (methods_of_coherent (SourceFile.coherent_of_outline parsed)).2.imp And.right

/-- Strictly inside of a method no other one is found. -/
theorem methodAt?_of_inside (apart : unit.methods.Pairwise fun method later =>
      method.span.Precedes later.span)
    {method : MethodDecl} (member : method ∈ unit.methods) {offset : Nat}
    (behind : method.span.start.offset < offset) (before : offset < method.span.stop.offset) :
    unit.methodAt? offset = some method := by
  obtain ⟨front, rest, isSplit⟩ := List.append_of_mem member
  rw [isSplit] at apart
  obtain ⟨-, behindIt, inFront⟩ := List.pairwise_append.mp apart
  have hit : method.span.contains offset = true :=
    Span.contains_iff.mpr ⟨behind.le, before.le⟩
  have noneInFront : (front.filter fun other => other.span.contains offset) = [] := by
    rw [List.filter_eq_nil_iff]
    intro other isFront hits
    have ends : other.span.Precedes method.span := inFront other isFront method List.mem_cons_self
    exact absurd (Span.contains_iff.mp hits).2 (not_le.mpr (ends.trans_lt behind))
  have noneBehind : (rest.filter fun other => other.span.contains offset) = [] := by
    rw [List.filter_eq_nil_iff]
    intro other isRest hits
    have begins : method.span.Precedes other.span := List.rel_of_pairwise_cons behindIt isRest
    exact absurd (Span.contains_iff.mp hits).1 (not_le.mpr (before.trans_le begins))
  rw [methodAt?, isSplit, List.filter_append, noneInFront, List.filter_cons, if_pos hit,
    noneBehind]
  rfl

/-- The name of a method leads back to the method. -/
theorem methodAt?_name (parsed : parse text path = .ok unit) {method : MethodDecl}
    (member : method ∈ unit.methods) :
    unit.methodAt? method.nameSpan.start.offset = some method := by
  have stands := standsIn_of_parse parsed method member
  apply methodAt?_of_inside (pairwise_precedes_of_parse parsed) member
  · exact (stands.typeInside.start.trans_lt stands.typed).trans_le stands.precedes
  · exact stands.named.trans_le stands.nameInside.stop

/-- The names of the methods of a parsed text stand in order. -/
theorem pairwise_name_of_parse (parsed : parse text path = .ok unit) :
    unit.methods.Pairwise fun method later =>
      method.nameSpan.start.offset < later.nameSpan.start.offset := by
  apply (pairwise_precedes_of_parse parsed).imp_of_mem
  intro method later inUnit laterInUnit precedes
  have here := standsIn_of_parse parsed method inUnit
  have there := standsIn_of_parse parsed later laterInUnit
  exact here.named.trans_le
    (here.nameInside.stop.trans (precedes.trans there.nameInside.start))

end SourceUnit

end ErrorAccessors
