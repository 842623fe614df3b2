/-
# What the grammar of results sees of a type

The grammar reads a type through its head and the arguments of its head, and
through nothing else.  Two types that show the same head and corresponding
arguments, and whose arguments do so in turn, are therefore read alike, be they
written types or bound ones.
-/

import ErrorAccessors.Grammar

namespace ErrorAccessors

namespace ResultGrammar

variable {τ : Type} [TypeView τ] {grammar : ResultGrammar} {type inner carried : τ}

/-- Under a wrapper stands its only argument. -/
theorem unwrap?_eq_some_iff :
    grammar.unwrap? type = some inner ↔
      (TypeView.head? type).any grammar.isWrapper = true ∧ TypeView.arguments type = [inner] := by
  unfold unwrap?
  split
  · next name found isHead arguments =>
    simp only [isHead, arguments, Option.any_some, List.cons.injEq, and_true]
    split
    · next isWrapper => simp [isWrapper]
    · next isOther => simp [isOther]
  · next noMatch =>
    refine ⟨nofun, fun ⟨isWrapper, arguments⟩ => ?_⟩
    cases isHead : TypeView.head? type with
    | none => simp [isHead] at isWrapper
    | some name => exact absurd arguments (noMatch name inner isHead)

theorem payload_eq_value_iff :
    grammar.payload type = .value carried ↔
      grammar.unwrap? type = none ∧ TypeView.arguments type = [carried] := by
  unfold payload
  cases grammar.unwrap? type with
  | some inner => simp only [reduceCtorEq, false_and, iff_false]; split <;> simp
  | none => simp only [true_and]; split <;> simp_all

theorem payload_eq_asyncValue_iff :
    grammar.payload type = .asyncValue carried ↔
      ∃ inner, grammar.unwrap? type = some inner ∧ TypeView.arguments inner = [carried] := by
  unfold payload
  cases grammar.unwrap? type with
  | some inner => simp only [Option.some.injEq, exists_eq_left']; split <;> simp_all
  | none => simp only [reduceCtorEq, false_and, exists_false, iff_false]; split <;> simp

/-- A payload is found among the arguments of the type or of its only
argument. -/
theorem exists_of_payload (isCarried : (grammar.payload type).type? = some carried) :
    ∃ outer, (outer = type ∨ TypeView.arguments type = [outer]) ∧
      TypeView.arguments outer = [carried] := by
  cases found : grammar.payload type with
  | void => simp [found, Payload.type?] at isCarried
  | value other =>
      obtain rfl : other = carried := by simpa [found, Payload.type?] using isCarried
      exact ⟨type, .inl rfl, (payload_eq_value_iff.mp found).2⟩
  | asyncValue other =>
      obtain rfl : other = carried := by simpa [found, Payload.type?] using isCarried
      obtain ⟨inner, unwraps, arguments⟩ := payload_eq_asyncValue_iff.mp found
      exact ⟨inner, .inr (unwrap?_eq_some_iff.mp unwraps).2, arguments⟩

end ResultGrammar

/-- A type is read alike under another view of it: as allowed or not, and with the
same payload. -/
structure ReadsAlike {σ τ : Type} [TypeView σ] [TypeView τ] (grammar : ResultGrammar)
    (view : σ → τ) (type : σ) : Prop where
  conforms : ∀ isAsync, grammar.conforms (view type) isAsync = grammar.conforms type isAsync
  payload : grammar.payload (view type) = (grammar.payload type).map view

/-- A view shows the arguments of a type as the views of its arguments. -/
def TypeView.KeepsArguments {σ τ : Type} [TypeView σ] [TypeView τ] (view : σ → τ) (type : σ) :
    Prop :=
  TypeView.arguments (view type) = (TypeView.arguments type).map view

namespace ResultGrammar

variable {σ τ : Type} [TypeView σ] [TypeView τ] {grammar : ResultGrammar} {view : σ → τ} {type : σ}

theorem unwrap?_view (sameHead : TypeView.head? (view type) = TypeView.head? type)
    (arguments : TypeView.KeepsArguments view type) :
    grammar.unwrap? (view type) = (grammar.unwrap? type).map view := by
  refine Option.ext fun inner => ?_
  rw [unwrap?_eq_some_iff, Option.map_eq_some_iff, sameHead, arguments]
  simp only [unwrap?_eq_some_iff, List.map_eq_singleton_iff, and_assoc, exists_and_left]

theorem isResult_view (sameHead : TypeView.head? (view type) = TypeView.head? type)
    (arguments : TypeView.KeepsArguments view type) :
    grammar.isResult (view type) = grammar.isResult type := by
  rw [isResult, isResult, sameHead, arguments, List.length_map]

/-- The payload of a type and of its view are found in the same place if the same
is found under a wrapper. -/
theorem payload_view (unwrapped : grammar.unwrap? (view type) = (grammar.unwrap? type).map view)
    (arguments : TypeView.KeepsArguments view type)
    (inside : ∀ inner, grammar.unwrap? type = some inner → TypeView.KeepsArguments view inner) :
    grammar.payload (view type) = (grammar.payload type).map view := by
  unfold payload
  rw [unwrapped]
  cases unwraps : grammar.unwrap? type with
  | none =>
      simp only [Option.map_none]
      rw [arguments]
      rcases TypeView.arguments type with _ | ⟨carried, _ | ⟨next, rest⟩⟩ <;> rfl
  | some inner =>
      simp only [Option.map_some]
      rw [inside inner unwraps]
      rcases TypeView.arguments inner with _ | ⟨carried, _ | ⟨next, rest⟩⟩ <;> rfl

/-- A view that shows the same head and the arguments lets a type be read alike
just if it does not change whether the type under a wrapper is a result. -/
theorem readsAlike_iff_of_head (sameHead : TypeView.head? (view type) = TypeView.head? type)
    (arguments : TypeView.KeepsArguments view type)
    (inside : ∀ inner, grammar.unwrap? type = some inner → TypeView.KeepsArguments view inner) :
    ReadsAlike grammar view type ↔
      ∀ inner, grammar.unwrap? type = some inner →
        grammar.isResult (view inner) = grammar.isResult inner := by
  have unwrapped : grammar.unwrap? (view type) = (grammar.unwrap? type).map view :=
    unwrap?_view sameHead arguments
  constructor
  · intro alike inner unwraps
    have agreed := alike.conforms true
    rw [conforms, conforms, unwrapped, unwraps] at agreed
    exact agreed
  · intro results
    refine ⟨fun isAsync => ?_, payload_view unwrapped arguments inside⟩
    rw [conforms, conforms, unwrapped]
    cases unwraps : grammar.unwrap? type with
    | none =>
        simp only [Option.map_none]
        rw [isResult_view sameHead arguments]
    | some inner => exact results inner unwraps

/-- A view that shows neither a wrapper nor a result lets a type be read alike just
if the type is neither of them. -/
theorem readsAlike_iff_of_foreign (noWrapper : grammar.unwrap? (view type) = none)
    (noResult : grammar.isResult (view type) = false)
    (arguments : TypeView.KeepsArguments view type) :
    ReadsAlike grammar view type ↔
      grammar.unwrap? type = none ∧ grammar.isResult type = false := by
  constructor
  · intro alike
    have unwraps : grammar.unwrap? type = none := by
      refine Option.eq_none_iff_forall_ne_some.mpr fun inner unwraps => ?_
      have isOnly := (unwrap?_eq_some_iff.mp unwraps).2
      -- the view carries the argument at once, the type only under the wrapper
      have viewed : grammar.payload (view type) = .value (view inner) :=
        payload_eq_value_iff.mpr ⟨noWrapper, by rw [arguments, isOnly]; rfl⟩
      obtain ⟨carried, isValue⟩ : ∃ carried, grammar.payload type = .value carried := by
        have agreed := viewed.symm.trans alike.payload
        cases isPayload : grammar.payload type with
        | void => rw [isPayload] at agreed; cases agreed
        | value carried => exact ⟨carried, rfl⟩
        | asyncValue carried => rw [isPayload] at agreed; cases agreed
      rw [(payload_eq_value_iff.mp isValue).1] at unwraps
      cases unwraps
    have agreed := alike.conforms false
    rw [conforms, conforms, noWrapper, unwraps] at agreed
    exact ⟨unwraps, by simpa [noResult] using agreed.symm⟩
  · rintro ⟨unwraps, isNone⟩
    refine ⟨fun isAsync => ?_, payload_view (by rw [noWrapper, unwraps]; rfl) arguments ?_⟩
    · rw [conforms, conforms, noWrapper, unwraps, noResult, isNone]
    · rw [unwraps]
      exact fun inner found => by cases found

end ResultGrammar

namespace BoundType

/-- The head of a bound type is its name, if it is not hidden by a suffix. -/
theorem head?_eq_some_iff {type : BoundType} {name : String} :
    type.head? = some name ↔
      type.suffix = "" ∧ type.elements = [] ∧ type.name = name ∧ name ≠ "" := by
  simp only [head?, isTuple, Option.ite_none_right_eq_some, Option.some.injEq, Bool.not_not,
    List.isEmpty_iff]
  constructor
  · rintro ⟨⟨plain, single, nonempty⟩, rfl⟩
    exact ⟨plain, single, rfl, nonempty⟩
  · rintro ⟨plain, single, rfl, nonempty⟩
    exact ⟨⟨plain, single, nonempty⟩, rfl⟩

/-- A suffix hides the head. -/
theorem head?_withSuffix (type : BoundType) {suffix : String} (nonempty : suffix ≠ "") :
    (type.withSuffix suffix).head? = none := by
  refine Option.eq_none_iff_forall_ne_some.mpr fun name named => nonempty ?_
  have plain : type.suffix ++ suffix = "" := (head?_eq_some_iff.mp named).1
  exact (String.append_eq_empty_iff.mp plain).2

/-- Behind a head the arguments are shown. -/
theorem arguments_of_head? {type : BoundType} {name : String} (isHead : type.head? = some name) :
    TypeView.arguments type = type.arguments := by
  change (if type.head?.isSome then type.arguments else []) = type.arguments
  rw [isHead]
  rfl

/-- Without a head no arguments are shown. -/
theorem arguments_of_head?_eq_none {type : BoundType} (hidden : type.head? = none) :
    TypeView.arguments type = [] := by
  change (if type.head?.isSome then type.arguments else []) = []
  rw [hidden]
  rfl

/-- Arguments are only shown behind a head. -/
theorem view_eq_cons {type first : BoundType} {rest : List BoundType}
    (shown : TypeView.arguments type = first :: rest) :
    type.arguments = first :: rest ∧ ∃ name, type.head? = some name := by
  change (if type.head?.isSome then type.arguments else []) = first :: rest at shown
  split at shown
  · next named => exact ⟨shown, Option.isSome_iff_exists.mp named⟩
  · cases shown

/-- The arguments that are shown of a bound type are among its arguments. -/
theorem mem_arguments_of_view {type argument : BoundType}
    (member : argument ∈ TypeView.arguments type) : argument ∈ type.arguments := by
  obtain ⟨first, rest, shown⟩ := List.exists_cons_of_ne_nil (List.ne_nil_of_mem member)
  rw [shown] at member
  exact (view_eq_cons shown).1 ▸ member

end BoundType

end ErrorAccessors