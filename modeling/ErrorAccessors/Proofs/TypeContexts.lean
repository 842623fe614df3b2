/-
# What a type keeps of its parts

A part of a type stands in a context: a type with a hole in it.  Without aliases
in scope, the spelling of a bound type holds that of the part, with the same
texts around it whatever the part is, so types with different parts are spelled
differently.

There is one kind of place of which this is not true.  Where a dotted name means a
declaration, binding keeps the type arguments of its last part and drops those
of the parts before.  A part that stands in dropped arguments, at any depth,
leaves no trace in the bound type.
-/

import ErrorAccessors.Proofs.FullNames

namespace ErrorAccessors

/-- A type with a hole in it. -/
inductive TypeContext where
  | hole
  | nullable (inside : TypeContext)
  | pointer (inside : TypeContext)
  | array (inside : TypeContext) (rank : Nat)
  /-- An element of a tuple. -/
  | element (before : List TupleElement) (inside : TypeContext) (name : Option String)
      (behind : List TupleElement)
  /-- A type argument of the part `name` of a dotted name. -/
  | argument (qualifier : Option String) (front : List NameSegment) (name : String)
      (before : List TypeExpr) (inside : TypeContext) (behind : List TypeExpr)
      (rest : List NameSegment)

namespace TypeContext

/-- The type with a part put in the hole. -/
def plug : TypeContext → TypeExpr → TypeExpr
  | hole, part => part
  | nullable inside, part => .nullable (inside.plug part) .nowhere
  | pointer inside, part => .pointer (inside.plug part) .nowhere
  | array inside rank, part => .array (inside.plug part) rank .nowhere
  | element before inside name behind, part =>
    .tuple (before ++ ⟨inside.plug part, name⟩ :: behind) .nowhere
  | argument qualifier front name before inside behind rest, part =>
    .named qualifier (front ++ ⟨name, before ++ inside.plug part :: behind⟩ :: rest) .nowhere

/-- The hole is not in the type arguments of a qualifier whose name means a
declaration. -/
def Keeps (types : List DeclaredType) (scope : Scope) : TypeContext → Prop
  | hole => True
  | nullable inside => inside.Keeps types scope
  | pointer inside => inside.Keeps types scope
  | array inside _ => inside.Keeps types scope
  | element _ inside _ _ => inside.Keeps types scope
  | argument qualifier front name _ inside _ rest =>
    (rest = [] ∨
      scope.declared? types qualifier (NameSegment.dotted (front ++ ⟨name, []⟩ :: rest)) = none) ∧
      inside.Keeps types scope

end TypeContext

section Surrounding

variable {α : Type}

/-- A text holds another one, with the same texts around it for all parts. -/
def Surrounds (whole part : α → String) : Prop :=
  ∃ front behind, ∀ a, whole a = front ++ part a ++ behind

namespace Surrounds

variable {whole middle part : α → String}

theorem refl (part : α → String) : Surrounds part part :=
  ⟨"", "", fun a => by simp⟩

theorem trans (outer : Surrounds whole middle) (inner : Surrounds middle part) :
    Surrounds whole part := by
  obtain ⟨front, behind, isWhole⟩ := outer
  obtain ⟨first, last, isMiddle⟩ := inner
  exact ⟨front ++ first, last ++ behind, fun a => by
    simp only [isWhole, isMiddle, String.append_assoc]⟩

theorem intercalate (separator : String) (before behind : List String) (part : α → String) :
    Surrounds (fun a => separator.intercalate (before ++ part a :: behind)) part := by
  have fromPart : Surrounds (fun a => separator.intercalate (part a :: behind)) part := by
    cases behind with
    | nil => exact ⟨"", "", fun a => by simp⟩
    | cons next rest =>
        exact ⟨"", separator ++ separator.intercalate (next :: rest), fun a => by
          simp [String.intercalate_cons_cons, String.append_assoc]⟩
  cases before with
  | nil => exact fromPart
  | cons first rest =>
      refine trans ⟨separator.intercalate (first :: rest) ++ separator, "", fun a => ?_⟩ fromPart
      beta_reduce
      rw [String.intercalate_append_of_ne_nil (List.cons_ne_nil _ _) (List.cons_ne_nil _ _),
        String.append_empty]

theorem angled (before behind : List String) (part : α → String) :
    Surrounds (fun a => ErrorAccessors.angled (before ++ part a :: behind)) part := by
  refine trans ⟨"<", ">", fun a => ?_⟩ (intercalate ", " before behind part)
  beta_reduce
  rw [ErrorAccessors.angled, if_neg (by simp)]

/-- Different parts give different texts. -/
theorem eq_iff (surrounds : Surrounds whole part) {a b : α} :
    whole a = whole b ↔ part a = part b := by
  obtain ⟨front, behind, isWhole⟩ := surrounds
  rw [isWhole, isWhole, String.append_left_inj, String.append_right_inj]

end Surrounds

end Surrounding

namespace TypeContext

variable {types : List DeclaredType} {scope : Scope}

/-- What a dotted name means does not depend on its arguments. -/
private theorem dotted_with_arguments (front rest : List NameSegment) (name : String)
    (arguments : List TypeExpr) :
    NameSegment.dotted (front ++ ⟨name, arguments⟩ :: rest) =
      NameSegment.dotted (front ++ ⟨name, []⟩ :: rest) := by
  simp [NameSegment.dotted]

/-- A name with a type argument is no type parameter. -/
private theorem not_namesParameter (qualifier : Option String) (front rest : List NameSegment)
    (name : String) (before behind : List TypeExpr) (argument : TypeExpr) :
    ¬ NameSegment.NamesParameter scope qualifier
      (front ++ ⟨name, before ++ argument :: behind⟩ :: rest) := by
  rintro ⟨parameter, -, -, isParameter⟩
  have member : (⟨name, before ++ argument :: behind⟩ : NameSegment) ∈ [⟨parameter, []⟩] :=
    isParameter ▸ List.mem_append_right front List.mem_cons_self
  simp at member

section Argument

variable {qualifier : Option String} {front rest : List NameSegment} {name : String}
  {before behind : List TypeExpr} {inside : TypeContext}

/-- Type arguments with a part in one of them. -/
private theorem surrounds_arguments (before behind : List TypeExpr)
    (inner : Surrounds (fun part => ((inside.plug part).bind types scope).text)
      (fun part => (part.bind types scope).text)) :
    Surrounds (fun part => angled ((before ++ inside.plug part :: behind).map
        fun argument => (argument.bind types scope).text))
      (fun part => (part.bind types scope).text) := by
  simp only [List.map_append, List.map_cons]
  exact .trans (.angled _ _ _) inner

/-- The arguments of the last part of a name are kept where the name means a
declaration. -/
private theorem surrounds_declared (noAlias : scope.HasNoAlias) {head : DeclaredType}
    (found : scope.declared? types qualifier (NameSegment.dotted (front ++ [⟨name, []⟩])) =
      some head)
    (inner : Surrounds (fun part => ((inside.plug part).bind types scope).text)
      (fun part => (part.bind types scope).text)) :
    Surrounds (fun part => (((argument qualifier front name before inside behind []).plug part).bind
        types scope).text)
      (fun part => (part.bind types scope).text) := by
  refine .trans ⟨(head.reference []).text, "", fun part => ?_⟩
    (surrounds_arguments before behind inner)
  have found : scope.declared? types qualifier
      (NameSegment.dotted (front ++ [⟨name, before ++ inside.plug part :: behind⟩])) =
        some head := by
    rw [dotted_with_arguments, found]
  beta_reduce
  rw [String.append_empty, plug,
    TypeExpr.text_bind_declared noAlias (not_namesParameter _ _ _ _ _ _ _) found]

/-- The arguments of every part of a name are kept where the name means no
declaration. -/
private theorem surrounds_written (noAlias : scope.HasNoAlias)
    (named : ∀ segment ∈ front ++ ⟨name, []⟩ :: rest, segment.name ≠ "")
    (undeclared : scope.declared? types qualifier
      (NameSegment.dotted (front ++ ⟨name, []⟩ :: rest)) = none)
    (inner : Surrounds (fun part => ((inside.plug part).bind types scope).text)
      (fun part => (part.bind types scope).text)) :
    Surrounds
      (fun part => (((argument qualifier front name before inside behind rest).plug part).bind
        types scope).text)
      (fun part => (part.bind types scope).text) := by
  have segmentText (part : TypeExpr) :
      (NameSegment.bound types scope ⟨name, before ++ inside.plug part :: behind⟩).text =
        name ++ angled ((before ++ inside.plug part :: behind).map
          fun argument => (argument.bind types scope).text) := by
    rw [BoundSegment.text_eq]
    simp [NameSegment.bound, BoundType.text, Function.comp_def]
  have inSegment : Surrounds (fun part =>
        (NameSegment.bound types scope ⟨name, before ++ inside.plug part :: behind⟩).text)
      (fun part => (part.bind types scope).text) :=
    .trans ⟨name, "", fun part => by rw [String.append_empty]; exact segmentText part⟩
      (surrounds_arguments before behind inner)
  refine .trans ⟨TypeExpr.rootText qualifier, "", fun part => ?_⟩ (.trans
    (.intercalate "." (front.map fun segment => (segment.bound types scope).text)
      (rest.map fun segment => (segment.bound types scope).text) _) inSegment)
  have named : ∀ segment ∈ front ++ ⟨name, before ++ inside.plug part :: behind⟩ :: rest,
      segment.name ≠ "" := by
    simpa [or_imp, forall_and] using named
  have isText := TypeExpr.render_bind_undeclared noAlias (by simp) named
    (by rw [dotted_with_arguments, undeclared]) .nowhere
  rw [List.map_append, List.map_cons] at isText
  rw [String.append_empty]
  exact isText

end Argument

/-- A context that keeps its hole spells the same around every part. -/
theorem Keeps.surrounds {context : TypeContext} (keeps : context.Keeps types scope)
    (noAlias : scope.HasNoAlias) {filling : TypeExpr} (proper : (context.plug filling).IsProper) :
    Surrounds (fun part => ((context.plug part).bind types scope).text)
      (fun part => (part.bind types scope).text) := by
  induction context with
  | hole => exact .refl _
  | nullable inside ih =>
      cases proper with
      | nullable proper =>
        refine .trans ⟨"", "?", fun part => ?_⟩ (ih keeps proper)
        rw [String.empty_append]
        exact TypeExpr.text_bind_nullable _ _
  | pointer inside ih =>
      cases proper with
      | pointer proper =>
        refine .trans ⟨"", "*", fun part => ?_⟩ (ih keeps proper)
        rw [String.empty_append]
        exact TypeExpr.text_bind_pointer _ _
  | array inside rank ih =>
      cases proper with
      | array proper =>
        refine .trans ⟨"", TypeExpr.arraySuffix rank, fun part => ?_⟩ (ih keeps proper)
        rw [String.empty_append]
        exact TypeExpr.text_bind_array _ _ _
  | element before inside name behind ih =>
      cases proper with
      | tuple _ proper =>
        have inner := ih keeps (proper ⟨inside.plug filling, name⟩ (by simp))
        refine .trans ⟨"(", ")", fun part => ?_⟩ (.trans (.intercalate ", "
          (before.map (TupleElement.boundText types scope))
          (behind.map (TupleElement.boundText types scope)) fun part =>
            TupleElement.boundText types scope ⟨inside.plug part, name⟩) ?_)
        · beta_reduce
          rw [plug, TypeExpr.text_bind_tuple (by simp), List.map_append, List.map_cons]
        · refine .trans ⟨"", TupleElement.nameText name, fun part => ?_⟩ inner
          rw [String.empty_append]
          rfl
  | argument qualifier front name before inside behind rest ih =>
      cases proper with
      | named _ words proper =>
        have inner := ih keeps.2
          (proper ⟨name, before ++ inside.plug filling :: behind⟩ (by simp) _ (by simp))
        cases found : scope.declared? types qualifier
            (NameSegment.dotted (front ++ ⟨name, []⟩ :: rest)) with
        | some head =>
            obtain rfl : rest = [] := keeps.1.resolve_right (by simp [found])
            exact surrounds_declared noAlias found inner
        | none =>
            refine surrounds_written noAlias ?_ found inner
            have named := fun segment part => (words segment part).ne_empty
            simpa [or_imp, forall_and] using named

/-- Of a name that means a declaration only the last part is kept, and the declaration. -/
private theorem bind_plug_declared (noAlias : scope.HasNoAlias) {qualifier : Option String}
    {front rest : List NameSegment} {name : String} {before behind : List TypeExpr}
    {inside : TypeContext} {head : DeclaredType} (nonempty : rest ≠ [])
    (found : scope.declared? types qualifier
      (NameSegment.dotted (front ++ ⟨name, []⟩ :: rest)) = some head) (part : TypeExpr) :
    ((argument qualifier front name before inside behind rest).plug part).bind types scope =
      head.reference ((rest.getLast nonempty).arguments.map fun type => type.bind types scope) := by
  have parts : front ++ ⟨name, before ++ inside.plug part :: behind⟩ :: rest =
      (front ++ ⟨name, before ++ inside.plug part :: behind⟩ :: rest.dropLast) ++
        [rest.getLast nonempty] := by
    rw [List.append_assoc, List.cons_append, List.dropLast_append_getLast nonempty]
  have notParameter : ¬ NameSegment.NamesParameter scope qualifier _ :=
    not_namesParameter qualifier front rest name before behind (inside.plug part)
  rw [← dotted_with_arguments front rest name (before ++ inside.plug part :: behind)] at found
  rw [parts] at found notParameter
  rw [plug, parts, TypeExpr.bind_named_of_notParameter noAlias notParameter, found]

/-- A part in a place that is not kept leaves no trace. -/
theorem bind_plug_of_not_keeps {context : TypeContext} (lost : ¬ context.Keeps types scope)
    (noAlias : scope.HasNoAlias) (part other : TypeExpr) :
    (context.plug part).bind types scope = (context.plug other).bind types scope := by
  induction context with
  | hole => exact absurd trivial lost
  | nullable inside ih => exact congrArg (BoundType.withSuffix · "?") (ih lost)
  | pointer inside ih => exact congrArg (BoundType.withSuffix · "*") (ih lost)
  | array inside rank ih =>
      exact congrArg (BoundType.withSuffix · (TypeExpr.arraySuffix rank)) (ih lost)
  | element before inside name behind ih =>
      have same : (inside.plug part).bindWith types scope (scope.expandAlias types) =
        (inside.plug other).bindWith types scope (scope.expandAlias types) := ih lost
      simp only [plug, TypeExpr.bind, TypeExpr.bindWith_tuple, List.map_append, List.map_cons,
        TupleElement.bindWith, same]
  | argument qualifier front name before inside behind rest ih =>
      by_cases keeps : inside.Keeps types scope
      · have dropped : ¬ (rest = [] ∨ scope.declared? types qualifier
            (NameSegment.dotted (front ++ ⟨name, []⟩ :: rest)) = none) :=
          fun kept => lost ⟨kept, keeps⟩
        obtain ⟨nonempty, declared⟩ := not_or.mp dropped
        obtain ⟨head, found⟩ := Option.ne_none_iff_exists'.mp declared
        rw [bind_plug_declared noAlias nonempty found, bind_plug_declared noAlias nonempty found]
      · have same : (inside.plug part).bindWith types scope (scope.expandAlias types) =
          (inside.plug other).bindWith types scope (scope.expandAlias types) := ih keeps
        simp only [plug, TypeExpr.bind, TypeExpr.bindWith_named, List.map_append, List.map_cons,
          NameSegment.bindWith, same]

end TypeContext

section Elements

open Lexeme

/-- A text does not end with a word behind a blank. -/
def EndsTight (text : String) : Prop :=
  ∀ front word : String, IsWord word.toList → text ≠ front ++ " " ++ word

private theorem solid_of_word {text : List Char} (isWord : IsWord text) : ' ' ∉ text :=
  isWord.notMem (by decide) (by decide)

/-- Texts that are the same are the same in front of their last blanks. -/
private theorem eq_of_last_blank {front other behind otherBehind : List Char} (solid : ' ' ∉ behind)
    (otherSolid : ' ' ∉ otherBehind) (same : front ++ ' ' :: behind = other ++ ' ' :: otherBehind) :
    front = other := by
  rcases List.append_eq_append_iff.mp same with
    ⟨middle, isOther, isBehind⟩ | ⟨middle, isFront, isBehind⟩
  · cases middle with
    | nil => rw [isOther, List.append_nil]
    | cons c rest =>
        obtain ⟨-, isBehind⟩ := List.cons.inj isBehind
        exact absurd (isBehind ▸ by simp) solid
  · cases middle with
    | nil => rw [isFront, List.append_nil]
    | cons c rest =>
        obtain ⟨-, isBehind⟩ := List.cons.inj isBehind
        exact absurd (isBehind ▸ by simp) otherSolid

namespace EndsTight

theorem of_solid {text : String} (solid : ' ' ∉ text.toList) : EndsTight text := by
  rintro front word - rfl
  simp at solid

/-- A text that ends with something that is neither a word nor has a blank. -/
theorem of_mark {tail : String} (solid : ' ' ∉ tail.toList) {c : Char} (member : c ∈ tail.toList)
    (isMark : continuesWord c = false) (front : String) : EndsTight (front ++ tail) := by
  intro before word isWord same
  have split : front.toList ++ tail.toList = (before.toList ++ [' ']) ++ word.toList := by
    simpa using congrArg String.toList same
  rcases List.append_eq_append_iff.mp split with ⟨middle, isFront, isTail⟩ | ⟨middle, -, isWordTail⟩
  · cases middle using List.reverseRecOn with
    | nil =>
        rw [List.nil_append] at isTail
        have := isWord.continues c (isTail ▸ member)
        rw [isMark] at this
        cases this
    | append_singleton items last =>
        rw [← List.append_assoc] at isFront
        obtain rfl : ' ' = last := List.singleton_inj.mp (List.append_inj' isFront rfl).2
        exact solid (isTail ▸ List.mem_append_left _ (List.mem_append_right _ (by simp)))
  · have := isWord.continues c (isWordTail ▸ List.mem_append_right _ member)
    rw [isMark] at this
    cases this

theorem of_word {text : String} (isWord : IsWord text.toList) : EndsTight text :=
  of_solid (solid_of_word isWord)

/-- A dotted name with type arguments, also behind a word and `::`. -/
theorem of_name (qualifier : Option String) (before : List String) {name : String}
    (isWord : IsWord name.toList) (arguments : List String) :
    EndsTight (TypeExpr.rootText qualifier ++
      ".".intercalate (before ++ [name ++ angled arguments])) := by
  rw [intercalate_concat_append, ← String.append_assoc]
  have solid : ' ' ∉ name.toList := solid_of_word isWord
  cases arguments with
  | cons first rest =>
      rw [angled, if_neg (List.cons_ne_nil _ _), ← String.append_assoc, ← String.append_assoc]
      exact of_mark (c := '>') (by decide) (by decide) (by decide) _
  | nil =>
      rw [angled, if_pos rfl, String.append_empty]
      cases before with
      | cons first rest =>
          rw [String.intercalate_append_of_ne_nil (List.cons_ne_nil _ _) (List.cons_ne_nil _ _),
            String.intercalate_singleton, String.append_assoc, ← String.append_assoc]
          refine of_mark (c := '.') ?_ ?_ (by decide) _
          · simpa using solid
          · simp
      | nil =>
          rw [List.nil_append, String.intercalate_singleton]
          cases qualifier with
          | none =>
              rw [TypeExpr.rootText, String.empty_append]
              exact of_word isWord
          | some word =>
              rw [TypeExpr.rootText, String.append_assoc]
              refine of_mark (c := ':') ?_ ?_ (by decide) _
              · simpa using solid
              · simp

/-- What stands in front of the name of an element is told apart from the name. -/
theorem eq_of_nameText {text other : String} (tight : EndsTight text) (otherTight : EndsTight other)
    {name otherName : Option String} (words : ∀ word ∈ name, IsWord word.toList)
    (otherWords : ∀ word ∈ otherName, IsWord word.toList)
    (same : text ++ TupleElement.nameText name = other ++ TupleElement.nameText otherName) :
    text = other := by
  cases name with
  | none =>
      cases otherName with
      | none => simpa [TupleElement.nameText] using same
      | some word =>
          rw [TupleElement.nameText, TupleElement.nameText, String.append_empty,
            ← String.append_assoc] at same
          exact absurd same (tight _ _ (otherWords word rfl))
  | some word =>
      cases otherName with
      | none =>
          rw [TupleElement.nameText, TupleElement.nameText, String.append_empty,
            ← String.append_assoc] at same
          exact absurd same.symm (otherTight _ _ (words word rfl))
      | some otherWord =>
          have split : text.toList ++ ' ' :: word.toList =
              other.toList ++ ' ' :: otherWord.toList := by
            simpa [TupleElement.nameText] using congrArg String.toList same
          exact String.toList_inj.mp
            (eq_of_last_blank (solid_of_word (words word rfl))
              (solid_of_word (otherWords otherWord rfl)) split)

end EndsTight

section Types

variable {types : List DeclaredType} {scope : Scope}

theorem TypeExpr.IsProper.endsTight (placed : ∀ head ∈ types, head.IsPlaced)
    (noAlias : scope.HasNoAlias) {type : TypeExpr} (proper : type.IsProper) :
    EndsTight (type.bind types scope).text := by
  cases proper with
  | @predefined keyword span known =>
      have solid : ∀ word ∈ keywords, ' ' ∉ word.toList := by decide
      rw [TypeExpr.bind, bindWith_predefined, BoundType.text, BoundType.render_eq rfl]
      simpa [BoundType.simple, BoundType.qualifierText, angled] using
        EndsTight.of_solid (solid keyword known)
  | nullable proper =>
      rw [text_bind_nullable]
      exact .of_mark (c := '?') (by decide) (by decide) (by decide) _
  | pointer proper =>
      rw [text_bind_pointer]
      exact .of_mark (c := '*') (by decide) (by decide) (by decide) _
  | array proper =>
      rw [text_bind_array, arraySuffix, ← String.append_assoc]
      exact .of_mark (c := ']') (by decide) (by decide) (by decide) _
  | tuple nonempty proper =>
      rw [text_bind_tuple nonempty]
      exact .of_mark (c := ')') (by decide) (by decide) (by decide) _
  | @named qualifier segments span nonempty words arguments =>
      obtain ⟨before, last, rfl⟩ : ∃ before last, segments = before ++ [last] :=
        ⟨segments.dropLast, segments.getLast nonempty, (List.dropLast_append_getLast nonempty).symm⟩
      have isWord : IsWord last.name.toList := words last (by simp)
      by_cases isParameter : NameSegment.NamesParameter scope qualifier (before ++ [last])
      · obtain ⟨name, known, rfl, isName⟩ := isParameter
        rw [isName] at words ⊢
        rw [bind_parameter known, BoundType.text, BoundType.render_eq rfl]
        simpa [BoundType.parameter, BoundType.simple, BoundType.qualifierText, angled] using
          EndsTight.of_word (words ⟨name, []⟩ List.mem_cons_self)
      · cases found : scope.declared? types qualifier (NameSegment.dotted (before ++ [last])) with
        | some head =>
            have isPlaced := placed head (Scope.of_declared? found).1
            have isText := isPlaced.render_reference
              (last.arguments.map fun argument => argument.bind types scope)
            rw [bind_named_of_notParameter noAlias isParameter, found]
            simp only [BoundType.text, isText, isPlaced.fullName, DeclaredType.path,
              ← intercalate_concat_append]
            have tight := EndsTight.of_name none head.outer isPlaced.proper.name
              ((last.arguments.map fun argument => argument.bind types scope).map
                (BoundType.render []))
            rwa [rootText, String.empty_append] at tight
        | none =>
            rw [BoundType.text, render_bind_undeclared noAlias nonempty
              (fun segment member => (words segment member).ne_empty) found, List.map_append,
              List.map_singleton, BoundSegment.text_eq]
            exact .of_name qualifier _ isWord _

/-- Two types that differ in one part: as a whole, or in one element of a tuple, which
may also have another name. -/
inductive TypeExpr.DifferIn (part other : TypeExpr) : TypeExpr → TypeExpr → Prop
  | whole : DifferIn part other part other
  | element (before behind : List TupleElement) (name otherName : Option String)
      (span otherSpan : Span) :
      DifferIn part other (.tuple (before ++ ⟨part, name⟩ :: behind) span)
        (.tuple (before ++ ⟨other, otherName⟩ :: behind) otherSpan)

/-- Types that differ in a part with another spelling are spelled differently. -/
theorem TypeExpr.DifferIn.text_bind_ne (placed : ∀ head ∈ types, head.IsPlaced)
    (noAlias : scope.HasNoAlias) {part other inner otherInner : TypeExpr}
    (differ : DifferIn part other inner otherInner) (formed : inner.IsWellFormed)
    (otherFormed : otherInner.IsWellFormed)
    (different : (part.bind types scope).text ≠ (other.bind types scope).text) :
    (inner.bind types scope).text ≠ (otherInner.bind types scope).text := by
  cases differ with
  | whole => exact different
  | element before behind name otherName span otherSpan =>
      cases formed with
      | tuple nonempty formed words =>
        cases otherFormed with
        | tuple otherNonempty otherFormed otherWords =>
          intro same
          have around : Surrounds (fun item => "(" ++ ", ".intercalate
              (before.map (TupleElement.boundText types scope) ++
                item :: behind.map (TupleElement.boundText types scope)) ++ ")") id :=
            .trans ⟨"(", ")", fun _ => rfl⟩ (.intercalate _ _ _ id)
          rw [text_bind_tuple nonempty, text_bind_tuple otherNonempty, List.map_append,
            List.map_append, List.map_cons, List.map_cons] at same
          have proper := formed ⟨part, name⟩ (by simp)
          have otherProper := otherFormed ⟨other, otherName⟩ (by simp)
          exact different ((proper.isProper.endsTight placed noAlias).eq_of_nameText
            (otherProper.isProper.endsTight placed noAlias) (words ⟨part, name⟩ (by simp))
            (otherWords ⟨other, otherName⟩ (by simp)) (around.eq_iff.mp same))

end Types

end Elements

/-- What stands in the hole of a well-formed type is well formed. -/
theorem TypeContext.isWellFormed_of_plug {context : TypeContext} {part : TypeExpr}
    (formed : (context.plug part).IsWellFormed) : part.IsWellFormed := by
  induction context with
  | hole => exact formed
  | nullable inside ih | pointer inside ih => cases formed with | _ formed => exact ih formed
  | array inside rank ih => cases formed with | array formed => exact ih formed
  | element before inside name behind ih =>
      cases formed with
      | tuple _ formed => exact ih (formed ⟨inside.plug part, name⟩ (by simp))
  | argument qualifier front name before inside behind rest ih =>
      obtain ⟨-, -, -, each⟩ := TypeExpr.isWellFormed_named_iff.mp formed
      have here := each ⟨name, before ++ inside.plug part :: behind⟩ (by simp)
      exact ih (here.2 _ (by simp))

/-- Two types of parsed files that differ in one type argument or in one tuple
element, at any depth, where the parts are bound to types with different spellings.
Without aliases in scope the two types are bound to types with different spellings
as well, just if the parts do not stand in the type arguments of a qualifier whose
name means a declaration. -/
theorem TypeContext.text_bind_ne_iff {units : List SourceUnit}
    (parsed : ∀ unit ∈ units, unit.IsParsed) {scope : Scope} (noAlias : scope.HasNoAlias)
    {context : TypeContext} {part other inner otherInner outer otherOuter : TypeExpr}
    (differ : TypeExpr.DifferIn part other inner otherInner)
    (isOuter : outer.unplaced = (context.plug inner).unplaced)
    (isOther : otherOuter.unplaced = (context.plug otherInner).unplaced)
    (formed : outer.IsWellFormed) (otherFormed : otherOuter.IsWellFormed) :
    let known := TypeTable.heads (units.flatMap SourceUnit.types)
    (part.bind known scope).text ≠ (other.bind known scope).text →
      ((outer.bind known scope).text ≠ (otherOuter.bind known scope).text ↔
        context.Keeps known scope) := by
  intro known different
  have plugged : (context.plug inner).IsWellFormed := .of_unplaced (isOuter ▸ formed.unplaced)
  have otherPlugged : (context.plug otherInner).IsWellFormed :=
    .of_unplaced (isOther ▸ otherFormed.unplaced)
  have innerDifferent := differ.text_bind_ne (TypeTable.isPlaced_of_mem_heads parsed) noAlias
    (isWellFormed_of_plug plugged) (isWellFormed_of_plug otherPlugged) different
  rw [TypeExpr.bind_eq_of_unplaced_eq known scope isOuter,
    TypeExpr.bind_eq_of_unplaced_eq known scope isOther]
  constructor
  · intro outerDifferent
    by_contra lost
    exact outerDifferent (congrArg BoundType.text (bind_plug_of_not_keeps lost noAlias _ _))
  · exact fun keeps same =>
      innerDifferent ((keeps.surrounds noAlias plugged.isProper).eq_iff.mp same)

/-- A generic class with a nested one. -/
private def outerText : String :=
  "class Outer<T> \x7b class Inner \x7b \x7d \x7d"

/-- The type `Outer<…>.Inner`. -/
private def ofOuter : TypeContext :=
  .argument none [] "Outer" [] .hole [] [⟨"Inner", []⟩]

/-- The argument of the outer class leaves no trace in the spelling of the nested
class. -/
theorem TypeContext.text_bind_ne_iff_of_nested :
    ∃ unit, SourceUnit.parse outerText "Outer.cs" = .ok unit ∧
      let known := TypeTable.heads ([unit].flatMap SourceUnit.types)
      let int := TypeExpr.predefined "int" .nowhere
      let string := TypeExpr.predefined "string" .nowhere
      (int.bind known {}).text ≠ (string.bind known {}).text ∧
        ((ofOuter.plug int).bind known {}).text = ((ofOuter.plug string).bind known {}).text := by
  have seen : (SourceUnit.parse outerText "Outer.cs").toOption.map (fun unit =>
      (Scope.declared? {} (TypeTable.heads ([unit].flatMap SourceUnit.types)) none
        "Outer.Inner").isSome) = some true := by
    decide +kernel
  obtain ⟨unit, isUnit, parsed, isSome⟩ := SourceUnit.exists_of_parse seen
  obtain ⟨head, found⟩ := Option.isSome_iff_exists.mp isSome
  have formed (keyword : String) (known : keyword ∈ TypeExpr.keywords) :
      (ofOuter.plug (.predefined keyword .nowhere)).IsWellFormed :=
    .named (show "Outer" ∉ TypeExpr.keywords by decide) nofun
      (List.forall_mem_cons.mpr ⟨show Lexeme.IsWord "Outer".toList by decide,
        List.forall_mem_singleton.mpr (by decide)⟩)
      (List.forall_mem_cons.mpr ⟨List.forall_mem_singleton.mpr (.predefined known),
        List.forall_mem_singleton.mpr nofun⟩)
  have lost : ¬ ofOuter.Keeps (TypeTable.heads ([unit].flatMap SourceUnit.types)) {} := by
    rintro ⟨nothing | undeclared, -⟩
    · cases nothing
    · cases found.symm.trans undeclared
  have different (types : List DeclaredType) :
      ((TypeExpr.predefined "int" .nowhere).bind types {}).text ≠
        ((TypeExpr.predefined "string" .nowhere).bind types {}).text := by
    simp only [TypeExpr.bind, TypeExpr.bindWith_predefined]
    decide
  have noAlias : Scope.HasNoAlias {} := List.forall_mem_nil _
  have iff := TypeContext.text_bind_ne_iff parsed noAlias .whole rfl rfl
    (formed "int" (by decide)) (formed "string" (by decide)) (different _)
  exact ⟨unit, isUnit, different _, not_not.mp (mt iff.mp lost)⟩

end ErrorAccessors
