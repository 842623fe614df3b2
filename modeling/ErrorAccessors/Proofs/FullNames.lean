/-
# Full names in a spelled type

A bound type that refers to a declaration is spelled with the full name of the
declaration: the parts of its namespace, the types around it and its name, with
dots between them.  So the spelling of a bound type is again the text of a type,
namely of the one that was bound with all names of declarations written in full
(`TypeExpr.qualified`).  Names that mean no declaration stay as they were.
-/

import ErrorAccessors.Proofs.RenderedTypes
import ErrorAccessors.Proofs.ReturnReadings
import ErrorAccessors.Proofs.UnplacedBinding

namespace ErrorAccessors

section Joined

/-- Texts that are put together one by one, with a separator between them. -/
private theorem eq_intercalate {α : Type} {all : List α → String} {one : α → String}
    {separator : String} (nothing : all [] = "") (single : ∀ item, all [item] = one item)
    (more : ∀ item next rest, all (item :: next :: rest) =
      one item ++ separator ++ all (next :: rest)) (items : List α) :
    all items = separator.intercalate (items.map one) := by
  induction items with
  | nil => exact nothing
  | cons item rest ih =>
      cases rest with
      | nil => simp [single]
      | cons next rest => simp [more, ih, String.intercalate_cons_cons]

theorem TypeExpr.textOfList_eq (types : List TypeExpr) :
    textOfList types = ", ".intercalate (types.map text) :=
  eq_intercalate rfl (fun _ => rfl) (fun _ _ _ => rfl) types

theorem NameSegment.textOfList_eq (segments : List NameSegment) :
    textOfList segments = ".".intercalate (segments.map text) :=
  eq_intercalate rfl (fun _ => rfl) (fun _ _ _ => rfl) segments

theorem TupleElement.textOfList_eq (elements : List TupleElement) :
    textOfList elements = ", ".intercalate (elements.map text) :=
  eq_intercalate rfl (fun _ => rfl) (fun _ _ _ => rfl) elements

theorem BoundType.renderList_eq (generics : List String) (types : List BoundType) :
    renderList generics types = ", ".intercalate (types.map (render generics)) :=
  eq_intercalate rfl (fun _ => rfl) (fun _ _ _ => rfl) types

theorem BoundElement.renderList_eq (generics : List String) (elements : List BoundElement) :
    renderList generics elements = ", ".intercalate (elements.map (render generics)) :=
  eq_intercalate rfl (fun _ => rfl) (fun _ _ _ => rfl) elements

theorem intercalate_concat_append (separator : String) (front : List String)
    (last behind : String) :
    separator.intercalate (front ++ [last ++ behind]) =
      separator.intercalate (front ++ [last]) ++ behind := by
  cases front with
  | nil => simp
  | cons first rest =>
      rw [String.intercalate_append_of_ne_nil (List.cons_ne_nil _ _) (List.cons_ne_nil _ _),
        String.intercalate_append_of_ne_nil (List.cons_ne_nil _ _) (List.cons_ne_nil _ _),
        String.intercalate_singleton, String.intercalate_singleton, String.append_assoc,
        String.append_assoc, String.append_assoc]

/-- Type arguments behind a name, if there are any. -/
def angled (arguments : List String) : String :=
  if arguments = [] then "" else "<" ++ ", ".intercalate arguments ++ ">"

theorem NameSegment.text_eq (segment : NameSegment) :
    segment.text = segment.name ++ angled (segment.arguments.map TypeExpr.text) := by
  obtain ⟨name, arguments⟩ := segment
  cases arguments with
  | nil => simp [text, angled]
  | cons first rest => simp [text, angled, TypeExpr.textOfList_eq, String.append_assoc]

theorem BoundSegment.text_eq (segment : BoundSegment) :
    segment.text = segment.name ++ angled (segment.arguments.map (BoundType.render [])) := by
  obtain ⟨name, arguments⟩ := segment
  cases arguments with
  | nil => simp [text, angled]
  | cons first rest => simp [text, angled, BoundType.renderList_eq, String.append_assoc]

section Rendering

variable {type : BoundType} (generics : List String)

theorem BoundType.render_of_elements (several : type.elements ≠ []) :
    type.render generics =
      "(" ++ ", ".intercalate (type.elements.map (BoundElement.render generics)) ++ ")" ++
        type.suffix := by
  obtain ⟨name, space, container, arguments, elements, suffix, isParameter⟩ := type
  cases elements with
  | nil => exact absurd rfl several
  | cons first rest => rw [render, BoundElement.renderList_eq]

theorem BoundType.render_of_arguments (single : type.elements = [])
    (generic : type.arguments ≠ []) :
    type.render generics =
      qualifierText type.space ++ qualifierText type.container ++ type.name ++ "<" ++
        ", ".intercalate (type.arguments.map (render generics)) ++ ">" ++ type.suffix := by
  obtain ⟨name, space, container, arguments, elements, suffix, isParameter⟩ := type
  obtain rfl : elements = [] := single
  cases arguments with
  | nil => exact absurd rfl generic
  | cons first rest => rw [render, renderList_eq]

theorem BoundType.render_of_bare (single : type.elements = []) (bare : type.arguments = []) :
    type.render generics =
      if type.name ∈ generics then type.name ++ type.suffix
      else qualifierText type.space ++ qualifierText type.container ++ type.name ++
        type.suffix := by
  obtain ⟨name, space, container, arguments, elements, suffix, isParameter⟩ := type
  obtain rfl : elements = [] := single
  obtain rfl : arguments = [] := bare
  simp only [render, List.contains_iff_mem]

theorem BoundType.render_eq (single : type.elements = []) :
    type.render [] = qualifierText type.space ++ qualifierText type.container ++ type.name ++
      angled (type.arguments.map (render [])) ++ type.suffix := by
  by_cases bare : type.arguments = []
  · rw [render_of_bare _ single bare, if_neg List.not_mem_nil, bare, List.map_nil, angled,
      if_pos rfl, String.append_empty]
  · rw [render_of_arguments _ single bare, angled, if_neg (mt List.map_eq_nil_iff.mp bare)]
    simp only [String.append_assoc]

theorem BoundType.render_tuple {elements : List BoundElement} (some : elements ≠ []) :
    (tuple elements).render generics =
      "(" ++ ", ".intercalate (elements.map (BoundElement.render generics)) ++ ")" := by
  have several : (tuple elements).elements ≠ [] := some
  rw [render_of_elements generics several]
  exact String.append_empty

end Rendering

theorem BoundType.render_withSuffix (type : BoundType) (suffix : String) (generics : List String) :
    (type.withSuffix suffix).render generics = type.render generics ++ suffix := by
  obtain ⟨name, space, container, arguments, elements, before, isParameter⟩ := type
  cases elements with
  | cons element rest => simp [withSuffix, render, String.append_assoc]
  | nil =>
      cases arguments with
      | cons argument rest => simp [withSuffix, render, String.append_assoc]
      | nil =>
          simp only [withSuffix, render]
          split <;> simp [String.append_assoc]

end Joined

section Parts

/-- The parts of a dotted name are the words that it was joined from. -/
theorem IsDottedName.dottedParts {name first : String} {others : List String}
    (isName : IsDottedName name first others) : Text.dottedParts name = first :: others := by
  have split : Text.splitAt (· = '.') name.toList = (first :: others).map String.toList := by
    obtain ⟨rfl, words⟩ := isName
    induction others generalizing first with
    | nil =>
        rw [String.intercalate_singleton]
        exact Text.splitAt_of_notMem (words first List.mem_cons_self).dot_notMem
    | cons second others ih =>
        obtain ⟨isFirst, areOthers⟩ := List.forall_mem_cons.mp words
        have isText : (".".intercalate (first :: second :: others)).toList =
            first.toList ++ '.' :: (".".intercalate (second :: others)).toList := by
          simp [String.intercalate_cons_cons]
        rw [isText, Text.splitAt_append, Text.splitAt_of_notMem isFirst.dot_notMem, ih areOthers]
        rfl
  have nonempty : ∀ part ∈ (first :: others).map String.toList, decide (part ≠ []) = true := by
    refine List.forall_mem_map.mpr fun word member => ?_
    have isText := (isName.words word member).ne_empty
    simpa [String.toList_eq_nil_iff] using isText
  rw [Text.dottedParts, split, List.filter_eq_self.mpr nonempty, List.map_map]
  exact List.map_id'' (fun _ => String.ofList_toList) _

namespace DeclaredType

/-- The parts of a full name in front of the name itself: those of the namespace,
and the types around. -/
def outer (head : DeclaredType) : List String :=
  Text.dottedParts head.space ++ head.containers

/-- The parts of a full name. -/
def path (head : DeclaredType) : List String :=
  head.outer ++ [head.name]

variable {head : DeclaredType}

theorem IsProper.path_words (proper : head.IsProper) :
    ∀ word ∈ head.path, Lexeme.IsWord word.toList := by
  refine List.forall_mem_append.mpr ⟨List.forall_mem_append.mpr ⟨?_, proper.containers⟩,
    List.forall_mem_singleton.mpr proper.name⟩
  by_cases outside : head.space = ""
  · rw [outside]
    exact List.forall_mem_nil _
  · obtain ⟨first, others, isName⟩ := proper.space outside
    rw [isName.dottedParts]
    exact isName.words

/-- The namespace and the types around, as they stand in front of a name. -/
theorem IsProper.qualifierText_eq (proper : head.IsProper) :
    BoundType.qualifierText (nonempty? head.space) ++
        BoundType.qualifierText (nonempty? (".".intercalate head.containers)) ++ head.name =
      ".".intercalate head.path := by
  have inFront (words : List String) (some : ∀ word ∈ words, word ≠ "") {rest : List String}
      (nonempty : rest ≠ []) :
      BoundType.qualifierText (nonempty? (".".intercalate words)) ++ ".".intercalate rest =
        ".".intercalate (words ++ rest) := by
    cases words with
    | nil => simp [nonempty?, BoundType.qualifierText]
    | cons first others =>
        have nonempty' : ".".intercalate (first :: others) ≠ "" := by
          have isFirst := some first List.mem_cons_self
          cases others with
          | nil => simpa using isFirst
          | cons second others => simp [String.intercalate_cons_cons]
        rw [nonempty?, if_neg nonempty', String.intercalate_append_of_ne_nil (List.cons_ne_nil _ _)
          nonempty]
        rfl
  have isSpace : head.space = ".".intercalate (Text.dottedParts head.space) := by
    by_cases outside : head.space = ""
    · rw [outside]
      rfl
    · obtain ⟨first, others, isName⟩ := proper.space outside
      rw [isName.dottedParts]
      exact isName.isName
  have parts := List.forall_mem_append.mp
    (List.forall_mem_append.mp proper.path_words).1
  have name : ".".intercalate [head.name] = head.name := String.intercalate_singleton
  rw [String.append_assoc, ← name, inFront head.containers
    (fun word member => (parts.2 word member).ne_empty) (List.cons_ne_nil _ _)]
  nth_rewrite 1 [isSpace]
  rw [inFront _ (fun word member => (parts.1 word member).ne_empty) (by simp), path, outer,
    List.append_assoc]

end DeclaredType

end Parts

/-- The declared type that a dotted name means.  A qualified name is looked up by
its full name alone. -/
def Scope.declared? (scope : Scope) (types : List DeclaredType) (qualifier : Option String)
    (dotted : String) : Option DeclaredType :=
  let names :=
    match qualifier with
    | some _ => [dotted]
    | none => scope.candidates dotted
  names.findSome? fun name => types.find? fun type => type.fullName == name

/-- The parts of a dotted name, joined. -/
def NameSegment.dotted (segments : List NameSegment) : String :=
  Text.joinDotted (segments.map (·.name))

/-- The full name of a declared type, with type arguments behind it. -/
def DeclaredType.segments (head : DeclaredType) (arguments : List TypeExpr) : List NameSegment :=
  head.outer.map (⟨·, []⟩) ++ [⟨head.name, arguments⟩]

section Qualified

variable (types : List DeclaredType) (scope : Scope)

mutual

/-- A type with the names of declarations written in full. -/
def TypeExpr.qualified : TypeExpr → TypeExpr
  | .predefined keyword span => .predefined keyword span
  | .nullable inner span => .nullable inner.qualified span
  | .array element rank span => .array element.qualified rank span
  | .pointer inner span => .pointer inner.qualified span
  | .tuple elements span => .tuple (TupleElement.qualifiedList elements) span
  | .named qualifier segments span =>
    let qualified := NameSegment.qualifiedList segments
    match scope.declared? types qualifier (NameSegment.dotted segments) with
    | some head =>
      .named none (head.segments ((qualified.getLast?.map (·.arguments)).getD [])) span
    | none => .named qualifier qualified span

/-- Types with the names of declarations written in full. -/
def TypeExpr.qualifiedList : List TypeExpr → List TypeExpr
  | [] => []
  | type :: rest => type.qualified :: TypeExpr.qualifiedList rest

/-- Parts of a name whose arguments have the names of declarations written in
full. -/
def NameSegment.qualifiedList : List NameSegment → List NameSegment
  | [] => []
  | ⟨name, arguments⟩ :: rest =>
    ⟨name, TypeExpr.qualifiedList arguments⟩ :: NameSegment.qualifiedList rest

/-- Tuple elements with the names of declarations written in full. -/
def TupleElement.qualifiedList : List TupleElement → List TupleElement
  | [] => []
  | ⟨type, name⟩ :: rest => ⟨type.qualified, name⟩ :: TupleElement.qualifiedList rest

end

/-- A part of a name whose arguments have the names of declarations written in
full. -/
def NameSegment.qualified (segment : NameSegment) : NameSegment :=
  ⟨segment.name, segment.arguments.map (TypeExpr.qualified types scope)⟩

/-- A tuple element with the names of declarations written in full. -/
def TupleElement.qualified (element : TupleElement) : TupleElement :=
  ⟨element.type.qualified types scope, element.name⟩

/-- What is done to the items of a list one by one is done by a map. -/
private theorem eq_map {α β : Type} {all : List α → List β} {one : α → β} (nothing : all [] = [])
    (more : ∀ item rest, all (item :: rest) = one item :: all rest) (items : List α) :
    all items = items.map one := by
  induction items with
  | nil => exact nothing
  | cons item rest ih => rw [more, ih, List.map_cons]

theorem TypeExpr.qualifiedList_eq_map (list : List TypeExpr) :
    qualifiedList types scope list = list.map (qualified types scope) :=
  eq_map rfl (fun _ _ => rfl) list

theorem NameSegment.qualifiedList_eq_map (segments : List NameSegment) :
    qualifiedList types scope segments = segments.map (qualified types scope) := by
  refine eq_map rfl (fun ⟨name, arguments⟩ rest => ?_) segments
  rw [qualified, ← TypeExpr.qualifiedList_eq_map]
  rfl

theorem TupleElement.qualifiedList_eq_map (elements : List TupleElement) :
    qualifiedList types scope elements = elements.map (qualified types scope) :=
  eq_map rfl (fun ⟨_, _⟩ _ => rfl) elements

namespace TypeExpr

@[simp] theorem qualified_predefined (keyword : String) (span : Span) :
    (predefined keyword span).qualified types scope = predefined keyword span :=
  rfl

@[simp] theorem qualified_nullable (inner : TypeExpr) (span : Span) :
    (nullable inner span).qualified types scope =
      nullable (inner.qualified types scope) span :=
  rfl

@[simp] theorem qualified_pointer (inner : TypeExpr) (span : Span) :
    (pointer inner span).qualified types scope = pointer (inner.qualified types scope) span :=
  rfl

@[simp] theorem qualified_array (element : TypeExpr) (rank : Nat) (span : Span) :
    (array element rank span).qualified types scope =
      array (element.qualified types scope) rank span :=
  rfl

@[simp] theorem qualified_tuple (elements : List TupleElement) (span : Span) :
    (tuple elements span).qualified types scope =
      tuple (elements.map (TupleElement.qualified types scope)) span :=
  congrArg (tuple · span) (TupleElement.qualifiedList_eq_map types scope elements)

variable {types scope}

/-- A name that means a declaration is replaced by the full name of it. -/
theorem qualified_of_declared {qualifier : Option String} {before : List NameSegment}
    {last : NameSegment} {head : DeclaredType}
    (found : scope.declared? types qualifier (NameSegment.dotted (before ++ [last])) = some head)
    (span : Span) :
    (named qualifier (before ++ [last]) span).qualified types scope =
      named none (head.segments (last.arguments.map (qualified types scope))) span := by
  rw [qualified, found]
  simp [NameSegment.qualifiedList_eq_map, NameSegment.qualified]

/-- A name that means no declaration stays as it is. -/
theorem qualified_of_undeclared {qualifier : Option String} {segments : List NameSegment}
    (undeclared : scope.declared? types qualifier (NameSegment.dotted segments) = none)
    (span : Span) :
    (named qualifier segments span).qualified types scope =
      named qualifier (segments.map (NameSegment.qualified types scope)) span := by
  rw [qualified, undeclared, NameSegment.qualifiedList_eq_map]

end TypeExpr

end Qualified

section Spelling

variable {types : List DeclaredType} {scope : Scope}

/-- A declared type that a name means, and how it was found. -/
theorem Scope.of_declared? {qualifier : Option String} {dotted : String} {head : DeclaredType}
    (found : scope.declared? types qualifier dotted = some head) :
    head ∈ types ∧ types.find? (fun type => type.fullName == head.fullName) = some head := by
  obtain ⟨name, -, isFound⟩ := List.exists_of_findSome?_eq_some found
  have isName : head.fullName = name := by simpa using List.find?_some isFound
  exact ⟨List.mem_of_find?_eq_some isFound, isName ▸ isFound⟩

/-- A part of a name with its arguments bound in a scope. -/
def NameSegment.bound (types : List DeclaredType) (scope : Scope) (segment : NameSegment) :
    BoundSegment :=
  ⟨segment.name, segment.arguments.map fun type => type.bind types scope⟩

/-- Binding the arguments of a name does not make it a plain one. -/
theorem NameSegment.eq_of_map_bound {segments : List NameSegment} {name : String}
    (isPlain : segments.map (bound types scope) = [⟨name, []⟩]) : segments = [⟨name, []⟩] := by
  obtain ⟨⟨other, arguments⟩, isOnly, same⟩ := List.map_eq_singleton_iff.mp isPlain
  obtain ⟨rfl, noArguments⟩ := BoundSegment.mk.inj same
  obtain rfl : arguments = [] := List.map_eq_nil_iff.mp noArguments
  exact isOnly

/-- A name that is a type parameter in scope. -/
def NameSegment.NamesParameter (scope : Scope) (qualifier : Option String)
    (segments : List NameSegment) : Prop :=
  ∃ name ∈ scope.typeParameters, qualifier = none ∧ segments = [⟨name, []⟩]

theorem TypeExpr.bind_parameter {name : String} (known : name ∈ scope.typeParameters)
    (types : List DeclaredType) (span : Span) :
    (named none [⟨name, []⟩] span).bind types scope = .parameter name := by
  rw [bind, bindWith_named]
  simp [NameSegment.bindWith, BoundSegment.resolve, BoundSegment.plain?, known]

/-- What a name means does not depend on its arguments. -/
theorem NameSegment.declared?_map_bound (qualifier : Option String) (segments : List NameSegment) :
    BoundSegment.declared? types scope qualifier (segments.map (bound types scope)) =
      scope.declared? types qualifier (dotted segments) := by
  simp only [BoundSegment.declared?, Scope.declared?, dotted, List.map_map]
  rfl

/-- A name that is neither a type parameter nor an alias either means a declared type or
stays as it was written. -/
theorem TypeExpr.bind_named_of_notPlain {qualifier : Option String} {before : List NameSegment}
    {last : NameSegment}
    (notPlain : BoundSegment.plain? scope (scope.expandAlias types) qualifier
      ((before ++ [last]).map (NameSegment.bound types scope)) = none) (span : Span) :
    (named qualifier (before ++ [last]) span).bind types scope =
      match scope.declared? types qualifier (NameSegment.dotted (before ++ [last])) with
      | some head => head.reference (last.arguments.map fun type => type.bind types scope)
      | none => BoundSegment.asWritten qualifier (before.map (NameSegment.bound types scope))
          (last.bound types scope) := by
  show (named qualifier (before ++ [last]) span).bindWith types scope (scope.expandAlias types) = _
  rw [bindWith_named]
  show BoundSegment.resolve types scope (scope.expandAlias types) qualifier
    ((before ++ [last]).map (NameSegment.bound types scope)) = _
  rw [BoundSegment.resolve, notPlain, NameSegment.declared?_map_bound]
  simp only [List.map_append, List.map_singleton, List.getLast?_append, List.getLast?_singleton,
    Option.some_or, List.dropLast_concat]
  rfl

/-- Without aliases in scope a name that is no type parameter either means a declared
type or stays as it was written. -/
theorem TypeExpr.bind_named_of_notParameter (noAlias : scope.HasNoAlias)
    {qualifier : Option String} {before : List NameSegment} {last : NameSegment}
    (notParameter : ¬ NameSegment.NamesParameter scope qualifier (before ++ [last])) (span : Span) :
    (named qualifier (before ++ [last]) span).bind types scope =
      match scope.declared? types qualifier (NameSegment.dotted (before ++ [last])) with
      | some head => head.reference (last.arguments.map fun type => type.bind types scope)
      | none => BoundSegment.asWritten qualifier (before.map (NameSegment.bound types scope))
          (last.bound types scope) := by
  refine bind_named_of_notPlain (Option.eq_none_iff_forall_ne_some.mpr fun type plain => ?_) span
  obtain ⟨name, isQualifier, isName, ⟨known, -⟩ | ⟨-, expands⟩⟩ := BoundSegment.plain?_eq_some plain
  · exact notParameter ⟨name, known, isQualifier, NameSegment.eq_of_map_bound isName⟩
  · rw [noAlias.expandAlias] at expands
    cases expands

/-- Without type parameters and aliases in scope a name either means a declared type
or stays as it was written. -/
theorem TypeExpr.bind_named (bare : scope.typeParameters = []) (noAlias : scope.HasNoAlias)
    (qualifier : Option String) (before : List NameSegment) (last : NameSegment) (span : Span) :
    (named qualifier (before ++ [last]) span).bind types scope =
      match scope.declared? types qualifier (NameSegment.dotted (before ++ [last])) with
      | some head => head.reference (last.arguments.map fun type => type.bind types scope)
      | none => BoundSegment.asWritten qualifier (before.map (NameSegment.bound types scope))
          (last.bound types scope) := by
  refine bind_named_of_notParameter noAlias ?_ span
  rintro ⟨name, known, -⟩
  rw [bare] at known
  exact List.not_mem_nil known

/-- A type refers to a declaration, itself or inside.  The arguments of the first
parts of a name are lost where the name means a declaration. -/
inductive TypeExpr.Mentions (types : List DeclaredType) (scope : Scope) :
    TypeExpr → DeclaredType → Prop
  | nullable {inner : TypeExpr} {span : Span} {head : DeclaredType}
      (inside : Mentions types scope inner head) : Mentions types scope (.nullable inner span) head
  | pointer {inner : TypeExpr} {span : Span} {head : DeclaredType}
      (inside : Mentions types scope inner head) : Mentions types scope (.pointer inner span) head
  | array {element : TypeExpr} {rank : Nat} {span : Span} {head : DeclaredType}
      (inside : Mentions types scope element head) :
      Mentions types scope (.array element rank span) head
  | tuple {elements : List TupleElement} {element : TupleElement} {span : Span}
      {head : DeclaredType} (member : element ∈ elements)
      (inside : Mentions types scope element.type head) :
      Mentions types scope (.tuple elements span) head
  | declared {qualifier : Option String} {segments : List NameSegment} {span : Span}
      {head : DeclaredType}
      (found : scope.declared? types qualifier (NameSegment.dotted segments) = some head) :
      Mentions types scope (.named qualifier segments span) head
  | argument {qualifier : Option String} {segments : List NameSegment} {segment : NameSegment}
      {argument : TypeExpr} {span : Span} {head : DeclaredType}
      (shown : scope.declared? types qualifier (NameSegment.dotted segments) = none ∨
        segments.getLast? = some segment)
      (part : segment ∈ segments) (member : argument ∈ segment.arguments)
      (inside : Mentions types scope argument head) :
      Mentions types scope (.named qualifier segments span) head

/-- A proper declaration whose full name is made of its parts. -/
structure DeclaredType.IsPlaced (head : DeclaredType) : Prop where
  proper : head.IsProper
  fullName : head.fullName = ".".intercalate head.path

theorem ScopedType.IsProper.isPlaced {type : ScopedType} (proper : type.IsProper) :
    (DeclaredType.ofScoped type).IsPlaced where
  proper := proper.declared
  fullName := by
    have kept : (type.scope.containers ++ [type.decl.name]).filter (fun part => part ≠ "") =
        type.scope.containers ++ [type.decl.name] := by
      rw [List.filter_eq_self, List.forall_mem_append]
      refine ⟨fun word member => ?_, ?_⟩
      · simpa using (proper.scope.containers word member).ne_empty
      · simpa using proper.name.ne_empty
    show Text.joinDotted (type.scope.space :: type.scope.containers ++ [type.decl.name]) =
      ".".intercalate (Text.dottedParts type.scope.space ++ type.scope.containers ++
        [type.decl.name])
    rw [Text.joinDotted, List.cons_append, List.append_assoc]
    by_cases outside : type.scope.space = ""
    · rw [List.filter_cons_of_neg (by simpa using outside), kept, outside]
      rfl
    · obtain ⟨first, others, isName⟩ := proper.scope.space outside
      rw [List.filter_cons_of_pos (by simpa using outside), kept, isName.dottedParts,
        String.intercalate_append_of_ne_nil (List.cons_ne_nil _ _) (by simp), ← isName.isName,
        ← List.singleton_append,
        String.intercalate_append_of_ne_nil (List.cons_ne_nil _ _) (by simp),
        String.intercalate_singleton]

theorem TypeTable.isPlaced_of_mem_heads {units : List SourceUnit}
    (parsed : ∀ unit ∈ units, unit.IsParsed) :
    ∀ head ∈ heads (units.flatMap SourceUnit.types), head.IsPlaced := by
  intro head member
  obtain ⟨type, declared, rfl⟩ := TypeTable.exists_of_mem_heads member
  exact (SourceUnit.isProper_of_mem parsed type declared).isPlaced

/-- A reference is spelled with the full name of the declaration. -/
theorem DeclaredType.IsPlaced.render_reference {head : DeclaredType} (placed : head.IsPlaced)
    (arguments : List BoundType) :
    (head.reference arguments).render [] =
      head.fullName ++ angled (arguments.map (BoundType.render [])) := by
  rw [BoundType.render_eq rfl]
  show _ ++ BoundType.qualifierText (nonempty? (".".intercalate head.containers)) ++ head.name ++
    angled (arguments.map (BoundType.render [])) ++ "" = _
  rw [String.append_empty, placed.fullName, ← placed.proper.qualifierText_eq]
  rfl

/-- The parts of a full name are spelled with dots between them. -/
theorem DeclaredType.IsPlaced.text_segments {head : DeclaredType} (placed : head.IsPlaced)
    (arguments : List TypeExpr) :
    NameSegment.textOfList (head.segments arguments) =
      head.fullName ++ angled (arguments.map TypeExpr.text) := by
  have outer : (head.outer.map fun name => (⟨name, []⟩ : NameSegment)).map NameSegment.text =
      head.outer := by
    rw [List.map_map]
    exact List.map_id'' (fun name => by simp [NameSegment.text_eq, angled]) _
  rw [NameSegment.textOfList_eq, segments, List.map_append, outer, placed.fullName, path,
    List.map_singleton, NameSegment.text_eq, intercalate_concat_append]

/-- The word in front of a name that is looked up from the root or an alias. -/
def TypeExpr.rootText : Option String → String
  | none => ""
  | some word => word ++ "::"

theorem TypeExpr.text_named (qualifier : Option String) (segments : List NameSegment)
    (span : Span) :
    (named qualifier segments span).text =
      rootText qualifier ++ NameSegment.textOfList segments := by
  cases qualifier with
  | none => rw [text, rootText, String.empty_append]
  | some word => rw [text, rootText]

theorem BoundSegment.intercalate_text_ne_empty {first : BoundSegment} (named : first.name ≠ "")
    (rest : List BoundSegment) : ".".intercalate ((first :: rest).map text) ≠ "" := by
  have isFirst : first.text ≠ "" := by
    rw [text_eq]
    simp [named]
  cases rest with
  | nil => simpa using isFirst
  | cons second others => simp [String.intercalate_cons_cons]

/-- A name that stays as it was written is spelled as it was written, apart from
its arguments. -/
theorem BoundSegment.render_asWritten (qualifier : Option String) {before : List BoundSegment}
    (named : ∀ segment ∈ before, segment.name ≠ "") (last : BoundSegment) :
    (asWritten qualifier before last).render [] =
      TypeExpr.rootText qualifier ++ ".".intercalate ((before ++ [last]).map text) := by
  have isLast : last.text = last.name ++ angled (last.arguments.map (BoundType.render [])) :=
    text_eq last
  rw [BoundType.render_eq rfl]
  cases before with
  | nil =>
      cases qualifier <;>
        simp [asWritten, BoundType.simple, BoundType.qualifierText, TypeExpr.rootText, isLast,
          String.append_assoc]
  | cons first rest =>
      have nonempty := intercalate_text_ne_empty (named first List.mem_cons_self) rest
      have joined : ".".intercalate ((first :: rest ++ [last]).map text) =
          ".".intercalate ((first :: rest).map text) ++ "." ++ last.text := by
        rw [List.map_append, String.intercalate_append_of_ne_nil (by simp) (by simp),
          List.map_singleton, String.intercalate_singleton]
      rw [joined, isLast]
      cases qualifier <;>
        simp only [asWritten, BoundType.simple, BoundType.qualifierText, TypeExpr.rootText,
          if_neg nonempty, String.append_assoc, String.append_empty, String.empty_append]

/-- Without aliases in scope a name that means no declared type is spelled as it was
written, apart from its arguments.  That also holds of a type parameter. -/
theorem TypeExpr.render_bind_undeclared (noAlias : scope.HasNoAlias) {qualifier : Option String}
    {segments : List NameSegment} (nonempty : segments ≠ [])
    (named : ∀ segment ∈ segments, segment.name ≠ "")
    (undeclared : scope.declared? types qualifier (NameSegment.dotted segments) = none)
    (span : Span) :
    ((TypeExpr.named qualifier segments span).bind types scope).render [] =
      rootText qualifier ++
        ".".intercalate (segments.map fun segment => (segment.bound types scope).text) := by
  by_cases isParameter : NameSegment.NamesParameter scope qualifier segments
  · obtain ⟨name, known, rfl, rfl⟩ := isParameter
    rw [bind_parameter known, BoundType.render_eq rfl]
    simp [BoundType.parameter, BoundType.simple, BoundType.qualifierText, angled, rootText,
      BoundSegment.text_eq, NameSegment.bound]
  · obtain ⟨before, last, rfl⟩ : ∃ before last, segments = before ++ [last] :=
      ⟨segments.dropLast, segments.getLast nonempty, (List.dropLast_append_getLast nonempty).symm⟩
    have named : ∀ segment ∈ before.map (NameSegment.bound types scope), segment.name ≠ "" :=
      List.forall_mem_map.mpr fun segment member => named segment (List.mem_append_left _ member)
    rw [bind_named_of_notParameter noAlias isParameter, undeclared]
    simp only [BoundSegment.render_asWritten qualifier named, List.map_append, List.map_map,
      List.map_singleton, Function.comp_def]

/-- The name of a tuple element, as it stands behind the type. -/
def TupleElement.nameText : Option String → String
  | none => ""
  | some name => " " ++ name

/-- The spelling of a tuple element with its type bound in a scope. -/
def TupleElement.boundText (types : List DeclaredType) (scope : Scope) (element : TupleElement) :
    String :=
  (element.type.bind types scope).text ++ nameText element.name

namespace TypeExpr

theorem text_bind_nullable (inner : TypeExpr) (span : Span) :
    ((nullable inner span).bind types scope).text = (inner.bind types scope).text ++ "?" :=
  BoundType.render_withSuffix _ _ _

theorem text_bind_pointer (inner : TypeExpr) (span : Span) :
    ((pointer inner span).bind types scope).text = (inner.bind types scope).text ++ "*" :=
  BoundType.render_withSuffix _ _ _

theorem text_bind_array (element : TypeExpr) (rank : Nat) (span : Span) :
    ((array element rank span).bind types scope).text =
      (element.bind types scope).text ++ arraySuffix rank :=
  BoundType.render_withSuffix _ _ _

theorem text_bind_tuple {elements : List TupleElement} (nonempty : elements ≠ []) (span : Span) :
    ((tuple elements span).bind types scope).text =
      "(" ++ ", ".intercalate (elements.map (TupleElement.boundText types scope)) ++ ")" := by
  have sameElement (element : TupleElement) :
      (element.bindWith types scope (scope.expandAlias types)).render [] =
        element.boundText types scope := by
    obtain ⟨type, name⟩ := element
    cases name with
    | none => exact (String.append_empty).symm
    | some name => exact String.append_assoc
  rw [bind, bindWith_tuple, BoundType.text,
    BoundType.render_tuple _ (mt List.map_eq_nil_iff.mp nonempty), List.map_map]
  exact congrArg ("(" ++ ", ".intercalate · ++ ")") (List.map_congr_left fun _ _ => sameElement _)

/-- Without aliases in scope a name that means a declared type is spelled with its full
name, and with the arguments of its last part. -/
theorem text_bind_declared (noAlias : scope.HasNoAlias) {qualifier : Option String}
    {before : List NameSegment} {last : NameSegment} {head : DeclaredType}
    (notParameter : ¬ NameSegment.NamesParameter scope qualifier (before ++ [last]))
    (found : scope.declared? types qualifier (NameSegment.dotted (before ++ [last])) = some head)
    (span : Span) :
    ((named qualifier (before ++ [last]) span).bind types scope).text =
      (head.reference []).text ++
        angled (last.arguments.map fun argument => (argument.bind types scope).text) := by
  rw [bind_named_of_notParameter noAlias notParameter, found]
  simp only [BoundType.text]
  rw [BoundType.render_eq rfl, BoundType.render_eq rfl]
  simp [DeclaredType.reference, BoundType.simple, angled, Function.comp_def]

end TypeExpr

/-- A tuple whose elements are spelled like bound types is spelled like the bound
tuple. -/
theorem TypeExpr.text_tuple_eq_render (view : TypeExpr → TypeExpr) {elements : List TupleElement}
    (nonempty : elements ≠ [])
    (same : ∀ element ∈ elements,
      (view element.type).text = (element.type.bind types scope).render []) (span : Span) :
    (tuple (elements.map fun element => ⟨view element.type, element.name⟩) span).text =
      ((tuple elements span).bind types scope).render [] := by
  have sameElement : ∀ element ∈ elements,
      (⟨view element.type, element.name⟩ : TupleElement).text = element.boundText types scope := by
    rintro ⟨type, name⟩ member
    have same : (view type).text = (type.bind types scope).text := same _ member
    cases name with
    | none => rw [TupleElement.text, TupleElement.boundText, same]; exact String.append_empty.symm
    | some name => rw [TupleElement.text, TupleElement.boundText, same]; exact String.append_assoc
  rw [TypeExpr.text, TupleElement.textOfList_eq, List.map_map]
  exact (congrArg ("(" ++ ", ".intercalate · ++ ")") (List.map_congr_left sameElement)).trans
    (text_bind_tuple nonempty span).symm

/-- A name that means no declared type, with arguments that are spelled like bound
types, is spelled like the bound name. -/
theorem TypeExpr.text_named_eq_render (noAlias : scope.HasNoAlias) (view : TypeExpr → TypeExpr)
    {qualifier : Option String} {segments : List NameSegment} (nonempty : segments ≠ [])
    (named : ∀ segment ∈ segments, segment.name ≠ "")
    (undeclared : scope.declared? types qualifier (NameSegment.dotted segments) = none)
    (same : ∀ segment ∈ segments, ∀ argument ∈ segment.arguments,
      (view argument).text = (argument.bind types scope).render []) (span : Span) :
    (TypeExpr.named qualifier
        (segments.map fun segment => ⟨segment.name, segment.arguments.map view⟩) span).text =
      ((TypeExpr.named qualifier segments span).bind types scope).render [] := by
  have sameSegment : ∀ segment ∈ segments,
      (⟨segment.name, segment.arguments.map view⟩ : NameSegment).text =
        (segment.bound types scope).text := by
    intro segment part
    rw [NameSegment.text_eq, BoundSegment.text_eq]
    simp only [NameSegment.bound, List.map_map]
    exact congrArg (segment.name ++ angled ·) (List.map_congr_left (same segment part))
  rw [text_named, NameSegment.textOfList_eq, List.map_map,
    render_bind_undeclared noAlias nonempty named undeclared]
  exact congrArg (fun texts => rootText qualifier ++ ".".intercalate texts)
    (List.map_congr_left sameSegment)

section Text

variable (placed : ∀ head ∈ types, head.IsPlaced) (bare : scope.typeParameters = [])
  (noAlias : scope.HasNoAlias)

include placed bare noAlias

/-- A bound type is spelled as the type that was bound, with the names of
declarations written in full. -/
theorem TypeExpr.IsProper.text_qualified {type : TypeExpr} (proper : type.IsProper) :
    (type.qualified types scope).text = (type.bind types scope).render [] := by
  induction proper with
  | predefined known =>
      rw [qualified_predefined, TypeExpr.text, TypeExpr.bind, bindWith_predefined,
        BoundType.render_eq rfl]
      simp [BoundType.simple, BoundType.qualifierText, angled]
  | nullable inner ih =>
      rw [qualified_nullable, TypeExpr.text, ih]
      exact (text_bind_nullable _ _).symm
  | pointer inner ih =>
      rw [qualified_pointer, TypeExpr.text, ih]
      exact (text_bind_pointer _ _).symm
  | array element ih =>
      rw [qualified_array, TypeExpr.text, ih]
      exact (text_bind_array _ _ _).symm
  | @tuple elements span some proper ih =>
      rw [qualified_tuple]
      exact text_tuple_eq_render _ some ih span
  | @named qualifier segments span some words _ ih =>
      cases found : scope.declared? types qualifier (NameSegment.dotted segments) with
      | some head =>
          obtain ⟨before, last, rfl⟩ : ∃ before last, segments = before ++ [last] :=
            ⟨segments.dropLast, segments.getLast some, (List.dropLast_append_getLast some).symm⟩
          have isPlaced := placed head (Scope.of_declared? found).1
          have sameArguments : (last.arguments.map (qualified types scope)).map TypeExpr.text =
              (last.arguments.map fun type => type.bind types scope).map (BoundType.render []) := by
            rw [List.map_map, List.map_map]
            exact List.map_congr_left (ih last (by simp))
          rw [bind_named bare noAlias, found]
          simp only [qualified_of_declared found, TypeExpr.text]
          rw [isPlaced.text_segments, isPlaced.render_reference, sameArguments]
      | none =>
          rw [qualified_of_undeclared found]
          exact text_named_eq_render noAlias _ some
            (fun segment member => (words segment member).ne_empty) found ih span

end Text

end Spelling

end ErrorAccessors
