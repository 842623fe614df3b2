/-
# Names that are captured

The full name of a declaration need not mean that declaration.  Names are looked
up from the inside out, and in a namespace `App` with an inner namespace
`App.Lib` the name `Lib.Item` means `App.Lib.Item` and not the `Lib.Item` of the
outermost namespace.  So the spelling of a bound type, which names every
declaration in full, means the bound type again just if no name in it is
captured.

A captured name means a declaration with a longer name.  That is why one
captured name cannot be made up for by another: spelling the type that was read
back gives a longer text.
-/

import ErrorAccessors.Proofs.FullNames
import ErrorAccessors.Proofs.TypeRoundTrip

namespace ErrorAccessors

section Lengths

/-- A text is at least as long as another, and longer unless a condition holds. -/
structure LongerUnless (condition : Prop) (text longer : String) : Prop where
  length_le : text.length ≤ longer.length
  holds : longer.length ≤ text.length → condition

namespace LongerUnless

variable {condition other : Prop} {text longer front behind : String}

theorem refl (text : String) : LongerUnless True text text := ⟨Nat.le_refl _, fun _ => trivial⟩

theorem imp (grows : LongerUnless condition text longer) (implies : condition → other) :
    LongerUnless other text longer :=
  ⟨grows.length_le, fun short => implies (grows.holds short)⟩

theorem append (first : LongerUnless condition text longer)
    (second : LongerUnless other front behind) :
    LongerUnless (condition ∧ other) (text ++ front) (longer ++ behind) := by
  have less := first.length_le
  have lessBehind := second.length_le
  constructor
  · rw [String.length_append, String.length_append]
    omega
  · intro short
    rw [String.length_append, String.length_append] at short
    exact ⟨first.holds (by omega), second.holds (by omega)⟩

theorem append_right (grows : LongerUnless condition text longer) (behind : String) :
    LongerUnless condition (text ++ behind) (longer ++ behind) :=
  (grows.append (refl behind)).imp And.left

theorem append_left (grows : LongerUnless condition text longer) (front : String) :
    LongerUnless condition (front ++ text) (front ++ longer) :=
  ((refl front).append grows).imp And.right

/-- Texts with a separator between them. -/
theorem intercalate {α : Type} {condition : α → Prop} {view other : α → String} {items : List α}
    (separator : String)
    (grows : ∀ item ∈ items, LongerUnless (condition item) (view item) (other item)) :
    LongerUnless (∀ item ∈ items, condition item) (separator.intercalate (items.map view))
      (separator.intercalate (items.map other)) := by
  induction items with
  | nil => exact (refl _).imp fun _ => List.forall_mem_nil _
  | cons item rest ih =>
      obtain ⟨first, later⟩ := List.forall_mem_cons.mp grows
      cases rest with
      | nil => simpa using first
      | cons next others =>
          simp only [List.map_cons, String.intercalate_cons_cons]
          exact ((first.append_right separator).append (ih later)).imp List.forall_mem_cons.mpr

/-- Type arguments behind a name. -/
theorem angled {α : Type} {condition : α → Prop} {view other : α → String} {items : List α}
    (grows : ∀ item ∈ items, LongerUnless (condition item) (view item) (other item)) :
    LongerUnless (∀ item ∈ items, condition item) (ErrorAccessors.angled (items.map view))
      (ErrorAccessors.angled (items.map other)) := by
  cases items with
  | nil => exact (refl _).imp fun _ => List.forall_mem_nil _
  | cons item rest => exact ((intercalate ", " grows).append_left "<").append_right ">"

end LongerUnless

end Lengths

section Capture

variable {types : List DeclaredType} {scope : Scope}

/-- A name may mean what is declared under it in the outermost namespace. -/
theorem Scope.mem_candidates_self {scope : Scope} {name : String} (nonempty : name ≠ "") :
    name ∈ scope.candidates name := by
  have outermost : [] ∈ beginnings (Text.dottedParts scope.space) := by
    refine List.mem_map.mpr ⟨0, ?_, rfl⟩
    simp
  have joined : Text.joinDotted ([] ++ [name]) = name := by simp [Text.joinDotted, nonempty]
  simp only [candidates, List.mem_append]
  exact .inl (.inr (List.mem_map.mpr ⟨[], outermost, joined⟩))

/-- The full name of a declaration means some declaration: that one, or one with a
longer name that captures it. -/
theorem Scope.exists_declared?_fullName (scope : Scope) {head : DeclaredType}
    (found : types.find? (fun type => type.fullName == head.fullName) = some head)
    (nonempty : head.fullName ≠ "") :
    ∃ other, scope.declared? types none head.fullName = some other ∧
      LongerUnless (other = head) head.fullName other.fullName := by
  have some : (scope.declared? types none head.fullName).isSome = true := by
    rw [declared?, List.findSome?_isSome_iff]
    exact ⟨head.fullName, mem_candidates_self nonempty, by rw [found]; rfl⟩
  obtain ⟨other, isOther⟩ := Option.isSome_iff_exists.mp some
  refine ⟨other, isOther, ?_⟩
  obtain ⟨name, member, isFound⟩ := List.exists_of_findSome?_eq_some isOther
  have isName : other.fullName = name := by simpa using List.find?_some isFound
  obtain ⟨front, parts, -⟩ := endsWithPart_of_mem_candidates nonempty (isName ▸ member)
  constructor
  · rw [parts, String.length_append]
    omega
  · intro short
    rw [parts, String.length_append] at short
    have empty : front = "" := String.length_eq_zero_iff.mp (by omega)
    rw [empty, String.empty_append] at parts
    rw [← isName, parts, found] at isFound
    exact (Option.some.inj isFound).symm

theorem DeclaredType.map_name_segments (head : DeclaredType) (arguments : List TypeExpr) :
    (head.segments arguments).map (·.name) = head.path := by
  rw [segments, List.map_append, List.map_map]
  exact congrArg (· ++ [head.name]) (List.map_id' head.outer)

/-- The parts of a full name, joined. -/
theorem DeclaredType.IsPlaced.dotted_segments {head : DeclaredType} (placed : head.IsPlaced)
    (arguments : List TypeExpr) : NameSegment.dotted (head.segments arguments) = head.fullName := by
  have kept : head.path.filter (fun part => part ≠ "") = head.path := by
    rw [List.filter_eq_self]
    intro word member
    simpa using (placed.proper.path_words word member).ne_empty
  rw [NameSegment.dotted, map_name_segments, Text.joinDotted, kept, placed.fullName]

theorem DeclaredType.IsPlaced.fullName_ne_empty {head : DeclaredType} (placed : head.IsPlaced) :
    head.fullName ≠ "" := by
  rw [placed.fullName, path]
  have isWord := placed.proper.name.ne_empty
  cases head.outer with
  | nil => simpa using isWord
  | cons first rest =>
      rw [String.intercalate_append_of_ne_nil (List.cons_ne_nil _ _) (List.cons_ne_nil _ _),
        String.intercalate_singleton]
      simp [isWord]

namespace TypeExpr

/-- No full name of a declaration that a type refers to begins with the keyword of a
built-in type. -/
def IsReadable (types : List DeclaredType) (scope : Scope) (type : TypeExpr) : Prop :=
  ∀ head, type.Mentions types scope head → ∀ first ∈ head.path.head?, first ∉ keywords

/-- No full name of a declaration that a type refers to is captured in a scope. -/
def IsUncaptured (types : List DeclaredType) (scope : Scope) (type : TypeExpr) : Prop :=
  ∀ head, type.Mentions types scope head →
    scope.declared? types none head.fullName = some head

/-- A type that refers to the declarations that its parts refer to. -/
private theorem forall_mentions_tuple {elements : List TupleElement} {span : Span}
    {condition : DeclaredType → Prop} :
    (∀ head, (tuple elements span).Mentions types scope head → condition head) ↔
      ∀ element ∈ elements, ∀ head, element.type.Mentions types scope head → condition head := by
  constructor
  · exact fun all element member head inside => all head (.tuple member inside)
  · rintro each head (_ | _ | _ | ⟨member, inside⟩ | _ | _)
    exact each _ member head inside

private theorem forall_mentions_declared {qualifier : Option String} {before : List NameSegment}
    {last : NameSegment} {head : DeclaredType} {span : Span} {condition : DeclaredType → Prop}
    (found : scope.declared? types qualifier (NameSegment.dotted (before ++ [last])) = some head) :
    (∀ other, (named qualifier (before ++ [last]) span).Mentions types scope other →
        condition other) ↔
      condition head ∧ ∀ argument ∈ last.arguments, ∀ other,
        argument.Mentions types scope other → condition other := by
  constructor
  · intro all
    refine ⟨all head (.declared found), fun argument member other inside => all other ?_⟩
    exact .argument (.inr (by simp)) (by simp) member inside
  · rintro ⟨isHead, each⟩ other (_ | _ | _ | _ | found' | ⟨shown, part, member, inside⟩)
    · rw [found] at found'
      exact Option.some.inj found' ▸ isHead
    · rcases shown with undeclared | isLast
      · rw [found] at undeclared
        cases undeclared
      · rw [List.getLast?_append, List.getLast?_singleton, Option.some_or,
          Option.some.injEq] at isLast
        exact each _ (isLast ▸ member) other inside

private theorem forall_mentions_undeclared {qualifier : Option String}
    {segments : List NameSegment} (span : Span) {condition : DeclaredType → Prop}
    (undeclared : scope.declared? types qualifier (NameSegment.dotted segments) = none) :
    (∀ head, (named qualifier segments span).Mentions types scope head → condition head) ↔
      ∀ segment ∈ segments, ∀ argument ∈ segment.arguments, ∀ head,
        argument.Mentions types scope head → condition head := by
  constructor
  · exact fun all segment part argument member head inside =>
      all head (.argument (.inl undeclared) part member inside)
  · rintro each head (_ | _ | _ | _ | found | ⟨-, part, member, inside⟩)
    · rw [undeclared] at found
      cases found
    · exact each _ part _ member head inside

/-- A name made of words is well formed if it does not begin like a built-in type. -/
private theorem IsWellFormed.of_segments {qualifier : Option String} {segments : List NameSegment}
    {span : Span} (some : segments ≠ [])
    (isName : ∀ first ∈ segments.head?, qualifier.getD first.name ∉ keywords)
    (isWord : ∀ word ∈ qualifier, Lexeme.IsWord word.toList)
    (words : ∀ segment ∈ segments, Lexeme.IsWord segment.name.toList)
    (arguments : ∀ segment ∈ segments, ∀ argument ∈ segment.arguments, argument.IsWellFormed) :
    (TypeExpr.named qualifier segments span).IsWellFormed := by
  cases segments with
  | nil => exact absurd rfl some
  | cons first others => exact .named (isName first rfl) isWord words arguments

variable (placed : ∀ head ∈ types, head.IsPlaced)

include placed

/-- A well-formed type is well formed with the names of declarations written in full,
as long as none of them would be read as a built-in type. -/
theorem IsWellFormed.qualified {type : TypeExpr} (formed : type.IsWellFormed)
    (readable : type.IsReadable types scope) : (type.qualified types scope).IsWellFormed := by
  induction formed with
  | predefined known => rw [qualified_predefined]; exact .predefined known
  | nullable inner ih =>
      rw [qualified_nullable]
      exact .nullable (ih fun head inside => readable head (.nullable inside))
  | pointer inner ih =>
      rw [qualified_pointer]
      exact .pointer (ih fun head inside => readable head (.pointer inside))
  | array element dimension ih =>
      rw [qualified_array]
      exact .array (ih fun head inside => readable head (.array inside)) dimension
  | @tuple elements span some formed words ih =>
      have each := forall_mentions_tuple.mp readable
      rw [qualified_tuple]
      exact .tuple (mt List.map_eq_nil_iff.mp some)
        (List.forall_mem_map.mpr fun element member => ih element member (each element member))
        (List.forall_mem_map.mpr words)
  | @named qualifier first others span isName isWord words arguments ih =>
      cases found : scope.declared? types qualifier (NameSegment.dotted (first :: others)) with
      | none =>
          have each := (forall_mentions_undeclared _ found).mp readable
          rw [qualified_of_undeclared found]
          refine .of_segments (List.cons_ne_nil _ _) (fun renamed isFirst => ?_) isWord ?_ ?_
          · cases isFirst
            exact isName
          · exact List.forall_mem_map.mpr words
          · refine List.forall_mem_map.mpr fun segment part => List.forall_mem_map.mpr ?_
            exact fun argument member =>
              ih segment part argument member (each segment part argument member)
      | some head =>
          obtain ⟨before, last, parts⟩ : ∃ before last, first :: others = before ++ [last] :=
            ⟨_, _, (List.dropLast_append_getLast (List.cons_ne_nil first others)).symm⟩
          rw [parts] at found ih readable ⊢
          obtain ⟨isHead, each⟩ := (forall_mentions_declared found).mp readable
          have names := head.map_name_segments (last.arguments.map (TypeExpr.qualified types scope))
          have pathWords := (placed head (Scope.of_declared? found).1).proper.path_words
          rw [qualified_of_declared found]
          rw [← names] at isHead pathWords
          refine .of_segments ?_ (fun first isFirst => ?_) (fun word nothing => by cases nothing)
            (fun segment part => ?_) ?_
          · exact List.append_ne_nil_of_right_ne_nil _ (List.cons_ne_nil _ _)
          · exact isHead first.name (by rw [List.head?_map, isFirst]; rfl)
          · exact pathWords segment.name (List.mem_map_of_mem part)
          · refine List.forall_mem_append.mpr ⟨List.forall_mem_map.mpr fun _ _ => nofun, ?_⟩
            refine List.forall_mem_singleton.mpr (List.forall_mem_map.mpr fun argument member => ?_)
            exact ih last (by simp) argument member (each argument member)

/-- Writing names in full a second time gives a longer text, unless no full name is
captured. -/
theorem IsProper.longer_qualified {type : TypeExpr} (proper : type.IsProper) :
    LongerUnless (type.IsUncaptured types scope) (type.qualified types scope).text
      ((type.qualified types scope).qualified types scope).text := by
  induction proper with
  | predefined known =>
      rw [qualified_predefined, qualified_predefined]
      exact (LongerUnless.refl _).imp fun _ => nofun
  | nullable inner ih =>
      simp only [qualified_nullable, TypeExpr.text]
      refine (ih.append_right "?").imp ?_
      rintro uncaptured head (⟨inside⟩ | _ | _ | _ | _ | _)
      exact uncaptured head inside
  | pointer inner ih =>
      simp only [qualified_pointer, TypeExpr.text]
      refine (ih.append_right "*").imp ?_
      rintro uncaptured head (_ | ⟨inside⟩ | _ | _ | _ | _)
      exact uncaptured head inside
  | array element ih =>
      simp only [qualified_array, TypeExpr.text]
      refine (ih.append_right _).imp ?_
      rintro uncaptured head (_ | _ | ⟨inside⟩ | _ | _ | _)
      exact uncaptured head inside
  | @tuple elements span some proper ih =>
      have ofElement (element : TupleElement) (member : element ∈ elements) :
          LongerUnless (element.type.IsUncaptured types scope)
            (element.qualified types scope).text
            ((element.qualified types scope).qualified types scope).text := by
        obtain ⟨type, name⟩ := element
        cases name with
        | none => simpa only [TupleElement.qualified, TupleElement.text] using ih _ member
        | some name =>
            have grows := ((ih _ member).append_right " ").append_right name
            simpa only [TupleElement.qualified, TupleElement.text] using grows
      simp only [qualified_tuple, TypeExpr.text, TupleElement.textOfList_eq, List.map_map]
      exact (((LongerUnless.intercalate ", " ofElement).append_left "(").append_right ")").imp
        forall_mentions_tuple.mpr
  | @named qualifier segments span some words arguments ih =>
      have ofArguments (segment : NameSegment) (part : segment ∈ segments) :
          LongerUnless (∀ argument ∈ segment.arguments, argument.IsUncaptured types scope)
            (angled ((segment.arguments.map (TypeExpr.qualified types scope)).map TypeExpr.text))
            (angled (((segment.arguments.map (TypeExpr.qualified types scope)).map
              (TypeExpr.qualified types scope)).map TypeExpr.text)) := by
        rw [List.map_map, List.map_map, List.map_map]
        exact LongerUnless.angled (ih segment part)
      cases found : scope.declared? types qualifier (NameSegment.dotted segments) with
      | none =>
          have again : scope.declared? types qualifier (NameSegment.dotted
              (segments.map (NameSegment.qualified types scope))) = none := by
            rw [NameSegment.dotted, List.map_map]
            exact found
          have ofSegment (segment : NameSegment) (part : segment ∈ segments) :
              LongerUnless (∀ argument ∈ segment.arguments, argument.IsUncaptured types scope)
                (segment.qualified types scope).text
                ((segment.qualified types scope).qualified types scope).text := by
            rw [NameSegment.text_eq, NameSegment.text_eq]
            exact (ofArguments segment part).append_left segment.name
          have grows := (LongerUnless.intercalate "." ofSegment).imp
            (forall_mentions_undeclared span found).mpr
          rw [qualified_of_undeclared found, qualified_of_undeclared again]
          cases qualifier with
          | none =>
              simp only [TypeExpr.text, NameSegment.textOfList_eq, List.map_map]
              exact grows
          | some word =>
              simp only [TypeExpr.text, NameSegment.textOfList_eq, List.map_map]
              exact grows.append_left (word ++ "::")
      | some head =>
          obtain ⟨before, last, rfl⟩ : ∃ before last, segments = before ++ [last] :=
            ⟨segments.dropLast, segments.getLast some, (List.dropLast_append_getLast some).symm⟩
          have isPlaced := placed head (Scope.of_declared? found).1
          obtain ⟨other, isOther, grows⟩ := Scope.exists_declared?_fullName scope
            (Scope.of_declared? found).2 isPlaced.fullName_ne_empty
          have otherPlaced := placed other (Scope.of_declared? isOther).1
          have again := isOther
          rw [← isPlaced.dotted_segments (last.arguments.map (TypeExpr.qualified types scope))]
            at again
          rw [qualified_of_declared found, DeclaredType.segments, qualified_of_declared again,
            ← DeclaredType.segments]
          simp only [TypeExpr.text, isPlaced.text_segments, otherPlaced.text_segments]
          refine (grows.append (ofArguments last (by simp))).imp fun both => ?_
          exact (forall_mentions_declared found).mpr ⟨both.1 ▸ isOther, both.2⟩

variable (bare : scope.typeParameters = []) (noAlias : scope.HasNoAlias)

include bare noAlias

/-- As long as no full name is captured, a type means the same with the names of
declarations written in full. -/
theorem IsProper.bind_qualified {type : TypeExpr} (proper : type.IsProper)
    (uncaptured : type.IsUncaptured types scope) :
    (type.qualified types scope).bind types scope = type.bind types scope := by
  induction proper with
  | predefined known => rw [qualified_predefined]
  | nullable inner ih =>
      have same := ih fun head inside => uncaptured head (.nullable inside)
      rw [qualified_nullable]
      exact congrArg (BoundType.withSuffix · "?") same
  | pointer inner ih =>
      have same := ih fun head inside => uncaptured head (.pointer inside)
      rw [qualified_pointer]
      exact congrArg (BoundType.withSuffix · "*") same
  | @array element rank span proper ih =>
      have same := ih fun head inside => uncaptured head (.array inside)
      rw [qualified_array]
      exact congrArg (BoundType.withSuffix · (arraySuffix rank)) same
  | @tuple elements span some proper ih =>
      have each := forall_mentions_tuple.mp uncaptured
      rw [qualified_tuple, TypeExpr.bind, bindWith_tuple, TypeExpr.bind, bindWith_tuple,
        List.map_map]
      congr 1
      refine List.map_congr_left fun element member => ?_
      exact congrArg (BoundElement.mk · element.name) (ih element member (each element member))
  | @named qualifier segments span some words arguments ih =>
      obtain ⟨before, last, rfl⟩ : ∃ before last, segments = before ++ [last] :=
        ⟨segments.dropLast, segments.getLast some, (List.dropLast_append_getLast some).symm⟩
      cases found : scope.declared? types qualifier (NameSegment.dotted (before ++ [last])) with
      | none =>
          have each := (forall_mentions_undeclared _ found).mp uncaptured
          have sameSegment (segment : NameSegment) (part : segment ∈ before ++ [last]) :
              (segment.qualified types scope).bound types scope = segment.bound types scope := by
            rw [NameSegment.bound, NameSegment.qualified, List.map_map]
            refine congrArg (BoundSegment.mk segment.name) (List.map_congr_left ?_)
            exact fun argument member =>
              ih segment part argument member (each segment part argument member)
          have again : scope.declared? types qualifier (NameSegment.dotted
              (before.map (NameSegment.qualified types scope) ++
                [last.qualified types scope])) = none := by
            rw [← List.map_singleton (f := NameSegment.qualified types scope), ← List.map_append,
              NameSegment.dotted, List.map_map]
            exact found
          rw [qualified_of_undeclared found, List.map_append, List.map_singleton,
            bind_named bare noAlias, bind_named bare noAlias, found, again, List.map_map]
          have sameBefore : before.map
                (NameSegment.bound types scope ∘ NameSegment.qualified types scope) =
              before.map (NameSegment.bound types scope) :=
            List.map_congr_left fun segment front =>
              sameSegment segment (List.mem_append_left _ front)
          show BoundSegment.asWritten qualifier _ _ = BoundSegment.asWritten qualifier _ _
          rw [sameSegment last (by simp), sameBefore]
      | some head =>
          obtain ⟨isHead, each⟩ := (forall_mentions_declared found).mp uncaptured
          have isPlaced := placed head (Scope.of_declared? found).1
          have sameArguments : (last.arguments.map (TypeExpr.qualified types scope)).map
                (fun type => type.bind types scope) =
              last.arguments.map fun type => type.bind types scope := by
            rw [List.map_map]
            refine List.map_congr_left fun argument member => ?_
            exact ih last (by simp) argument member (each argument member)
          rw [← isPlaced.dotted_segments (last.arguments.map (TypeExpr.qualified types scope))]
            at isHead
          rw [qualified_of_declared found, DeclaredType.segments, bind_named bare noAlias,
            ← DeclaredType.segments, isHead, bind_named bare noAlias, found]
          exact congrArg head.reference sameArguments

end TypeExpr

end Capture

/-- Every method of parsed files returns a well-formed type. -/
theorem PlacedMethod.isWellFormed_of_mem {units : List SourceUnit}
    (parsed : ∀ unit ∈ units, unit.IsParsed) {placed : PlacedMethod}
    (member : placed ∈ PlacedMethod.ofUnits units) : placed.method.returnType.IsWellFormed := by
  obtain ⟨type, declared, inType⟩ := List.mem_flatMap.mp member
  obtain ⟨method, own, rfl⟩ := List.mem_map.mp inType
  exact ((SourceUnit.isProper_of_mem parsed type declared).methods method own).returnType

/-- The return type of a method, where neither the method nor the types around it
have type parameters and no alias is in scope, is spelled by a text that is read as a
type.  As long as no declaration that is referred to has a full name that begins with the
keyword of a built-in type, the text is that of the type with all names in full, and
it means the same in the scope of the method just if none of these names is captured
there. -/
theorem PlacedMethod.rebinds_iff {units : List SourceUnit}
    (parsed : ∀ unit ∈ units, unit.IsParsed) {placed : PlacedMethod}
    (member : placed ∈ PlacedMethod.ofUnits units) (bare : placed.inner.typeParameters = [])
    (noAlias : placed.type.scope.HasNoAlias) :
    let known := TypeTable.heads (units.flatMap SourceUnit.types)
    let written := placed.method.returnType
    let bound := (placed.symbol known).returnType
    written.IsReadable known placed.inner →
      ((∃ read, TypeExpr.parse (bound.render []) = .ok read ∧
          read.bind known placed.inner = bound) ↔
        written.IsUncaptured known placed.inner) := by
  intro known written bound readable
  have isPlaced := TypeTable.isPlaced_of_mem_heads parsed
  have noAlias : placed.inner.HasNoAlias := noAlias
  have formed : written.IsWellFormed := PlacedMethod.isWellFormed_of_mem parsed member
  have isText : (written.qualified known placed.inner).text = bound.render [] :=
    formed.isProper.text_qualified isPlaced bare noAlias
  have qualifiedFormed : (written.qualified known placed.inner).IsWellFormed :=
    formed.qualified isPlaced readable
  obtain ⟨read, parses, same⟩ := qualifiedFormed.exists_parse_text
  rw [isText] at parses
  have means : read.bind known placed.inner =
      (written.qualified known placed.inner).bind known placed.inner :=
    TypeExpr.bind_eq_of_unplaced_eq known placed.inner same
  constructor
  · rintro ⟨other, isOther, rebinds⟩
    rw [parses] at isOther
    cases isOther
    -- spelled once more, the type would be longer if a name were captured
    have again := qualifiedFormed.isProper.text_qualified isPlaced bare noAlias
    rw [← means, rebinds, ← isText] at again
    exact (formed.isProper.longer_qualified isPlaced).holds (Nat.le_of_eq (congrArg _ again))
  · intro uncaptured
    exact ⟨read, parses, means.trans
      (formed.isProper.bind_qualified isPlaced bare noAlias uncaptured)⟩

/-- What a type refers to is declared. -/
theorem TypeExpr.Mentions.mem {types : List DeclaredType} {scope : Scope} {type : TypeExpr}
    {head : DeclaredType} (mentions : type.Mentions types scope head) : head ∈ types := by
  induction mentions with
  | declared found => exact (Scope.of_declared? found).1
  | nullable _ ih | pointer _ ih | array _ ih | tuple _ _ ih | argument _ _ _ _ ih => exact ih

/-- A class in a namespace with an inner namespace that is called like an outer
one. -/
private def innerText : String :=
  "namespace Lib \x7b class Item \x7b \x7d \x7d " ++
    "namespace App.Lib \x7b class Item \x7b \x7d \x7d " ++
    "namespace App \x7b class Api \x7b global::Lib.Item Get() => null; \x7d \x7d"

/-- The words of a type that is a qualified name of two parts. -/
private def qualifiedPair? : TypeExpr → Option (List String)
  | .named (some word) [⟨first, []⟩, ⟨second, []⟩] _ => some [word, first, second]
  | _ => none

private theorem eq_of_qualifiedPair? {type : TypeExpr} {word first second : String}
    (isPair : qualifiedPair? type = some [word, first, second]) :
    ∃ span, type = .named (some word) [⟨first, []⟩, ⟨second, []⟩] span := by
  unfold qualifiedPair? at isPair
  split at isPair
  · cases isPair
    exact ⟨_, rfl⟩
  · cases isPair

/-- What is seen of a method and of what `Lib.Item` means where it stands. -/
private structure InnerView where
  typeParameters : List String
  usings : List UsingDirective
  written : Option (List String)
  spelled : String
  fromRoot : Option String
  fromInside : Option String
  isPlain : Bool
deriving DecidableEq

private def PlacedMethod.innerView (known : List DeclaredType) (placed : PlacedMethod) :
    InnerView where
  typeParameters := placed.inner.typeParameters
  usings := placed.type.scope.usings
  written := qualifiedPair? placed.method.returnType
  spelled := (placed.symbol known).returnType.render []
  fromRoot := (placed.inner.declared? known (some "global") "Lib.Item").map (·.fullName)
  fromInside := (placed.inner.declared? known none "Lib.Item").map (·.fullName)
  isPlain := known.all fun head =>
    head.path.head?.all fun first => !TypeExpr.keywords.contains first

/-- The return type `global::Lib.Item` is spelled `Lib.Item`, and that text is read as
a type with another meaning. -/
theorem PlacedMethod.rebinds_iff_of_inner_namespace :
    ∃ unit placed, SourceUnit.parse innerText "App.cs" = .ok unit ∧
      PlacedMethod.ofUnits [unit] = [placed] ∧ placed.inner.typeParameters = [] ∧
      placed.type.scope.HasNoAlias ∧
      let known := TypeTable.heads ([unit].flatMap SourceUnit.types)
      let bound := (placed.symbol known).returnType
      placed.method.returnType.IsReadable known placed.inner ∧ bound.render [] = "Lib.Item" ∧
        ¬ ∃ read, TypeExpr.parse (bound.render []) = .ok read ∧
          read.bind known placed.inner = bound := by
  have seen : (SourceUnit.parse innerText "App.cs").toOption.map (fun unit =>
      (PlacedMethod.ofUnits [unit]).map
        (PlacedMethod.innerView (TypeTable.heads ([unit].flatMap SourceUnit.types)))) =
      some [⟨[], [], some ["global", "Lib", "Item"], "Lib.Item", some "Lib.Item",
        some "App.Lib.Item", true⟩] := by
    decide +kernel
  obtain ⟨unit, isUnit, parsed, isMapped⟩ := SourceUnit.exists_of_parse seen
  obtain ⟨placed, isOnly, isSeen⟩ := List.map_eq_singleton_iff.mp isMapped
  obtain ⟨bare, noUsings, isPair, isText, outer, inner, plain⟩ := InnerView.mk.inj isSeen
  have noAlias : placed.type.scope.HasNoAlias := by
    rw [Scope.HasNoAlias, noUsings]
    exact List.forall_mem_nil _
  have readable : placed.method.returnType.IsReadable
      (TypeTable.heads ([unit].flatMap SourceUnit.types)) placed.inner := by
    intro head mentions first isFirst
    have all := List.all_eq_true.mp plain head mentions.mem
    rw [isFirst] at all
    simpa using all
  refine ⟨unit, placed, isUnit, isOnly, bare, noAlias, readable, isText, fun rebinds => ?_⟩
  have uncaptured := (PlacedMethod.rebinds_iff parsed
    (isOnly ▸ List.mem_cons_self : placed ∈ PlacedMethod.ofUnits [unit]) bare noAlias
    readable).mp rebinds
  obtain ⟨span, isType⟩ := eq_of_qualifiedPair? isPair
  obtain ⟨head, isHead, isName⟩ := Option.map_eq_some_iff.mp outer
  have mentions : placed.method.returnType.Mentions
      (TypeTable.heads ([unit].flatMap SourceUnit.types)) placed.inner head := by
    rw [isType]
    exact .declared isHead
  rw [← isName, uncaptured head mentions, Option.map_some, isName] at inner
  exact absurd (Option.some.inj inner) (by decide)

end ErrorAccessors
