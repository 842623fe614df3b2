/-
# The places of an outline

Every part of an outline records where it stands, and a part that is written inside
another one should stand inside it.  What is said about places is the same for all
kinds of parts, so an outline is turned into the tree of its places, and coherence is
said once, of such trees.

The parts inside of one part may form several rows.  In a row each part stands behind the
one before; two rows of a part may be written in between each other, as the using
directives of a namespace and its members are.  The word of a name or a keyword is a leaf
of the tree, and its text is known.
-/

import ErrorAccessors.Declaration
import ErrorAccessors.Source.File

namespace ErrorAccessors

/-- A place between two characters of a file. -/
def SourceFile.IsPlace (file : SourceFile) (offset : Nat) : Prop :=
  ∃ before after, file.text.toList = before ++ after ∧ Text.byteLength before = offset

namespace Span

/-- A span that reaches from a place of a file to one behind it, with the lines and columns
that these places have. -/
structure IsOf (span : Span) (file : SourceFile) : Prop where
  computed : span = file.span span.start.offset span.stop.offset
  ordered : span.start.offset ≤ span.stop.offset
  start : file.IsPlace span.start.offset
  stop : file.IsPlace span.stop.offset

/-- A span lies inside another one. -/
structure Inside (inner outer : Span) : Prop where
  start : outer.start.offset ≤ inner.start.offset
  stop : inner.stop.offset ≤ outer.stop.offset

/-- A span ends where another one starts, or earlier. -/
def Precedes (span later : Span) : Prop :=
  span.stop.offset ≤ later.start.offset

theorem Inside.trans {first second third : Span} (inner : first.Inside second)
    (outer : second.Inside third) : first.Inside third :=
  ⟨Nat.le_trans outer.start inner.start, Nat.le_trans inner.stop outer.stop⟩

/-- What lies inside of two spans is in their order. -/
theorem Precedes.of_inside {span later inner other : Span} (precedes : span.Precedes later)
    (inside : inner.Inside span) (behind : other.Inside later) : inner.Precedes other :=
  Nat.le_trans (Nat.le_trans inside.stop precedes) behind.start

end Span

/-- The places of a part and of the parts inside of it, in rows. -/
inductive SpanTree
  | word (span : Span) (text : String)
  | node (span : Span) (rows : List (List SpanTree))

namespace SpanTree

/-- Where the whole tree stands. -/
def span : SpanTree → Span
  | word span _ | node span _ => span

@[simp] theorem span_word (span : Span) (text : String) : (word span text).span = span := rfl

@[simp] theorem span_node (span : Span) (rows : List (List SpanTree)) :
    (node span rows).span = span := rfl

/-- All places are those of a file, parts lie inside of the part that they belong to, and
parts of a row stand one behind the other.  The text of a word is what the file has there,
possibly behind an at sign. -/
inductive Coherent (file : SourceFile) : SpanTree → Prop
  | word {span : Span} {text : String} (isOf : span.IsOf file)
      (nonempty : span.start.offset < span.stop.offset)
      (spelled : file.slice? span = some text ∨ file.slice? span = some ("@" ++ text)) :
      Coherent file (.word span text)
  | node {span : Span} {rows : List (List SpanTree)} (isOf : span.IsOf file)
      (parts : ∀ row ∈ rows, ∀ tree ∈ row, Coherent file tree)
      (inside : ∀ row ∈ rows, ∀ tree ∈ row, tree.span.Inside span)
      (apart : ∀ row ∈ rows, row.Pairwise fun tree later => tree.span.Precedes later.span) :
      Coherent file (.node span rows)

theorem Coherent.isOf {file : SourceFile} {tree : SpanTree} (coherent : tree.Coherent file) :
    tree.span.IsOf file := by
  cases coherent with
  | word isOf _ _ => exact isOf
  | node isOf _ _ _ => exact isOf

end SpanTree

section Trees

mutual

/-- The places of a type. -/
def TypeExpr.spanTree : TypeExpr → SpanTree
  | .predefined keyword span => .word span keyword
  | .named _ segments span => .node span [NameSegment.spanTreesOfList segments]
  | .nullable inner span | .array inner _ span | .pointer inner span =>
    .node span [[inner.spanTree]]
  | .tuple elements span => .node span [TupleElement.spanTreesOfList elements]

/-- The places of some types. -/
def TypeExpr.spanTreesOfList : List TypeExpr → List SpanTree
  | [] => []
  | type :: rest => type.spanTree :: TypeExpr.spanTreesOfList rest

/-- The places of the type arguments in the parts of a name. -/
def NameSegment.spanTreesOfList : List NameSegment → List SpanTree
  | [] => []
  | ⟨_, arguments⟩ :: rest =>
    TypeExpr.spanTreesOfList arguments ++ NameSegment.spanTreesOfList rest

/-- The places of the elements of a tuple. -/
def TupleElement.spanTreesOfList : List TupleElement → List SpanTree
  | [] => []
  | ⟨type, _⟩ :: rest => type.spanTree :: TupleElement.spanTreesOfList rest

end

/-- The place of an attribute argument. -/
def AttributeArgument.spanTree (argument : AttributeArgument) : SpanTree :=
  .node argument.span []

/-- The places of an attribute and its arguments. -/
def Attribute.spanTree (applied : Attribute) : SpanTree :=
  .node applied.span [applied.arguments.map AttributeArgument.spanTree]

/-- The places of the attributes between one pair of brackets. -/
def AttributeList.spanTree (list : AttributeList) : SpanTree :=
  .node list.span [list.attributes.map Attribute.spanTree]

/-- The place of a modifier. -/
def Modifier.spanTree (modifier : Modifier) : SpanTree :=
  .word modifier.span modifier.keyword

/-- The places of what stands in front of a declaration. -/
def headTrees (lists : List AttributeList) (words : List Modifier) : List SpanTree :=
  lists.map AttributeList.spanTree ++ words.map Modifier.spanTree

/-- The places of a method: what stands in front of it, its return type and its name. -/
def MethodDecl.spanTree (method : MethodDecl) : SpanTree :=
  .node method.span [headTrees method.attributeLists method.modifiers ++
    [method.returnType.spanTree, .word method.nameSpan method.name]]

mutual

/-- The places of a type declaration: what stands in front of it, its name and its members. -/
def TypeDecl.spanTree : TypeDecl → SpanTree
  | ⟨span, _, name, nameSpan, _, lists, words, members⟩ =>
    .node span [headTrees lists words ++ .word nameSpan name :: TypeMember.spanTreesOfList members]

/-- The places of members of a type. -/
def TypeMember.spanTreesOfList : List TypeMember → List SpanTree
  | [] => []
  | .type decl :: rest => decl.spanTree :: TypeMember.spanTreesOfList rest
  | .method decl :: rest => decl.spanTree :: TypeMember.spanTreesOfList rest

end

/-- The place of a using directive. -/
def UsingDirective.spanTree (directive : UsingDirective) : SpanTree :=
  .node directive.span []

mutual

/-- The places of a namespace: its using directives in one row and its members in another. -/
def NamespaceDecl.spanTree : NamespaceDecl → SpanTree
  | ⟨span, _, _, usings, members⟩ =>
    .node span [usings.map UsingDirective.spanTree, NamespaceMember.spanTreesOfList members]

/-- The places of members of a namespace. -/
def NamespaceMember.spanTreesOfList : List NamespaceMember → List SpanTree
  | [] => []
  | .space decl :: rest => decl.spanTree :: NamespaceMember.spanTreesOfList rest
  | .type decl :: rest => decl.spanTree :: NamespaceMember.spanTreesOfList rest

end

/-- The places of an outline. -/
def SourceUnit.spanTree (unit : SourceUnit) : SpanTree :=
  .node unit.span
    [unit.usings.map UsingDirective.spanTree, NamespaceMember.spanTreesOfList unit.members]

end Trees

@[simp] theorem TypeExpr.span_spanTree (type : TypeExpr) : type.spanTree.span = type.span := by
  cases type <;> rfl

section Lists

@[simp] theorem TypeExpr.spanTreesOfList_append (first second : List TypeExpr) :
    spanTreesOfList (first ++ second) = spanTreesOfList first ++ spanTreesOfList second := by
  induction first with
  | nil => rfl
  | cons type first ih =>
      rw [List.cons_append, spanTreesOfList, ih, spanTreesOfList, List.cons_append]

@[simp] theorem NameSegment.spanTreesOfList_append (first second : List NameSegment) :
    spanTreesOfList (first ++ second) = spanTreesOfList first ++ spanTreesOfList second := by
  induction first with
  | nil => rfl
  | cons segment first ih =>
      obtain ⟨name, arguments⟩ := segment
      rw [List.cons_append, spanTreesOfList, ih, spanTreesOfList, List.append_assoc]

@[simp] theorem TupleElement.spanTreesOfList_append (first second : List TupleElement) :
    spanTreesOfList (first ++ second) = spanTreesOfList first ++ spanTreesOfList second := by
  induction first with
  | nil => rfl
  | cons element first ih =>
      obtain ⟨type, name⟩ := element
      rw [List.cons_append, spanTreesOfList, ih, spanTreesOfList, List.cons_append]

@[simp] theorem TypeMember.spanTreesOfList_append (first second : List TypeMember) :
    spanTreesOfList (first ++ second) = spanTreesOfList first ++ spanTreesOfList second := by
  induction first with
  | nil => rfl
  | cons member first ih =>
      cases member <;> rw [List.cons_append, spanTreesOfList, ih, spanTreesOfList, List.cons_append]

@[simp] theorem NamespaceMember.spanTreesOfList_append (first second : List NamespaceMember) :
    spanTreesOfList (first ++ second) = spanTreesOfList first ++ spanTreesOfList second := by
  induction first with
  | nil => rfl
  | cons member first ih =>
      cases member <;> rw [List.cons_append, spanTreesOfList, ih, spanTreesOfList, List.cons_append]

end Lists

section Methods

variable {file : SourceFile} {methods others : List MethodDecl} {trees more : List SpanTree}

/-- Methods that lie one behind the other, each with coherent places and inside of one of some
trees. -/
structure MethodDecl.LieAmong (methods : List MethodDecl) (file : SourceFile)
    (trees : List SpanTree) : Prop where
  coherent : ∀ method ∈ methods, method.spanTree.Coherent file
  inside : ∀ method ∈ methods, ∃ tree ∈ trees, method.span.Inside tree.span
  apart : methods.Pairwise fun method later => method.span.Precedes later.span

namespace MethodDecl.LieAmong

theorem nil : LieAmong [] file trees :=
  ⟨List.forall_mem_nil _, List.forall_mem_nil _, .nil⟩

theorem of_subset (among : LieAmong methods file trees) (subset : trees ⊆ more) :
    LieAmong methods file more :=
  ⟨among.coherent, fun method member =>
    let ⟨tree, inTrees, inside⟩ := among.inside method member
    ⟨tree, subset inTrees, inside⟩, among.apart⟩

/-- Methods in a row inside of a part lie in the part. -/
theorem of_row {span : Span} {row : List SpanTree} {rows : List (List SpanTree)}
    (among : LieAmong methods file row) (inside : ∀ tree ∈ row, tree.span.Inside span) :
    LieAmong methods file [.node span rows] :=
  ⟨among.coherent, fun method member =>
    let ⟨tree, inRow, within⟩ := among.inside method member
    ⟨.node span rows, List.mem_singleton_self _, within.trans (inside tree inRow)⟩, among.apart⟩

/-- Methods in a tree in front of those in other trees. -/
theorem append {tree : SpanTree} (first : LieAmong methods file [tree])
    (second : LieAmong others file trees) (apart : ∀ later ∈ trees, tree.span.Precedes later.span) :
    LieAmong (methods ++ others) file (tree :: trees) := by
  refine ⟨List.forall_mem_append.mpr ⟨first.coherent, second.coherent⟩,
    List.forall_mem_append.mpr ⟨fun method member => ?_, fun method member => ?_⟩,
    List.pairwise_append.mpr ⟨first.apart, second.apart, fun method member later inOthers => ?_⟩⟩
  · exact (first.of_subset (List.cons_subset_cons _ (List.nil_subset _))).inside method member
  · exact (second.of_subset (List.subset_cons_self _ _)).inside method member
  · obtain ⟨_, isTree, inside⟩ := first.inside method member
    obtain rfl := List.mem_singleton.mp isTree
    obtain ⟨other, inTrees, within⟩ := second.inside later inOthers
    exact (apart other inTrees).of_inside inside within

end MethodDecl.LieAmong

mutual

/-- The methods of a type whose places are coherent. -/
theorem TypeDecl.lieAmong_methods (decl : TypeDecl) (coherent : decl.spanTree.Coherent file) :
    MethodDecl.LieAmong decl.methods file [decl.spanTree] := by
  obtain ⟨span, kind, name, nameSpan, parameters, lists, words, members⟩ := decl
  rw [TypeDecl.spanTree] at coherent ⊢
  rw [TypeDecl.methods]
  cases coherent with
  | node isOf parts inside apart =>
      have parts := parts _ (List.mem_singleton_self _)
      have apart := apart _ (List.mem_singleton_self _)
      rw [← List.singleton_append, ← List.append_assoc] at parts apart
      have among := TypeMember.lieAmong_methodsOfList members (List.forall_mem_append.mp parts).2
        (List.pairwise_append.mp apart).2.1
      refine .of_row (among.of_subset fun tree member => ?_) (inside _ (List.mem_singleton_self _))
      exact List.mem_append_right _ (List.mem_cons_of_mem _ member)

/-- The methods among members whose places are coherent. -/
theorem TypeMember.lieAmong_methodsOfList (members : List TypeMember)
    (parts : ∀ tree ∈ TypeMember.spanTreesOfList members, tree.Coherent file)
    (apart : (TypeMember.spanTreesOfList members).Pairwise fun tree later =>
      tree.span.Precedes later.span) :
    MethodDecl.LieAmong (TypeMember.methodsOfList members) file
      (TypeMember.spanTreesOfList members) := by
  match members with
  | [] => exact .nil
  | .type decl :: rest =>
      rw [TypeMember.spanTreesOfList] at parts apart ⊢
      obtain ⟨first, later⟩ := List.forall_mem_cons.mp parts
      obtain ⟨precedes, apart⟩ := List.pairwise_cons.mp apart
      exact .append (decl.lieAmong_methods first)
        (TypeMember.lieAmong_methodsOfList rest later apart) precedes
  | .method decl :: rest =>
      rw [TypeMember.spanTreesOfList] at parts apart ⊢
      obtain ⟨first, later⟩ := List.forall_mem_cons.mp parts
      obtain ⟨precedes, apart⟩ := List.pairwise_cons.mp apart
      have own : MethodDecl.LieAmong [decl] file [decl.spanTree] :=
        ⟨List.forall_mem_singleton.mpr first, List.forall_mem_singleton.mpr
          ⟨_, List.mem_singleton_self _, ⟨Nat.le_refl _, Nat.le_refl _⟩⟩,
          List.pairwise_singleton _ _⟩
      exact .append own (TypeMember.lieAmong_methodsOfList rest later apart) precedes

end

mutual

/-- The methods of a namespace whose places are coherent. -/
theorem NamespaceDecl.lieAmong_methods (decl : NamespaceDecl)
    (coherent : decl.spanTree.Coherent file) :
    MethodDecl.LieAmong decl.methods file [decl.spanTree] := by
  obtain ⟨span, name, isFileScoped, usings, members⟩ := decl
  rw [NamespaceDecl.spanTree] at coherent ⊢
  rw [NamespaceDecl.methods]
  cases coherent with
  | node isOf parts inside apart =>
      have isRow := List.mem_cons_of_mem (usings.map UsingDirective.spanTree)
        (List.mem_singleton_self (NamespaceMember.spanTreesOfList members))
      exact .of_row (NamespaceMember.lieAmong_methodsOfList members (parts _ isRow)
        (apart _ isRow)) (inside _ isRow)

/-- The methods among members of a namespace whose places are coherent. -/
theorem NamespaceMember.lieAmong_methodsOfList (members : List NamespaceMember)
    (parts : ∀ tree ∈ NamespaceMember.spanTreesOfList members, tree.Coherent file)
    (apart : (NamespaceMember.spanTreesOfList members).Pairwise fun tree later =>
      tree.span.Precedes later.span) :
    MethodDecl.LieAmong (NamespaceMember.methodsOfList members) file
      (NamespaceMember.spanTreesOfList members) := by
  match members with
  | [] => exact .nil
  | .space decl :: rest =>
      rw [NamespaceMember.spanTreesOfList] at parts apart ⊢
      obtain ⟨first, later⟩ := List.forall_mem_cons.mp parts
      obtain ⟨precedes, apart⟩ := List.pairwise_cons.mp apart
      exact .append (decl.lieAmong_methods first)
        (NamespaceMember.lieAmong_methodsOfList rest later apart) precedes
  | .type decl :: rest =>
      rw [NamespaceMember.spanTreesOfList] at parts apart ⊢
      obtain ⟨first, later⟩ := List.forall_mem_cons.mp parts
      obtain ⟨precedes, apart⟩ := List.pairwise_cons.mp apart
      exact .append (decl.lieAmong_methods first)
        (NamespaceMember.lieAmong_methodsOfList rest later apart) precedes

end

/-- The return type of a method ends in front of the name, and the name lies in the method and
says what the method is called. -/
theorem MethodDecl.name_of_coherent {method : MethodDecl}
    (coherent : method.spanTree.Coherent file) :
    method.returnType.span.Precedes method.nameSpan ∧ method.nameSpan.Inside method.span ∧
      method.nameSpan.start.offset < method.nameSpan.stop.offset ∧
      (file.slice? method.nameSpan = some method.name ∨
        file.slice? method.nameSpan = some ("@" ++ method.name)) := by
  rw [spanTree] at coherent
  cases coherent with
  | node isOf parts inside apart =>
      obtain ⟨-, pair, -⟩ := List.pairwise_append.mp (apart _ (List.mem_singleton_self _))
      have inRow : SpanTree.word method.nameSpan method.name ∈
          headTrees method.attributeLists method.modifiers ++
            [method.returnType.spanTree, .word method.nameSpan method.name] := by
        simp
      have precedes := List.rel_of_pairwise_cons pair (List.mem_singleton_self _)
      rw [TypeExpr.span_spanTree] at precedes
      cases parts _ (List.mem_singleton_self _) _ inRow with
      | word isOf nonempty spelled =>
          exact ⟨precedes, inside _ (List.mem_singleton_self _) _ inRow, nonempty, spelled⟩

end Methods

end ErrorAccessors
