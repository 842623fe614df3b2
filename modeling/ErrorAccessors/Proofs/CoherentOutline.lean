/-
# The places of an outline are coherent

What is read of a text stands in the text where the outline says, each part inside of the
one that it belongs to and behind the one before it.  An edit at the place of a part
therefore changes nothing outside of it, and edits at the places of several methods do not
meet.
-/

import ErrorAccessors.Proofs.LaidDeclarations
import ErrorAccessors.Proofs.ProperBinding

namespace ErrorAccessors

/-- A place of a file is not behind its end. -/
theorem SourceFile.IsPlace.le_size {file : SourceFile} {offset : Nat}
    (place : file.IsPlace offset) :
    offset ≤ file.size := by
  obtain ⟨before, after, isText, rfl⟩ := place
  rw [size, Text.utf8ByteSize_eq, isText, Text.byteLength_append]
  exact Nat.le_add_right _ _

/-- The whole of a file reaches from one place of it to another. -/
theorem SourceFile.isOf_whole (file : SourceFile) : (file.span 0 file.size).IsOf file :=
  ⟨rfl, Nat.zero_le _, ⟨[], file.text.toList, rfl, rfl⟩,
    ⟨file.text.toList, [], (List.append_nil _).symm, (Text.utf8ByteSize_eq _).symm⟩⟩

/-- What the outline of a file holds lies in what was read of the file. -/
private theorem SourceFile.laidOut_of_outline {file : SourceFile} {unit : SourceUnit}
    (outlined : file.outline = .ok unit) :
    ∃ (start cursor : Cursor) (body : Parser.NamespaceBody), start.Stands file ∧
      body.LaidOut file start cursor ∧
      unit = ⟨file.path, file.span 0 file.size, body.usings, body.members⟩ := by
  simp only [outline, outlineOf] at outlined
  split at outlined
  · next body cursor run =>
    split at outlined
    · cases outlined
    · cases outlined
      have stands : ({ Cursor.start (Token.tokens file) with
          recorded := Parser.openStrings (Token.tokens file) } : Cursor).Stands file :=
        ⟨[], rfl, rfl⟩
      rw [Parser.fileBody_apply] at run
      exact ⟨_, cursor, body, stands,
        Parser.ensures_namespaceBody false (Parser.forward_namespaceDeclWithin _)
          (Parser.laysSpaces_namespaceDeclWithin _) _ cursor body (.nothing stands) run, rfl⟩
  · cases outlined

/-- The places of the outline of a file are coherent. -/
theorem SourceFile.coherent_of_outline {file : SourceFile} {unit : SourceUnit}
    (outlined : file.outline = .ok unit) : unit.spanTree.Coherent file := by
  obtain ⟨start, cursor, body, stands, laid, rfl⟩ := laidOut_of_outline outlined
  have ends := (stands.of_reaches laid.usings.reached).places.1.le_size
  have within {row : List SpanTree} (laid : LaidTo file start row cursor) :
      ∀ tree ∈ row, tree.span.Inside (file.span 0 file.size) := fun tree member =>
    ⟨Nat.zero_le _, Nat.le_trans (laid.before tree member) ends⟩
  refine .node file.isOf_whole ?_ ?_ ?_
  · exact List.forall_mem_cons.mpr ⟨laid.usings.coherent,
      List.forall_mem_singleton.mpr laid.members.coherent⟩
  · exact List.forall_mem_cons.mpr ⟨within laid.usings,
      List.forall_mem_singleton.mpr (within laid.members)⟩
  · exact List.forall_mem_cons.mpr ⟨laid.usings.apart,
      List.forall_mem_singleton.mpr laid.members.apart⟩

/-- The methods of an outline with coherent places lie one behind the other, and none of them
is empty. -/
theorem SourceUnit.methods_of_coherent {file : SourceFile} {unit : SourceUnit}
    (coherent : unit.spanTree.Coherent file) :
    (∀ method ∈ unit.methods, method.spanTree.Coherent file) ∧
      unit.methods.Pairwise fun method later =>
        method.span.start.offset < later.span.start.offset ∧ method.span.Precedes later.span := by
  cases coherent with
  | node isOf parts inside apart =>
      have isRow := List.mem_cons_of_mem (unit.usings.map UsingDirective.spanTree)
        (List.mem_singleton_self (NamespaceMember.spanTreesOfList unit.members))
      have among :=
        NamespaceMember.lieAmong_methodsOfList unit.members (parts _ isRow) (apart _ isRow)
      refine ⟨among.coherent,
        among.apart.imp_of_mem fun {method later} member _ precedes => ⟨?_, precedes⟩⟩
      obtain ⟨-, within, nonempty, -⟩ := MethodDecl.name_of_coherent (among.coherent method member)
      exact Nat.lt_of_lt_of_le
        (Nat.lt_of_le_of_lt within.start (Nat.lt_of_lt_of_le nonempty within.stop)) precedes

/-- All places that the outline of a text records are coherent.  In particular the return type
of a method ends in front of its name, which stands in the method and is spelled as the method
is called, and the methods of the text, however they are nested, stand one behind the other. -/
theorem SourceUnit.coherent_of_parse {text path : String} {unit : SourceUnit}
    (parsed : SourceUnit.parse text path = .ok unit) :
    unit.spanTree.Coherent (.ofText path text) ∧
    (∀ method ∈ unit.methods, method.returnType.span.Precedes method.nameSpan ∧
      method.nameSpan.Inside method.span ∧
      ((SourceFile.ofText path text).slice? method.nameSpan = some method.name ∨
        (SourceFile.ofText path text).slice? method.nameSpan = some ("@" ++ method.name))) ∧
    unit.methods.Pairwise fun method later =>
      method.span.start.offset < later.span.start.offset ∧ method.span.Precedes later.span := by
  have coherent := SourceFile.coherent_of_outline parsed
  obtain ⟨each, apart⟩ := methods_of_coherent coherent
  refine ⟨coherent, fun method member => ?_, apart⟩
  obtain ⟨precedes, inside, -, spelled⟩ := MethodDecl.name_of_coherent (each method member)
  exact ⟨precedes, inside, spelled⟩

/-- Methods at two depths, one of them with a verbatim name behind a generic type. -/
private def nestedText : String :=
  "class Api \x7b [A(1)] List<int> @get() => null; class Inner \x7b void Put() \x7b \x7d \x7d \x7d"

/-- Methods of nested types stand one behind the other. -/
theorem SourceUnit.coherent_of_nestedTypes :
    ∃ unit, SourceUnit.parse nestedText "Api.cs" = .ok unit ∧
      unit.methods.map (·.name) = ["get", "Put"] ∧
      unit.spanTree.Coherent (.ofText "Api.cs" nestedText) ∧
      unit.methods.Pairwise fun method later =>
        method.span.start.offset < later.span.start.offset ∧ method.span.Precedes later.span := by
  have seen : (SourceUnit.parse nestedText "Api.cs").toOption.map
      (fun unit => unit.methods.map (·.name)) = some ["get", "Put"] := by decide +kernel
  obtain ⟨unit, isUnit, -, names⟩ := SourceUnit.exists_of_parse seen
  exact ⟨unit, isUnit, names, (coherent_of_parse isUnit).1, (coherent_of_parse isUnit).2.2⟩

end ErrorAccessors
