/-
# Repairs replace return types and nothing else

A repair of a file is asked for by offsets, several of which may lead to one method.  The
edits are made from the methods, and whatever is asked for twice is replaced by the same text.
So what is applied depends only on which methods are led to, and since the return types of a
parsed text stand one in front of the other, it is the same list of edits from the back for
every way to ask for these methods.

Such edits leave a text in which the return types of the methods are exchanged for the
corrected ones and everything between them is kept.
-/

import ErrorAccessors.Proofs.CorrectedTypes
import ErrorAccessors.Proofs.EnclosedMethods
import ErrorAccessors.Proofs.MethodLookup
import ErrorAccessors.Proofs.ProperOutline
import ErrorAccessors.Proofs.SimultaneousEdits

namespace ErrorAccessors

namespace Edit

variable {file : SourceFile} {edits ordered : List Edit}

instance : Std.Irrefl StartsBehind :=
  ⟨fun _ behind => lt_irrefl _ behind.2⟩

instance : Std.Antisymm StartsBehind :=
  ⟨fun _ _ behind earlier => absurd behind.2 earlier.2.not_gt⟩

/-- Where a range is only given with one replacement, each edit stays when repetitions are
dropped. -/
theorem mem_dropRepeated {edit : Edit}
    (single : ∀ other ∈ edits, edit.sameRange other = true → edit = other) (member : edit ∈ edits) :
    edit ∈ dropRepeated edits := by
  have ranged (first second : Edit) (same : first.sameRange second = true) :
      edit.sameRange first = edit.sameRange second := by
    rw [sameRange, sameRange, (sameRange_iff.mp same).1, (sameRange_iff.mp same).2]
  have isSame : edit.sameRange edit = true := sameRange_iff.mpr ⟨rfl, rfl⟩
  obtain ⟨kept, found⟩ : ∃ kept, (dropRepeated edits).find? edit.sameRange = some kept := by
    rw [find?_dropRepeated ranged, ← Option.isSome_iff_exists, List.find?_isSome]
    exact ⟨edit, member, isSame⟩
  have isKept := List.mem_of_find?_eq_some found
  rw [single kept ((dropRepeated_sublist edits).subset isKept) (List.find?_some found)]
  exact isKept

/-- Different edits of a list from back to front do not meet, and start at different places. -/
theorem apart_of_mem (isOrdered : ordered.Pairwise StartsBehind) {first second : Edit}
    (isFirst : first ∈ ordered) (isSecond : second ∈ ordered) (differ : first ≠ second) :
    first.Apart second ∧ first.span.start.offset ≠ second.span.start.offset := by
  have symm : Std.Symm fun first second : Edit =>
      first.Apart second ∧ first.span.start.offset ≠ second.span.start.offset :=
    ⟨fun _ _ apart => ⟨apart.1.symm, apart.2.symm⟩⟩
  have apart : ordered.Pairwise fun first second =>
      first.Apart second ∧ first.span.start.offset ≠ second.span.start.offset :=
    isOrdered.imp fun behind => ⟨.inr behind.1, behind.2.ne'⟩
  exact apart.forall isFirst isSecond differ

/-- Edits that are those of a list from back to front, each of them in front of the one before,
are applied as this list is, in whatever order and however often they are given. -/
theorem applyAll?_of_mem_iff (isOrdered : ordered.Pairwise StartsBehind)
    (within : ∀ edit ∈ ordered, edit.LiesIn file) (given : ∀ edit, edit ∈ edits ↔ edit ∈ ordered) :
    applyAll? file.text edits = some (String.ofList (madeFrom ordered 0 file.text.toList)) := by
  have separate {first second : Edit} (isFirst : first ∈ ordered) (isSecond : second ∈ ordered) :
      first.Separate second := by
    intro differ
    refine apart_of_mem isOrdered isFirst isSecond ?_
    rintro rfl
    simp [sameRange] at differ
  have single {first second : Edit} (isFirst : first ∈ ordered) (isSecond : second ∈ ordered)
      (same : first.sameRange second = true) : first = second := by
    by_contra differ
    exact (apart_of_mem isOrdered isFirst isSecond differ).2 (sameRange_iff.mp same).1
  have among {edit : Edit} : edit ∈ fromBack edits ↔ edit ∈ ordered :=
    (fromBack_perm edits).mem_iff.trans (given edit)
  have applied : dropRepeated (fromBack edits) = ordered := by
    have behind : (dropRepeated (fromBack edits)).Pairwise StartsBehind :=
      startsBehind_dropRepeated (fromBack_fromBack edits)
        (fun edit member => within edit (among.mp member))
        fun first isFirst second isSecond => separate (among.mp isFirst) (among.mp isSecond)
    refine behind.eq_of_mem_iff isOrdered fun edit => ?_
    refine ⟨fun member => among.mp ((dropRepeated_sublist _).subset member), fun member => ?_⟩
    exact mem_dropRepeated (fun other isOther => single member (among.mp isOther))
      (among.mpr member)
  have isText : file.text.toList = file.text.toList ++ [] := (List.append_nil _).symm
  rw [applyAll?, applied, foldlM_applyTo?_eq isOrdered within isText isText fun edit member =>
      Text.utf8ByteSize_eq _ ▸ (within edit member).stop.le_size, List.append_nil]

end Edit

/-- The edit that exchanges the return type of a method for the corrected one. -/
def MethodDecl.retyping (method : MethodDecl) (grammar : ResultGrammar) : Edit :=
  ⟨method.returnType.span, method.correctedReturnType grammar⟩

/-- A text in which the return types of some methods, given in source order, are exchanged for
the corrected ones, and what stands in front of them, between them and behind them is kept. -/
inductive Retyped (grammar : ResultGrammar) : List MethodDecl → List Char → List Char → Prop
  | kept (text : List Char) : Retyped grammar [] text text
  | exchanged {methods : List MethodDecl} {method : MethodDecl}
      {before fixed covered behind : List Char} (front : Retyped grammar methods before fixed)
      (starts : Text.byteLength before = method.returnType.span.start.offset)
      (stops : Text.byteLength (before ++ covered) = method.returnType.span.stop.offset) :
      Retyped grammar (methods ++ [method]) (before ++ covered ++ behind)
        (fixed ++ (method.correctedReturnType grammar).toList ++ behind)

section Methods

variable {file : SourceFile} {grammar : ResultGrammar} {methods : List MethodDecl}

/-- The return types of methods stand in a file, one in front of the other. -/
structure HaveTypesIn (methods : List MethodDecl) (grammar : ResultGrammar) (file : SourceFile) :
    Prop where
  within : ∀ method ∈ methods, (method.retyping grammar).LiesIn file
  ordered : methods.Pairwise fun method later =>
    (later.retyping grammar).StartsBehind (method.retyping grammar)

theorem HaveTypesIn.sublist {some : List MethodDecl} (types : HaveTypesIn methods grammar file)
    (sub : some.Sublist methods) : HaveTypesIn some grammar file :=
  ⟨fun method member => types.within method (sub.subset member), types.ordered.sublist sub⟩

/-- Exchanging return types at once, the last one first, gives a text that is retyped. -/
theorem HaveTypesIn.retyped_madeFrom (types : HaveTypesIn methods grammar file)
    {front rest : List Char} (isFile : file.text.toList = front ++ rest)
    (inFront : ∀ method ∈ methods, method.returnType.span.stop.offset ≤ Text.byteLength front) :
    Retyped grammar methods front
      (Edit.madeFrom (methods.reverse.map (·.retyping grammar)) 0 front) := by
  induction methods using List.reverseRecOn generalizing front rest with
  | nil =>
      rw [List.reverse_nil, List.map_nil, Edit.madeFrom_behind front (List.forall_mem_nil _)]
      exact .kept front
  | append_singleton methods method ih =>
      have sub : methods.Sublist (methods ++ [method]) := List.sublist_append_left _ _
      have isLast : method ∈ methods ++ [method] := by simp
      have stands := types.within method isLast
      obtain ⟨upTo, behind, rfl, stops⟩ := stands.stop.divides isFile (inFront method isLast)
      rw [List.append_assoc] at isFile
      obtain ⟨before, covered, rfl, starts⟩ :=
        stands.start.divides isFile (stops ▸ stands.ordered)
      rw [List.append_assoc] at isFile
      have behindOthers : ∀ other ∈ methods,
          (method.retyping grammar).StartsBehind (other.retyping grammar) := fun other member =>
        (List.pairwise_append.mp types.ordered).2.2 other member method (List.mem_singleton_self _)
      have frontRetyped := ih (types.sublist sub) isFile fun other member =>
        starts ▸ (behindOthers other member).1
      have behindEdits : ∀ edit ∈ methods.reverse.map (·.retyping grammar),
          (method.retyping grammar).StartsBehind edit := by
        intro edit member
        obtain ⟨other, isOther, rfl⟩ := List.mem_map.mp member
        exact behindOthers other (List.mem_reverse.mp isOther)
      have covers : (method.retyping grammar).span.stop.offset =
          (method.retyping grammar).span.start.offset + Text.byteLength covered := by
        rw [← starts, ← stops, Text.byteLength_append]
      rw [List.reverse_concat, List.map_cons, List.append_assoc,
        Edit.madeFrom_before before (covered ++ behind) (by rw [Nat.zero_add, starts]) behindEdits,
        Edit.madeFrom_last covered behind covers behindEdits, ← List.append_assoc,
        ← List.append_assoc]
      exact .exchanged frontRetyped starts stops

end Methods

namespace SourceUnit

variable {text path : String} {unit : SourceUnit} {grammar : ResultGrammar}

/-- The methods of a parsed text return well-formed types. -/
theorem isWellFormed_of_parse (parsed : parse text path = .ok unit) {method : MethodDecl}
    (member : method ∈ unit.methods) : method.returnType.IsWellFormed := by
  obtain ⟨placed, isPlaced, rfl⟩ := List.mem_map.mp (unit.placed_perm.mem_iff.mpr member)
  obtain ⟨type, isType, inType⟩ := List.mem_flatMap.mp isPlaced
  obtain ⟨method, own, rfl⟩ := List.mem_map.mp inType
  exact ((isProper_of_parse parsed type isType).methods method own).returnType

/-- The return types of a parsed text stand one in front of the other. -/
theorem haveTypesIn_of_parse (parsed : parse text path = .ok unit) (grammar : ResultGrammar) :
    HaveTypesIn unit.methods grammar (.ofText path text) where
  within method member := by
    have stands := standsIn_of_parse parsed method member
    exact ⟨stands.type.start, stands.type.stop, stands.typed.le⟩
  ordered := by
    apply (pairwise_precedes_of_parse parsed).imp_of_mem
    intro method later member laterMember precedes
    have here := standsIn_of_parse parsed method member
    have there := standsIn_of_parse parsed later laterMember
    have apart : method.returnType.span.Precedes later.returnType.span :=
      precedes.of_inside here.typeInside there.typeInside
    exact ⟨apart, here.typed.trans_le apart⟩

/-- A method is to be retyped if some offset leads to it and its return type does not conform. -/
def IsToRetype (unit : SourceUnit) (grammar : ResultGrammar) (offsets : List Nat)
    (method : MethodDecl) : Prop :=
  (∃ offset ∈ offsets, unit.methodAt? offset = some method) ∧
    grammar.conforms method.returnType method.isAsync = false

theorem isToRetype_cons {offset : Nat} {offsets : List Nat} {method : MethodDecl} :
    unit.IsToRetype grammar (offset :: offsets) method ↔
      (unit.methodAt? offset = some method ∧
        grammar.conforms method.returnType method.isAsync = false) ∨
      unit.IsToRetype grammar offsets method := by
  simp only [IsToRetype, List.mem_cons, or_and_right, exists_or, exists_eq_left]

/-- Where all offsets lead to methods, the repairs are the edits of the methods that are to be
retyped. -/
theorem exists_repairs (names : grammar.HasTypeNames) (parsed : parse text path = .ok unit)
    {offsets : List Nat}
    (lead : ∀ offset ∈ offsets, ∃ method, unit.methodAt? offset = some method) :
    ∃ edits, unit.repairs grammar false offsets = .ok edits ∧
      ∀ edit, edit ∈ edits ↔
        ∃ method, unit.IsToRetype grammar offsets method ∧ method.retyping grammar = edit := by
  induction offsets with
  | nil => exact ⟨[], rfl, by simp [IsToRetype]⟩
  | cons offset offsets ih =>
      obtain ⟨⟨method, found⟩, there⟩ := List.forall_mem_cons.mp lead
      obtain ⟨edits, repaired, areEdits⟩ := ih there
      have formed := isWellFormed_of_parse parsed (mem_of_methodAt? found)
      cases conforming : grammar.conforms method.returnType method.isAsync with
      | true =>
          have valid : unit.repairAt grammar false offset = .error .alreadyValid := by
            simp [repairAt, found, MethodDecl.repair, conforming]
          refine ⟨edits, by rw [repairs, valid, repaired], fun edit => (areEdits edit).trans ?_⟩
          refine exists_congr fun other => and_congr_left fun _ => ?_
          rw [isToRetype_cons, found, or_iff_right]
          rintro ⟨same, breaks⟩
          rw [← Option.some.inj same, conforming] at breaks
          cases breaks
      | false =>
          have repair : unit.repairAt grammar false offset = .ok (method.retyping grammar) := by
            simp only [repairAt, found]
            exact (MethodDecl.repair_of_breaks names formed conforming).1
          refine ⟨method.retyping grammar :: edits, by rw [repairs, repair, repaired]; rfl,
            fun edit => ?_⟩
          simp only [isToRetype_cons, found, List.mem_cons, areEdits edit, or_and_right, exists_or]
          refine or_congr_left ⟨?_, ?_⟩
          · rintro rfl
            exact ⟨method, ⟨rfl, conforming⟩, rfl⟩
          · rintro ⟨other, ⟨same, -⟩, rfl⟩
            rw [Option.some.inj same]

/-- For every list of offsets, each in the span of some method, the repair of a parsed text by
the default grammar succeeds.  It exchanges the return types of the methods that the offsets
lead to and that do not conform, and keeps all other text.  It comes to the same for every
list of the same offsets, in whatever order and however often they are given. -/
theorem repaired_retypes (parsed : parse text path = .ok unit) {offsets : List Nat}
    (inMethods : ∀ offset ∈ offsets, ∃ method ∈ unit.methods,
      method.span.contains offset = true) :
    ∃ methods fixed, methods.Sublist unit.methods ∧
      (∀ method, method ∈ methods ↔ unit.IsToRetype {} offsets method) ∧
      Retyped {} methods text.toList fixed.toList ∧
      unit.repaired {} text false offsets = .ok fixed ∧
      ∀ others : List Nat, (∀ offset, offset ∈ others ↔ offset ∈ offsets) →
        unit.repaired {} text false others = .ok fixed := by
  classical
  let methods := unit.methods.filter fun method => unit.IsToRetype {} offsets method
  let ordered := methods.reverse.map (·.retyping {})
  have isMethod (method : MethodDecl) : method ∈ methods ↔ unit.IsToRetype {} offsets method := by
    rw [List.mem_filter, decide_eq_true_iff, and_iff_right_iff_imp]
    rintro ⟨⟨offset, -, found⟩, -⟩
    exact mem_of_methodAt? found
  have types : HaveTypesIn methods {} (.ofText path text) :=
    (haveTypesIn_of_parse parsed {}).sublist List.filter_sublist
  have within : ∀ edit ∈ ordered, edit.LiesIn (.ofText path text) := by
    intro edit member
    obtain ⟨method, isMethod, rfl⟩ := List.mem_map.mp member
    exact types.within method (List.mem_reverse.mp isMethod)
  have isOrdered : ordered.Pairwise Edit.StartsBehind := by
    rw [List.pairwise_map, List.pairwise_reverse]
    exact types.ordered
  have repairs (others : List Nat) (same : ∀ offset, offset ∈ others ↔ offset ∈ offsets) :
      unit.repaired {} text false others =
        .ok (String.ofList (Edit.madeFrom ordered 0 text.toList)) := by
    have lead : ∀ offset ∈ others, ∃ method, unit.methodAt? offset = some method := by
      intro offset member
      obtain ⟨method, inUnit, inside⟩ := inMethods offset ((same offset).mp member)
      exact exists_methodAt?_of_contains inUnit inside
    obtain ⟨edits, repaired, areEdits⟩ :=
      exists_repairs ResultGrammar.hasTypeNames_default parsed lead
    have given (edit : Edit) : edit ∈ edits ↔ edit ∈ ordered := by
      simp only [areEdits, ordered, List.mem_map, List.mem_reverse, isMethod, IsToRetype, same]
    have applied := Edit.applyAll?_of_mem_iff isOrdered within given
    rw [SourceUnit.repaired, repaired]
    exact congrArg Except.ok (congrArg (Option.getD · text) applied)
  refine ⟨methods, _, List.filter_sublist, isMethod, ?_, repairs offsets fun _ => Iff.rfl, repairs⟩
  rw [String.toList_ofList]
  refine types.retyped_madeFrom (List.append_nil _).symm fun method member => ?_
  exact Text.utf8ByteSize_eq text ▸ (types.within method member).stop.le_size

/-- Three methods, of which the second one conforms. -/
private def severalMethods : String :=
  "class T \x7b int /* ä */ One()=>1;Result Two()=>null;async List < int >Three(); \x7d"

/-- The same text with the other two methods repaired. -/
private def severalRepaired : String :=
  "class T \x7b Result<int> /* ä */ One()=>1;Result Two()=>null;" ++
    "async Task<Result<List<int>>>Three(); \x7d"

/-- Two offsets lead to the first method, and one to each other one. -/
theorem repaired_retypes_of_several :
    ∃ unit methods, parse severalMethods "T.cs" = .ok unit ∧
      (∀ offset ∈ [15, 60, 40, 20], ∃ method ∈ unit.methods,
        method.span.contains offset = true) ∧
      methods.Sublist unit.methods ∧
      (∀ method, method ∈ methods ↔ unit.IsToRetype {} [15, 60, 40, 20] method) ∧
      Retyped {} methods severalMethods.toList severalRepaired.toList ∧
      unit.repaired {} severalMethods false [15, 60, 40, 20] = .ok severalRepaired ∧
      unit.repaired {} severalMethods false [40, 60, 15, 20, 60] = .ok severalRepaired := by
  have seen : (parse severalMethods "T.cs").toOption.map
      (fun unit => ([15, 60, 40, 20].all fun offset =>
          unit.methods.any fun method => method.span.contains offset,
        (unit.repaired {} severalMethods false [15, 60, 40, 20]).toOption)) =
        some (true, some severalRepaired) := by decide +kernel
  obtain ⟨unit, isUnit, -, views⟩ := exists_of_parse seen
  obtain ⟨inside, isFixed⟩ := Prod.mk.inj views
  have inMethods : ∀ offset ∈ [15, 60, 40, 20], ∃ method ∈ unit.methods,
      method.span.contains offset = true := by
    intro offset member
    exact List.any_eq_true.mp (List.all_eq_true.mp inside offset member)
  obtain ⟨methods, fixed, inOrder, areMethods, retyped, repaired, again⟩ :=
    repaired_retypes isUnit inMethods
  obtain rfl : fixed = severalRepaired := by
    rw [repaired] at isFixed
    exact Option.some.inj isFixed
  refine ⟨unit, methods, isUnit, inMethods, inOrder, areMethods, retyped, repaired, again _ ?_⟩
  intro offset
  simp only [List.mem_cons, List.not_mem_nil, or_false]
  omega

end SourceUnit

end ErrorAccessors
