/-
# The method at an offset

An offset leads to a method if it falls inside of it, and the end counts as inside, so that a
cursor right behind a method still finds it.  The methods of a parsed text stand one behind the
other and cover something.  So at most two of them are hit, and two only where one ends and the
next one begins.  The shorter one is taken then, and the one in front if they are equally long.

An offset inside of a method therefore leads to the method, except that the first one leads to
a method that ends right there and is no longer.
-/

import ErrorAccessors.Proofs.MethodPlaces

namespace ErrorAccessors

/-- A method is found at the start of another one, because it ends there and is no longer. -/
def MethodDecl.TakesStartOf (other method : MethodDecl) : Prop :=
  other.span.stop.offset = method.span.start.offset ∧ other.span.length ≤ method.span.length

namespace SourceUnit

variable {text path : String} {unit : SourceUnit} {method other : MethodDecl} {offset : Nat}

/-- The methods that an offset falls inside of, in source order. -/
def hitsAt (unit : SourceUnit) (offset : Nat) : List MethodDecl :=
  unit.methods.filter fun method => method.span.contains offset

theorem mem_hitsAt : method ∈ unit.hitsAt offset ↔ method ∈ unit.methods ∧
    method.span.start.offset ≤ offset ∧ offset ≤ method.span.stop.offset := by
  rw [hitsAt, List.mem_filter, Span.contains_iff]

/-- The shortest of some methods is one of them. -/
theorem exists_foldl_shorter (best : MethodDecl) (hits : List MethodDecl) :
    ∃ method ∈ best :: hits, hits.foldl shorter (some best) = some method := by
  induction hits generalizing best with
  | nil => exact ⟨best, List.mem_cons_self, rfl⟩
  | cons hit hits ih =>
      rw [List.foldl_cons, shorter]
      split
      · obtain ⟨method, member, found⟩ := ih hit
        exact ⟨method, List.mem_cons_of_mem _ member, found⟩
      · obtain ⟨method, member, found⟩ := ih best
        exact ⟨method, ((List.sublist_cons_self hit hits).cons_cons best).subset member, found⟩

theorem methodAt?_eq_none_iff : unit.methodAt? offset = none ↔ unit.hitsAt offset = [] := by
  rw [methodAt?, ← hitsAt]
  cases unit.hitsAt offset with
  | nil => simp
  | cons best hits =>
      obtain ⟨method, -, found⟩ := exists_foldl_shorter best hits
      have chosen : (best :: hits).foldl shorter none = some method := found
      simp [chosen]

theorem exists_methodAt?_of_contains (member : method ∈ unit.methods)
    (inside : method.span.contains offset = true) :
    ∃ found, unit.methodAt? offset = some found := by
  rw [← Option.ne_none_iff_exists', Ne, methodAt?_eq_none_iff]
  exact List.ne_nil_of_mem (mem_hitsAt.mpr ⟨member, Span.contains_iff.mp inside⟩)

theorem mem_of_methodAt? (found : unit.methodAt? offset = some method) : method ∈ unit.methods := by
  rw [methodAt?, ← hitsAt] at found
  suffices hit : method ∈ unit.hitsAt offset from (mem_hitsAt.mp hit).1
  cases hits : unit.hitsAt offset with
  | nil => simp [hits] at found
  | cons best hits' =>
      obtain ⟨chosen, member, isChosen⟩ := exists_foldl_shorter best hits'
      rw [hits] at found
      obtain rfl : chosen = method := Option.some.inj (isChosen.symm.trans found)
      exact member

/-- Methods one behind the other, each of which covers something. -/
structure AreInRow (methods : List MethodDecl) : Prop where
  covers : ∀ method ∈ methods, method.span.start.offset < method.span.stop.offset
  precedes : methods.Pairwise fun method later => method.span.Precedes later.span

theorem areInRow_of_parse (parsed : parse text path = .ok unit) : AreInRow unit.methods where
  covers method member := by
    have stands := standsIn_of_parse parsed method member
    exact (stands.typeInside.start.trans_lt stands.typed).trans_le stands.typeInside.stop
  precedes := pairwise_precedes_of_parse parsed

section Row

variable (inRow : AreInRow unit.methods)

include inRow

/-- Of methods in a row at most two are hit, and two only where one ends and the next one
begins. -/
theorem hitsAt_cases (offset : Nat) :
    unit.hitsAt offset = [] ∨ (∃ method, unit.hitsAt offset = [method]) ∨
      ∃ before behind, unit.hitsAt offset = [before, behind] ∧
        before.span.stop.offset = offset ∧ behind.span.start.offset = offset := by
  have row : (unit.hitsAt offset).Pairwise fun method later =>
      method.span.stop.offset ≤ later.span.start.offset := inRow.precedes.filter _
  have isHit (method : MethodDecl) (member : method ∈ unit.hitsAt offset) :
      method.span.start.offset ≤ offset ∧ offset ≤ method.span.stop.offset ∧
        method.span.start.offset < method.span.stop.offset := by
    obtain ⟨inUnit, starts, stops⟩ := mem_hitsAt.mp member
    exact ⟨starts, stops, inRow.covers method inUnit⟩
  match hits : unit.hitsAt offset with
  | [] => exact .inl rfl
  | [method] => exact .inr (.inl ⟨method, rfl⟩)
  | [before, behind] =>
      rw [hits] at row isHit
      have touch := List.rel_of_pairwise_cons row List.mem_cons_self
      have := isHit before (by simp)
      have := isHit behind (by simp)
      exact .inr (.inr ⟨before, behind, rfl, by omega, by omega⟩)
  | first :: second :: third :: rest =>
      -- the second one would end where it starts
      rw [hits] at row isHit
      have firstStop := List.rel_of_pairwise_cons row List.mem_cons_self
      have secondStop := List.rel_of_pairwise_cons row.of_cons List.mem_cons_self
      have := isHit first (by simp)
      have := isHit second (by simp)
      have := isHit third (by simp)
      omega

/-- A method that an offset falls inside of, other than at its end, is the last one that is
hit. -/
theorem hitsAt_of_covers (member : method ∈ unit.methods)
    (starts : method.span.start.offset ≤ offset) (stops : offset < method.span.stop.offset) :
    unit.hitsAt offset = [method] ∨ ∃ before, unit.hitsAt offset = [before, method] ∧
      before.span.stop.offset = offset ∧ method.span.start.offset = offset := by
  have isHit : method ∈ unit.hitsAt offset := mem_hitsAt.mpr ⟨member, starts, stops.le⟩
  obtain none | ⟨only, one⟩ | ⟨before, behind, two, ends, begins⟩ := hitsAt_cases inRow offset
  · rw [none] at isHit
    cases isHit
  · rw [one, List.mem_singleton] at isHit
    exact .inl (isHit ▸ one)
  · have isBehind : method = behind := by
      rw [two] at isHit
      obtain rfl | isBehind := List.mem_cons.mp isHit
      · omega
      · exact List.mem_singleton.mp isBehind
    exact .inr ⟨before, isBehind ▸ two, ends, isBehind ▸ begins⟩

/-- Where a method is found at the start of another one, the start leads to it. -/
theorem methodAt?_of_takesStart (member : method ∈ unit.methods)
    (otherMember : other ∈ unit.methods)
    (takes : other.TakesStartOf method) :
    unit.methodAt? method.span.start.offset = some other := by
  have covers := inRow.covers method member
  have isHit : other ∈ unit.hitsAt method.span.start.offset :=
    mem_hitsAt.mpr ⟨otherMember, takes.1 ▸ (inRow.covers other otherMember).le, takes.1.ge⟩
  have differs : other ≠ method := by
    rintro rfl
    exact covers.ne takes.1.symm
  obtain one | ⟨before, two, -, -⟩ := hitsAt_of_covers inRow member (le_refl _) covers
  · rw [one, List.mem_singleton] at isHit
    exact absurd isHit differs
  · have isBefore : other = before := by
      rw [two] at isHit
      simpa [differs] using isHit
    rw [methodAt?, ← hitsAt, two, ← isBefore]
    simp [shorter, not_lt.mpr takes.2]

/-- An offset inside of a method leads to the method, unless it is the first one and another
method is found there. -/
theorem methodAt?_of_covers (member : method ∈ unit.methods)
    (starts : method.span.start.offset ≤ offset) (stops : offset < method.span.stop.offset)
    (free : ∀ other ∈ unit.methods, offset = method.span.start.offset →
      ¬other.TakesStartOf method) :
    unit.methodAt? offset = some method := by
  rw [methodAt?, ← hitsAt]
  obtain one | ⟨before, two, ends, begins⟩ := hitsAt_of_covers inRow member starts stops
  · rw [one]
    rfl
  · have inUnit : before ∈ unit.methods :=
      (mem_hitsAt.mp (two ▸ List.mem_cons_self : before ∈ unit.hitsAt offset)).1
    have longer : method.span.length < before.span.length := by
      by_contra noLonger
      exact free before inUnit begins.symm ⟨ends.trans begins.symm, not_lt.mp noLonger⟩
    rw [two]
    simp [shorter, longer]

end Row

/-- In a parsed text, an offset inside of a method, its end left out, leads to the method,
unless it is the first one and a method that is no longer ends right there; then it leads to
that method.  An offset leads to no method just if it falls inside of none, not even at the
end. -/
theorem methodAt?_of_parse (parsed : parse text path = .ok unit) :
    (∀ method ∈ unit.methods, ∀ offset, method.span.start.offset ≤ offset →
      offset < method.span.stop.offset →
      (unit.methodAt? offset = some method ↔
        ∀ other ∈ unit.methods, offset = method.span.start.offset →
          ¬other.TakesStartOf method)) ∧
    (∀ method ∈ unit.methods, ∀ other ∈ unit.methods, other.TakesStartOf method →
      unit.methodAt? method.span.start.offset = some other) ∧
    ∀ offset, unit.methodAt? offset = none ↔
      ∀ method ∈ unit.methods, method.span.contains offset = false := by
  have inRow := areInRow_of_parse parsed
  refine ⟨fun method member offset starts stops => ⟨?_, ?_⟩, ?_, ?_⟩
  · rintro found other otherMember rfl takes
    have taken := methodAt?_of_takesStart inRow member otherMember takes
    obtain rfl : method = other := Option.some.inj (found.symm.trans taken)
    exact stops.ne takes.1.symm
  · exact methodAt?_of_covers inRow member starts stops
  · exact fun method member other => methodAt?_of_takesStart inRow member
  · intro offset
    rw [methodAt?_eq_none_iff, hitsAt, List.filter_eq_nil_iff]
    simp only [Bool.not_eq_true]

/-- Three methods without a blank between them; the second one is the longest. -/
private def touchingMethods : String :=
  "class T \x7b void A()\x7b \x7dint B(int x)=>x;void C();\x7d"

/-- What the methods of a file are called, and where they begin and end. -/
private def extents (unit : SourceUnit) : List (String × Nat × Nat) :=
  unit.methods.map fun method =>
    (method.name, method.span.start.offset, method.span.stop.offset)

/-- The first offset of a method may lead to another one. -/
theorem methodAt?_start_of_touching :
    ∃ unit, parse touchingMethods "T.cs" = .ok unit ∧
      ∃ method ∈ unit.methods, method.span.start.offset ≤ 21 ∧ 21 < method.span.stop.offset ∧
        method.name = "B" ∧ (unit.methodAt? 21).map (·.name) = some "A" := by
  have seen : (parse touchingMethods "T.cs").toOption.map
      (fun unit => (extents unit, (unit.methodAt? 21).map (·.name))) =
        some ([("A", 10, 21), ("B", 21, 37), ("C", 37, 46)], some "A") := by decide +kernel
  obtain ⟨unit, isUnit, -, views⟩ := exists_of_parse seen
  obtain ⟨areExtents, found⟩ := Prod.mk.inj views
  have listed : ("B", 21, 37) ∈ extents unit := by
    rw [areExtents]
    simp
  obtain ⟨method, member, isExtent⟩ := List.mem_map.mp listed
  simp only [Prod.mk.injEq] at isExtent
  obtain ⟨called, starts, stops⟩ := isExtent
  exact ⟨unit, isUnit, method, member, by omega, by omega, called, found⟩

/-- The method in the middle loses its first offset to the one in front of it, and does not
take that of the one behind it. -/
theorem methodAt?_of_parse_of_touching :
    ∃ unit first second third, parse touchingMethods "T.cs" = .ok unit ∧
      unit.methods = [first, second, third] ∧ first.TakesStartOf second ∧
      unit.methodAt? 20 = some first ∧ unit.methodAt? 21 = some first ∧
      unit.methodAt? 22 = some second ∧ unit.methodAt? 37 = some third ∧
      unit.methodAt? 9 = none := by
  have seen : (parse touchingMethods "T.cs").toOption.map extents =
      some [("A", 10, 21), ("B", 21, 37), ("C", 37, 46)] := by decide +kernel
  obtain ⟨unit, isUnit, -, areExtents⟩ := exists_of_parse seen
  obtain ⟨covered, taken, missed⟩ := methodAt?_of_parse isUnit
  simp only [extents, List.map_eq_cons_iff, List.map_eq_nil_iff, Prod.mk.injEq] at areExtents
  obtain ⟨first, _, areMethods, ⟨-, firstStarts, firstStops⟩, second, _, rfl,
    ⟨-, secondStarts, secondStops⟩, third, _, rfl, ⟨-, thirdStarts, thirdStops⟩, rfl⟩ := areExtents
  have isFirst : first ∈ unit.methods := by simp [areMethods]
  have isSecond : second ∈ unit.methods := by simp [areMethods]
  have isThird : third ∈ unit.methods := by simp [areMethods]
  have takes : first.TakesStartOf second := ⟨by omega, by simp only [Span.length]; omega⟩
  refine ⟨unit, first, second, third, isUnit, areMethods, takes, ?_, ?_, ?_, ?_, ?_⟩
  · exact (covered first isFirst 20 (by omega) (by omega)).mpr fun _ _ isStart => by omega
  · exact secondStarts ▸ taken second isSecond first isFirst takes
  · exact (covered second isSecond 22 (by omega) (by omega)).mpr fun _ _ isStart => by omega
  · refine (covered third isThird 37 (by omega) (by omega)).mpr fun other member _ takesThird => ?_
    have ends := takesThird.1
    have noLonger : other.span.stop.offset - other.span.start.offset ≤
      third.span.stop.offset - third.span.start.offset := takesThird.2
    simp only [areMethods, List.mem_cons, List.not_mem_nil, or_false] at member
    obtain rfl | rfl | rfl := member <;> omega
  · refine (missed 9).mpr fun method member => ?_
    simp only [areMethods, List.mem_cons, List.not_mem_nil, or_false] at member
    simp only [Span.contains, Bool.and_eq_false_iff, decide_eq_false_iff_not]
    obtain rfl | rfl | rfl := member <;> omega

end SourceUnit

end ErrorAccessors
