/-
# Which marked methods have a site

The sites of a set of files are collected by the namespace, the name of the type
and the name of the method, and the first marked method takes them.  The types
around a nested type do not count.  Overloads and the parts of one partial type
therefore share a site, as they are meant to; but two nested types of one name in
different types do so too, although they are different types, and then the methods
of the second one have no site.

So a method of a type has a site exactly if one of the marked methods of that name
on that type comes first.  It always has one if no other type of the namespace
has its name and a marked method of that name.
-/

import ErrorAccessors.Proofs.ProperBinding

namespace ErrorAccessors

namespace Text

/-- A word and what stands in front of it can be read off the joined name. -/
theorem joinDotted_word_inj {first second : List String} {word other : String}
    (isWord : Lexeme.IsWord word.toList) (isOther : Lexeme.IsWord other.toList)
    (same : joinDotted (first ++ [word]) = joinDotted (second ++ [other])) :
    joinDotted first = joinDotted second ∧ word = other := by
  have ends := endsWithPart_joinDotted first isWord.ne_empty
  have isLast : word = other :=
    ends.unique (same ▸ endsWithPart_joinDotted second isOther.ne_empty) isWord.dot_notMem
      isOther.dot_notMem
  refine ⟨?_, isLast⟩
  subst isLast
  have behind (front : String) : front ++ "." ++ word ≠ word := by
    intro whole
    have lengths := congrArg String.length whole
    have dot : ".".length = 1 := rfl
    simp only [String.length_append] at lengths
    omega
  simp only [joinDotted_append_singleton, if_neg isWord.ne_empty] at same
  split at same
  · next noFirst =>
    split at same
    · next noSecond => rw [noFirst, noSecond]
    · exact absurd same.symm (behind _)
  · split at same
    · exact absurd same (behind _)
    · simpa only [String.append_assoc, String.append_left_inj] using same

end Text

namespace PlacedMethod

/-- Whether a method is the first marked one with its namespace, type name and
name. -/
def IsFirst (marker : Marker) (units : List SourceUnit) (placed : PlacedMethod) : Prop :=
  ∃ before behind, ofUnits units = before ++ placed :: behind ∧
    placed.isMarked marker = true ∧
    ∀ earlier ∈ before, earlier.isMarked marker = true → earlier.site.place ≠ placed.site.place

variable {units : List SourceUnit} {marker : Marker}

/-- In parsed files the identifier of a method tells its namespace, the name of
its type and its name. -/
theorem qualifiedId_eq_iff (parsed : ∀ unit ∈ units, unit.IsParsed) {first second : PlacedMethod}
    (inFirst : first ∈ ofUnits units) (inSecond : second ∈ ofUnits units) :
    first.site.qualifiedId = second.site.qualifiedId ↔ first.site.place = second.site.place := by
  have words {placed : PlacedMethod} (member : placed ∈ ofUnits units) :
      Lexeme.IsWord placed.type.decl.name.toList ∧ Lexeme.IsWord placed.method.name.toList := by
    obtain ⟨type, declared, inType⟩ := List.mem_flatMap.mp member
    obtain ⟨method, own, rfl⟩ := List.mem_map.mp inType
    have proper := SourceUnit.isProper_of_mem parsed type declared
    exact ⟨proper.name, (proper.methods method own).name⟩
  refine ⟨fun same => ?_, fun same => ?_⟩
  · have sameParts : Text.joinDotted ([first.type.scope.space, first.type.decl.name] ++
          [first.method.name]) =
        Text.joinDotted ([second.type.scope.space, second.type.decl.name] ++
          [second.method.name]) := same
    obtain ⟨sameType, sameMethod⟩ :=
      Text.joinDotted_word_inj (words inFirst).2 (words inSecond).2 sameParts
    have sameTypeParts : Text.joinDotted ([first.type.scope.space] ++ [first.type.decl.name]) =
        Text.joinDotted ([second.type.scope.space] ++ [second.type.decl.name]) := sameType
    obtain ⟨sameSpace, sameName⟩ :=
      Text.joinDotted_word_inj (words inFirst).1 (words inSecond).1 sameTypeParts
    have alone (space : String) : Text.joinDotted [space] = space := by
      by_cases outside : space = "" <;> simp [Text.joinDotted, outside]
    rw [alone, alone] at sameSpace
    exact Prod.ext sameSpace (Prod.ext sameName sameMethod)
  · obtain ⟨sameSpace, sameRest⟩ := Prod.mk.inj same
    obtain ⟨sameName, sameMethod⟩ := Prod.mk.inj sameRest
    show Text.joinDotted [first.site.space, first.site.typeName, first.site.method] =
      Text.joinDotted [second.site.space, second.site.typeName, second.site.method]
    rw [sameSpace, sameName, sameMethod]

theorem IsFirst.mem {placed : PlacedMethod} (isFirst : placed.IsFirst marker units) :
    placed ∈ ofUnits units := by
  obtain ⟨before, behind, parts, -⟩ := isFirst
  exact parts ▸ by simp

/-- A site comes from the first marked method of its place. -/
theorem origin?_eq_some_iff (parsed : ∀ unit ∈ units, unit.IsParsed) {placed : PlacedMethod} :
    origin? marker units placed.site = some placed ↔ placed.IsFirst marker units := by
  rw [origin?, List.find?_eq_some_iff_append]
  simp only [Bool.and_eq_true, beq_self_eq_true, and_true, Bool.not_eq_eq_eq_not, Bool.not_true,
    Bool.and_eq_false_iff, beq_eq_false_iff_ne]
  have apart {before behind : List PlacedMethod}
      (parts : ofUnits units = before ++ placed :: behind)
      {earlier : PlacedMethod} (front : earlier ∈ before) :
      earlier.isMarked marker = false ∨ earlier.site.qualifiedId ≠ placed.site.qualifiedId ↔
        (earlier.isMarked marker = true → earlier.site.place ≠ placed.site.place) := by
    have inFront : earlier ∈ ofUnits units := parts ▸ List.mem_append_left _ front
    have isPlaced := qualifiedId_eq_iff parsed inFront (parts ▸ by simp : placed ∈ ofUnits units)
    rw [Ne, isPlaced]
    cases earlier.isMarked marker <;> simp
  constructor
  · rintro ⟨marked, before, behind, parts, none⟩
    exact ⟨before, behind, parts, marked, fun earlier front =>
      (apart parts front).mp (none earlier front)⟩
  · rintro ⟨before, behind, parts, marked, none⟩
    exact ⟨marked, before, behind, parts, fun earlier front =>
      (apart parts front).mpr (none earlier front)⟩

/-- For every marked method there is a first one of its place. -/
theorem exists_isFirst (parsed : ∀ unit ∈ units, unit.IsParsed) {placed : PlacedMethod}
    (member : placed ∈ ofUnits units) (marked : placed.isMarked marker = true) :
    ∃ first : PlacedMethod, first.IsFirst marker units ∧ first.site.place = placed.site.place := by
  have found : (origin? marker units placed.site).isSome = true := by
    rw [origin?, List.find?_isSome]
    exact ⟨placed, member, by simp [marked]⟩
  obtain ⟨first, isOrigin⟩ := Option.isSome_iff_exists.mp found
  have sameId : first.site.qualifiedId = placed.site.qualifiedId := by
    have isHit := List.find?_some isOrigin
    rw [Bool.and_eq_true, beq_iff_eq] at isHit
    exact isHit.2
  refine ⟨first, (origin?_eq_some_iff parsed).mp ?_,
    (qualifiedId_eq_iff parsed (List.mem_of_find?_eq_some isOrigin) member).mp sameId⟩
  rw [← isOrigin]
  unfold origin?
  rw [sameId]

end PlacedMethod

namespace MarkedSite

variable {units : List SourceUnit} {marker : Marker}

/-- The sites of parsed files are those of the first marked methods of their
places. -/
theorem mem_ofUnits_iff (parsed : ∀ unit ∈ units, unit.IsParsed) {site : MarkedSite} :
    site ∈ ofUnits marker units ↔
      ∃ first : PlacedMethod, first.IsFirst marker units ∧ first.site = site := by
  constructor
  · intro member
    obtain ⟨placed, origin, rfl⟩ := exists_origin member
    exact ⟨placed, (PlacedMethod.origin?_eq_some_iff parsed).mp origin, rfl⟩
  · rintro ⟨first, isFirst, rfl⟩
    have origin := (PlacedMethod.origin?_eq_some_iff parsed).mpr isFirst
    have kept : (ofUnits marker units).find?
        (fun other => other.qualifiedId == first.site.qualifiedId) = some first.site := by
      rw [ofUnits, find?_distinct, ← PlacedMethod.map_site_ofUnits, List.find?_map,
        List.find?_filter]
      simp only [Bool.decide_and, Bool.decide_eq_true, Function.comp_apply]
      exact congrArg (Option.map PlacedMethod.site) origin
    exact List.mem_of_find?_eq_some kept

/-- Every place of a site is that of one site only. -/
theorem filter_place_ofUnits {site : MarkedSite} (member : site ∈ ofUnits marker units) :
    (ofUnits marker units).filter (fun other => other.place = site.place) = [site] := by
  have distinct := nodup_place_ofUnits marker units
  obtain ⟨before, behind, parts⟩ := List.append_of_mem member
  rw [parts, List.map_append, List.map_cons, List.nodup_middle, List.nodup_cons,
    ← List.map_append] at distinct
  have others (other : MarkedSite) (isOther : other ∈ before ++ behind) :
      ¬ other.place = site.place := fun same =>
    distinct.1 (List.mem_map.mpr ⟨other, isOther, same⟩)
  obtain ⟨front, back⟩ := List.forall_mem_append.mp others
  rw [parts, List.filter_append, List.filter_cons_of_pos (by simp),
    List.filter_eq_nil_iff.mpr (by simpa using front),
    List.filter_eq_nil_iff.mpr (by simpa using back), List.nil_append]

/-- Every marked method of parsed files has a site with its namespace, the name of
its type and its name.  It is the only one, that of the first marked method with
these three.  It is one of the type itself exactly if one of the marked methods of
that name on the type comes first; so it is one if all marked methods with that
namespace, type name and method name are on types of one full name. -/
theorem discovered_iff (parsed : ∀ unit ∈ units, unit.IsParsed) (marker : Marker)
    {placed : PlacedMethod} (member : placed ∈ PlacedMethod.ofUnits units)
    (marked : placed.isMarked marker = true) :
    (∃ site ∈ ofUnits marker units, site.place = placed.site.place) ∧
      (∃ first : PlacedMethod, first.IsFirst marker units ∧
        first.site.place = placed.site.place ∧
        (ofUnits marker units).filter (fun site => site.place = placed.site.place) =
          [first.site]) ∧
      ((∃ site ∈ ofUnits marker units,
          site.fullName = placed.type.fullName ∧ site.method = placed.method.name) ↔
        ∃ first : PlacedMethod, first.IsFirst marker units ∧
          first.type.fullName = placed.type.fullName ∧ first.method.name = placed.method.name) ∧
      ((∀ other ∈ PlacedMethod.ofUnits units, other.isMarked marker = true →
          other.site.place = placed.site.place → other.type.fullName = placed.type.fullName) →
        ∃ site ∈ ofUnits marker units,
          site.fullName = placed.type.fullName ∧ site.method = placed.method.name) := by
  obtain ⟨first, isFirst, samePlace⟩ := PlacedMethod.exists_isFirst parsed member marked
  have isSite : first.site ∈ ofUnits marker units :=
    (mem_ofUnits_iff parsed).mpr ⟨first, isFirst, rfl⟩
  have isOnly := filter_place_ofUnits isSite
  rw [samePlace] at isOnly
  refine ⟨⟨first.site, isSite, samePlace⟩, ⟨first, isFirst, samePlace, isOnly⟩, ⟨?_, ?_⟩,
    fun alone => ?_⟩
  · rintro ⟨site, isOne, sameType, sameMethod⟩
    obtain ⟨found, isFound, rfl⟩ := (mem_ofUnits_iff parsed).mp isOne
    exact ⟨found, isFound, sameType, sameMethod⟩
  · rintro ⟨found, isFound, sameType, sameMethod⟩
    exact ⟨found.site, (mem_ofUnits_iff parsed).mpr ⟨found, isFound, rfl⟩, sameType, sameMethod⟩
  · obtain ⟨before, behind, parts, firstMarked, -⟩ := isFirst
    refine ⟨first.site, isSite, alone first (parts ▸ by simp) firstMarked samePlace, ?_⟩
    exact congrArg (fun place => place.2.2) samePlace

end MarkedSite

/-- Two classes with a nested class of one name, each with a marked method of one
name. -/
private def namesakesText : String :=
  "class Red \x7b class Cell \x7b " ++
      "[ErrorResult(1, \"Full\")] public Result Fill() => null; \x7d \x7d " ++
    "class Blue \x7b class Cell \x7b " ++
      "[ErrorResult(2, \"Shut\")] public Result Fill() => null; \x7d \x7d"

/-- What the files with the two classes declare: the marked methods with their full
names, and the full names of the sites. -/
private theorem exists_namesakes :
    ∃ unit red blue, SourceUnit.parse namesakesText "Cells.cs" = .ok unit ∧
      (∀ other ∈ [unit], other.IsParsed) ∧ PlacedMethod.ofUnits [unit] = [red, blue] ∧
      red.isMarked {} = true ∧ red.type.fullName = "Red.Cell" ∧ red.method.name = "Fill" ∧
      blue.isMarked {} = true ∧ blue.type.fullName = "Blue.Cell" ∧ blue.method.name = "Fill" ∧
      (MarkedSite.ofUnits {} [unit]).map (·.fullName) = ["Red.Cell"] := by
  have seen : (SourceUnit.parse namesakesText "Cells.cs").toOption.map (fun unit =>
      ((PlacedMethod.ofUnits [unit]).map fun placed =>
          (placed.isMarked {}, placed.type.fullName, placed.method.name),
        (MarkedSite.ofUnits {} [unit]).map (·.fullName))) =
      some ([(true, "Red.Cell", "Fill"), (true, "Blue.Cell", "Fill")], ["Red.Cell"]) := by
    decide +kernel
  obtain ⟨unit, isUnit, parsed, isSeen⟩ := SourceUnit.exists_of_parse seen
  obtain ⟨methods, sites⟩ := Prod.mk.inj isSeen
  obtain ⟨red, behind, isPlaced, isRed, isBehind⟩ := List.map_eq_cons_iff.mp methods
  obtain ⟨blue, rfl, isBlue⟩ := List.map_eq_singleton_iff.mp isBehind
  simp only [Prod.mk.injEq] at isRed isBlue
  exact ⟨unit, red, blue, isUnit, parsed, isPlaced, isRed.1, isRed.2.1, isRed.2.2, isBlue.1,
    isBlue.2.1, isBlue.2.2, sites⟩

/-- The marked method of the second nested class has no site. -/
theorem MarkedSite.undiscovered_of_namesakes :
    ∃ unit placed, SourceUnit.parse namesakesText "Cells.cs" = .ok unit ∧
      placed ∈ PlacedMethod.ofUnits [unit] ∧ placed.isMarked {} = true ∧
      ¬ ∃ site ∈ ofUnits {} [unit],
        site.fullName = placed.type.fullName ∧ site.method = placed.method.name := by
  obtain ⟨unit, red, blue, isUnit, -, isPlaced, -, -, -, marked, isType, -, sites⟩ :=
    exists_namesakes
  refine ⟨unit, blue, isUnit, isPlaced ▸ by simp, marked, ?_⟩
  rintro ⟨site, member, sameType, -⟩
  have isOnly := List.mem_map_of_mem (f := MarkedSite.fullName) member
  rw [sites, List.mem_singleton, sameType, isType] at isOnly
  exact absurd isOnly (by decide)

/-- The method of the first nested class has a site of its own type, and the method of
the second one has one site of its place. -/
theorem MarkedSite.discovered_iff_of_namesakes :
    ∃ unit red blue, SourceUnit.parse namesakesText "Cells.cs" = .ok unit ∧
      PlacedMethod.ofUnits [unit] = [red, blue] ∧
      (∃ site ∈ ofUnits {} [unit],
        site.fullName = red.type.fullName ∧ site.method = red.method.name) ∧
      (∃ site ∈ ofUnits {} [unit], site.place = blue.site.place) ∧
      ∃ first : PlacedMethod, first.IsFirst {} [unit] ∧
        (ofUnits {} [unit]).filter (fun site => site.place = blue.site.place) = [first.site] := by
  obtain ⟨unit, red, blue, isUnit, parsed, isPlaced, redMarked, -, -, blueMarked, -, -, -⟩ :=
    exists_namesakes
  have isFirst : red.IsFirst {} [unit] := ⟨[], [blue], isPlaced, redMarked, List.forall_mem_nil _⟩
  obtain ⟨-, -, redHasSite, -⟩ := discovered_iff parsed {} isFirst.mem redMarked
  obtain ⟨blueHasPlace, ⟨first, firstIs, -, isOnly⟩, -⟩ :=
    discovered_iff parsed {} (isPlaced ▸ by simp : blue ∈ PlacedMethod.ofUnits [unit]) blueMarked
  exact ⟨unit, red, blue, isUnit, isPlaced, redHasSite.mpr ⟨red, isFirst, rfl, rfl⟩, blueHasPlace,
    first, firstIs, isOnly⟩

end ErrorAccessors
