/-
# Members of generated classes

A partial class is put together from many sources, and the names of its members
are made by putting a word behind a name that may end in that word already.  So
it is not obvious that members have different names.

Every declaration of a run is one of the forms listed here, and the place and
the name of a declaration tell its form, with one exception: the property of a
method whose name ends in `Errors` may meet the class with the accessors of
another method.  A form that is not one part of a partial class belongs to one
artifact, and a run makes every artifact once.  Hence the exception is all that
can go wrong, and it does go wrong when a type has two such methods.

In the same way the forms show when a member is named like the class around it.
-/

import ErrorAccessors.Proofs.DistinctNames
import ErrorAccessors.Proofs.GeneratedOutline
import Mathlib.Data.List.Pairwise

namespace ErrorAccessors

/-- The namespace of an artifact. -/
def ArtifactKey.space : ArtifactKey → String
  | .ofType _ space _ => space
  | .ofMethod _ space _ _ => space

/-- What is declared in the sources of one namespace. -/
inductive GeneratedMember where
  | factoryPart
  | providerPart (typeName : String)
  | repositoryPart
  /-- A part of the class of a type beside the repository. -/
  | shellPart (typeName : String)
  /-- A part of the class of a type in the repository. -/
  | errorsPart (typeName : String)
  /-- The entry point of a type in the factory. -/
  | entry (typeName : String)
  /-- The property of a provider that leads to the accessors of a method. -/
  | property (typeName method : String)
  | accessorsClass (typeName method : String)
  | accessor (typeName method name : String)
  | codesClass (typeName method : String)
  | code (typeName method name : String)
deriving DecidableEq

namespace GeneratedMember

/-- The classes around a declaration, the innermost first. -/
def around : GeneratedMember → List String
  | factoryPart | providerPart _ | repositoryPart | shellPart _ => []
  | errorsPart _ => ["ErrorCodeRepository"]
  | entry _ => ["ResultsFactory"]
  | property typeName _ | accessorsClass typeName _ => [typeName ++ "ResultsProvider"]
  | accessor typeName method _ => [method ++ "Errors", typeName ++ "ResultsProvider"]
  | codesClass typeName _ => [typeName ++ "Errors", "ErrorCodeRepository"]
  | code typeName method _ => [method, typeName ++ "Errors", "ErrorCodeRepository"]

def name : GeneratedMember → String
  | factoryPart => "ResultsFactory"
  | providerPart typeName => typeName ++ "ResultsProvider"
  | repositoryPart => "ErrorCodeRepository"
  | shellPart typeName | errorsPart typeName => typeName ++ "Errors"
  | entry typeName => typeName
  | property _ method | codesClass _ method => method
  | accessorsClass _ method => method ++ "Errors"
  | accessor _ _ name | code _ _ name => name

def part? : GeneratedMember → Option String
  | providerPart _ => some "public"
  | factoryPart | repositoryPart | shellPart _ | errorsPart _ => some "public static"
  | _ => none

def declared (space : String) (member : GeneratedMember) : DeclaredMember :=
  ⟨space, member.around, member.name, member.part?⟩

/-- What the source of a key declares, given the names of the accessors. -/
def ofKey (names : List String) : ArtifactKey → List GeneratedMember
  | .ofType .resultsFactory _ typeName => [factoryPart, entry typeName]
  | .ofType .errorRepository _ typeName => [repositoryPart, errorsPart typeName]
  | .ofType .classErrorsProvider _ typeName => [shellPart typeName]
  | .ofMethod .errorsProvider _ typeName method =>
    [providerPart typeName, property typeName method]
  | .ofMethod .methodErrors _ typeName method =>
    providerPart typeName :: accessorsClass typeName method ::
      names.map (accessor typeName method)
  | .ofMethod .methodErrorCodes _ typeName method =>
    repositoryPart :: errorsPart typeName :: codesClass typeName method ::
      names.map (code typeName method)

/-- The artifact that alone may make a declaration, if it is not a part of a
partial class. -/
def owner? (space : String) : GeneratedMember → Option ArtifactKey
  | entry typeName => some (.ofType .resultsFactory space typeName)
  | property typeName method => some (.ofMethod .errorsProvider space typeName method)
  | accessorsClass typeName method | accessor typeName method _ =>
    some (.ofMethod .methodErrors space typeName method)
  | codesClass typeName method | code typeName method _ =>
    some (.ofMethod .methodErrorCodes space typeName method)
  | _ => none

/-- The two members of a provider that have one name though they belong to
different methods. -/
inductive Meets : GeneratedMember → GeneratedMember → Prop
  | property_class (typeName method : String) :
      Meets (property typeName (method ++ "Errors")) (accessorsClass typeName method)
  | class_property (typeName method : String) :
      Meets (accessorsClass typeName method) (property typeName (method ++ "Errors"))

section Places

private theorem append_ne_append {first second behind other : String} (last : Char)
    (ends : behind.toList.getLast? = some last) (nonempty : other.toList ≠ [])
    (differ : other.toList.getLast? ≠ some last) : first ++ behind ≠ second ++ other := by
  intro same
  have lasts := congrArg (fun text : String => text.toList.getLast?) same
  simp only [String.toList_append, List.getLast?_append_of_ne_nil _ nonempty,
    List.getLast?_append, ends, Option.some_or] at lasts
  exact differ lasts.symm

private theorem append_ne_word {front behind word : String} (last : Char)
    (ends : behind.toList.getLast? = some last) (nonempty : word.toList ≠ [])
    (differ : word.toList.getLast? ≠ some last) : front ++ behind ≠ word := by
  have apart : front ++ behind ≠ "" ++ word := append_ne_append last ends nonempty differ
  rwa [String.empty_append] at apart

private theorem provider_ne_errors (first second : String) :
    first ++ "ResultsProvider" ≠ second ++ "Errors" :=
  append_ne_append 'r' (by decide) (by decide) (by decide)

private theorem provider_ne_factory (typeName : String) :
    typeName ++ "ResultsProvider" ≠ "ResultsFactory" :=
  append_ne_word 'r' (by decide) (by decide) (by decide)

private theorem provider_ne_repository (typeName : String) :
    typeName ++ "ResultsProvider" ≠ "ErrorCodeRepository" :=
  append_ne_word 'r' (by decide) (by decide) (by decide)

private theorem errors_ne_factory (typeName : String) : typeName ++ "Errors" ≠ "ResultsFactory" :=
  append_ne_word 's' (by decide) (by decide) (by decide)

private theorem errors_ne_repository (typeName : String) :
    typeName ++ "Errors" ≠ "ErrorCodeRepository" :=
  append_ne_word 's' (by decide) (by decide) (by decide)

/-- Declarations with one name at one place have one form, or are the two
members of a provider that may meet. -/
theorem eq_or_meets_of_place {first second : GeneratedMember}
    (arounds : first.around = second.around) (names : first.name = second.name) :
    first = second ∨ first.Meets second := by
  -- Forms of different places or names are told apart by how the names of the
  -- classes end; only the two members of a provider are left.
  cases first <;> cases second <;>
    simp_all [around, name, provider_ne_errors, (provider_ne_errors _ _).symm,
      (provider_ne_factory _).symm, (provider_ne_repository _).symm, provider_ne_factory,
      provider_ne_repository, errors_ne_factory, errors_ne_repository,
      (errors_ne_factory _).symm, (errors_ne_repository _).symm, Meets.property_class]
  case accessorsClass.property =>
    subst names
    exact .class_property _ _

end Places

/-- Two declarations that do not agree are one declaration made twice, or they
meet in a provider. -/
theorem agrees_or (space other : String) (first second : GeneratedMember) :
    (first.declared space).Agrees (second.declared other) ∨
      space = other ∧ (first = second ∧ first.part? = none ∨ first.Meets second) := by
  refine or_iff_not_imp_left.mpr fun clash => ?_
  simp only [DeclaredMember.Agrees, declared, Classical.not_imp] at clash
  obtain ⟨spaces, arounds, names, parts⟩ := clash
  refine ⟨spaces, ?_⟩
  rcases eq_or_meets_of_place arounds names with rfl | meets
  · exact .inl ⟨rfl, by simpa using parts⟩
  · exact .inr meets

/-- Everything but parts of partial classes tells the artifact that it is made
in. -/
theorem owner?_of_mem {names : List String} {key : ArtifactKey} {member : GeneratedMember}
    (made : member ∈ ofKey names key) (isWhole : member.part? = none) :
    member.owner? key.space = some key := by
  cases key with
  | ofType kind space typeName =>
      cases kind <;> simp only [ofKey, List.mem_cons, List.not_mem_nil, or_false] at made
      · rcases made with rfl | rfl
        · cases isWhole
        · rfl
      · rcases made with rfl | rfl <;> cases isWhole
      · subst made
        cases isWhole
  | ofMethod kind space typeName method =>
      cases kind <;>
        simp only [ofKey, List.mem_cons, List.not_mem_nil, or_false, List.mem_map] at made
      · rcases made with rfl | rfl
        · cases isWhole
        · rfl
      · rcases made with rfl | rfl | ⟨name, -, rfl⟩
        · cases isWhole
        · rfl
        · rfl
      · rcases made with rfl | rfl | rfl | ⟨name, -, rfl⟩
        · cases isWhole
        · cases isWhole
        · rfl
        · rfl

theorem nodup_ofKey {names : List String} (differ : names.Nodup) (key : ArtifactKey) :
    (ofKey names key).Nodup := by
  have accessors (typeName method : String) : (names.map (accessor typeName method)).Nodup :=
    differ.map fun _ _ same => by simpa using same
  have codes (typeName method : String) : (names.map (code typeName method)).Nodup :=
    differ.map fun _ _ same => by simpa using same
  cases key with
  | ofType kind space typeName => cases kind <;> simp [ofKey]
  | ofMethod kind space typeName method => cases kind <;> simp [ofKey, accessors, codes]

end GeneratedMember

/-- The names that no accessor of an artifact may have. -/
def ArtifactKey.reserved : ArtifactKey → List String
  | .ofType _ _ _ => []
  | .ofMethod _ _ _ method => Naming.reserved method

namespace OutlinedSource

/-- A source declares what belongs to its key, with some names for the
accessors. -/
structure DeclaresNamed (source : OutlinedSource) (names : List String) : Prop where
  differ : (source.key.reserved ++ names).Nodup
  declared : ∀ defined, source.declared defined =
    (GeneratedMember.ofKey names source.key).map (GeneratedMember.declared source.key.space)

theorem declaresNamed_shared (emission : Emission) {key : ArtifactKey}
    (isShared : key.isShared = true) : (shared emission key).DeclaresNamed [] := by
  constructor
  · rw [key_shared, List.append_nil]
    cases key with
    | ofType kind space typeName => exact List.nodup_nil
    | ofMethod kind space typeName method => exact Naming.nodup_reserved method
  · intro defined
    cases key with
    | ofType kind space typeName => cases kind <;> rfl
    | ofMethod kind space typeName method =>
        cases kind with
        | errorsProvider => rfl
        | methodErrors => cases isShared
        | methodErrorCodes => cases isShared

/-- The build variants declare the same. -/
theorem declared_variantOutline (defined : Bool) (space : String) (around : List String)
    (variant : Variant) (debugSymbol : String) (method resultType : String) (shape : ReturnShape)
    (entries : List NamedEntry) :
    (Template.variantOutline variant debugSymbol
        (Template.accessorsOutline method resultType shape entries)).declared defined space around =
      ⟨space, around, method ++ "Errors", none⟩ ::
        entries.map fun named => ⟨space, (method ++ "Errors") :: around, named.name, none⟩ := by
  have alike (withMessage : Bool) :
      (Template.accessorsOutline method resultType shape entries withMessage).declared defined
          space around =
        ⟨space, around, method ++ "Errors", none⟩ ::
          entries.map fun named => ⟨space, (method ++ "Errors") :: around, named.name, none⟩ := by
    have names (named : NamedEntry) :
        (Template.accessorMember resultType shape withMessage named).name = named.name := by
      unfold Template.accessorMember
      cases shape.payload.type? <;> rfl
    simp only [Template.accessorsOutline, ClassOutline.declared, List.map_map, Function.comp_def,
      names]
    rfl
  cases variant with
  | debug => exact alike true
  | release => exact alike false
  | both => cases defined <;> exact alike _

theorem declaresNamed_ownOf {model : SiteModel} {settings : Settings} {entries : List NamedEntry}
    (named : (model.named settings.emission).outcome = .ok entries) {source : OutlinedSource}
    (member : source ∈ ownOf model settings entries) :
    source.DeclaresNamed (entries.map (·.name)) := by
  have differ := SiteModel.nodup_named named
  simp only [ownOf, List.mem_cons, List.not_mem_nil, or_false] at member
  rcases member with rfl | rfl
  · refine ⟨differ, fun defined => ?_⟩
    simp only [declared, ClassOutline.declared, declared_variantOutline, GeneratedMember.ofKey,
      List.map_cons, List.map_map]
    rfl
  · refine ⟨differ, fun defined => ?_⟩
    simp only [declared, Template.codesOutline, ClassOutline.declared, GeneratedMember.ofKey,
      List.map_cons, List.map_map]
    rfl

/-- Every source of a run declares what belongs to its key. -/
theorem exists_declaresNamed {settings : Settings} {models : List SiteModel}
    {source : OutlinedSource} (member : source ∈ requested settings models) :
    ∃ names, source.DeclaresNamed names := by
  rcases List.mem_append.mp member with made | made
  · obtain ⟨key, asked, rfl⟩ := List.mem_map.mp made
    obtain ⟨model, _, isKey⟩ := List.mem_flatMap.mp (List.mem_dedup.mp asked)
    exact ⟨[], declaresNamed_shared _ (SiteModel.isShared_of_mem_sharedKeys isKey)⟩
  · obtain ⟨model, _, isOwn⟩ := List.mem_flatMap.mp made
    unfold own at isOwn
    cases named : (model.named settings.emission).outcome with
    | ok entries =>
        rw [named] at isOwn
        exact ⟨_, declaresNamed_ownOf named isOwn⟩
    | error error => simp [named] at isOwn

end OutlinedSource

namespace ArtifactKey

/-- The artifacts of two methods of one type whose members meet in its
provider. -/
def MeetIn (typeName : String) (keys : List ArtifactKey) : Prop :=
  ∃ space method, .ofMethod .errorsProvider space typeName (method ++ "Errors") ∈ keys ∧
    .ofMethod .methodErrors space typeName method ∈ keys

/-- One of the members of an artifact has the name of the class that it stands
in. -/
def HasNameOfClass : ArtifactKey → Prop
  | .ofType .resultsFactory _ typeName => typeName = "ResultsFactory"
  | .ofMethod .errorsProvider _ typeName method => method = typeName ++ "ResultsProvider"
  | .ofMethod .methodErrorCodes _ typeName method => method = typeName ++ "Errors"
  | _ => False

end ArtifactKey

/-- Declarations of two artifacts agree, or they are one declaration of one
artifact, or they meet in a provider. -/
theorem GeneratedMember.agrees_of_mem {names others : List String} {keys : List ArtifactKey}
    {key other : ArtifactKey} (member : key ∈ keys) (otherMember : other ∈ keys)
    {first second : GeneratedMember} (made : first ∈ ofKey names key)
    (otherMade : second ∈ ofKey others other) :
    (first.declared key.space).Agrees (second.declared other.space) ∨
      (key = other ∧ first = second) ∨
      key ≠ other ∧ ∃ typeName, ArtifactKey.MeetIn typeName keys ∧
        first.around = [typeName ++ "ResultsProvider"] := by
  refine (agrees_or key.space other.space first second).imp_right ?_
  rintro ⟨spaces, ⟨rfl, isWhole⟩ | meets⟩
  · have owner := owner?_of_mem made isWhole
    rw [spaces, owner?_of_mem otherMade isWhole] at owner
    exact .inl ⟨(Option.some.inj owner).symm, rfl⟩
  · right
    have areWhole : first.part? = none ∧ second.part? = none := by
      cases meets <;> exact ⟨rfl, rfl⟩
    have owner := owner?_of_mem made areWhole.1
    have otherOwner := owner?_of_mem otherMade areWhole.2
    rw [← spaces] at otherOwner
    cases meets with
    | property_class typeName method =>
        rw [← Option.some.inj owner] at member ⊢
        rw [← Option.some.inj otherOwner] at otherMember ⊢
        exact ⟨by simp, typeName, ⟨_, method, member, otherMember⟩, rfl⟩
    | class_property typeName method =>
        rw [← Option.some.inj owner] at member ⊢
        rw [← Option.some.inj otherOwner] at otherMember ⊢
        exact ⟨by simp, typeName, ⟨_, method, otherMember, member⟩, rfl⟩

/-- Which declarations are named like the class around them. -/
theorem GeneratedMember.isNamedLikeItsClass_iff (space : String) (member : GeneratedMember) :
    (member.declared space).IsNamedLikeItsClass ↔
      match member with
      | entry typeName => typeName = "ResultsFactory"
      | property typeName method => method = typeName ++ "ResultsProvider"
      | accessor _ method name => name = method ++ "Errors"
      | codesClass typeName method => method = typeName ++ "Errors"
      | code _ method name => name = method
      | _ => False := by
  cases member <;>
    simp [DeclaredMember.IsNamedLikeItsClass, declared, around, name, provider_ne_errors,
      (errors_ne_repository _).symm, eq_comm]

namespace OutlinedSource

section Declared

variable {source : OutlinedSource} {names : List String} (named : source.DeclaresNamed names)
  (defined : Bool)

include named

theorem nodup_members : (GeneratedMember.ofKey names source.key).Nodup :=
  GeneratedMember.nodup_ofKey named.differ.of_append_right source.key

/-- The accessors of a source are never named like their class. -/
theorem exists_isNamedLikeItsClass_iff :
    (∃ member ∈ source.declared defined, member.IsNamedLikeItsClass) ↔
      source.key.HasNameOfClass := by
  have differ := named.differ
  simp only [named.declared, List.mem_map, exists_exists_and_eq_and,
    GeneratedMember.isNamedLikeItsClass_iff]
  cases isKey : source.key with
  | ofType kind space typeName =>
      cases kind <;> simp [GeneratedMember.ofKey, ArtifactKey.HasNameOfClass]
  | ofMethod kind space typeName method =>
      rw [isKey] at differ
      have apart := List.disjoint_of_nodup_append differ
      have noClass : method ++ "Errors" ∉ names := fun taken => apart List.mem_cons_self taken
      have noCodes : method ∉ names := fun taken =>
        apart (List.mem_cons_of_mem _ List.mem_cons_self) taken
      cases kind <;> simp [GeneratedMember.ofKey, ArtifactKey.HasNameOfClass, noClass, noCodes]

end Declared

section Requested

variable {settings : Settings} {models : List SiteModel}
  (differ : ((requested settings models).map (·.key)).Nodup) (defined : Bool)

include differ

/-- Two declarations of a run agree, or they meet in a provider. -/
theorem pairwise_agrees_or :
    ((requested settings models).flatMap (declared defined)).Pairwise fun first second =>
      first.Agrees second ∨
        ∃ typeName, ArtifactKey.MeetIn typeName ((requested settings models).map (·.key)) ∧
          first.around = [typeName ++ "ResultsProvider"] := by
  -- Within one source the forms differ, and between two sources the keys do.
  refine List.pairwise_flatMap.mpr ⟨fun source member => ?_, ?_⟩
  · obtain ⟨names, named⟩ := exists_declaresNamed member
    have isKey := List.mem_map_of_mem (f := key) member
    rw [named.declared, List.pairwise_map]
    refine (nodup_members named).imp_of_mem fun made otherMade apart => ?_
    rcases GeneratedMember.agrees_of_mem isKey isKey made otherMade with
      agree | ⟨-, same⟩ | ⟨differ, -⟩
    · exact .inl agree
    · exact absurd same apart
    · exact absurd rfl differ
  · have keysDiffer := List.pairwise_map.mp differ
    refine keysDiffer.imp_of_mem fun {source other} member otherMember apart => ?_
    obtain ⟨names, named⟩ := exists_declaresNamed member
    obtain ⟨others, otherNamed⟩ := exists_declaresNamed otherMember
    rw [named.declared, otherNamed.declared]
    refine List.forall_mem_map.mpr fun first made => ?_
    refine List.forall_mem_map.mpr fun second otherMade => ?_
    rcases GeneratedMember.agrees_of_mem (List.mem_map_of_mem (f := key) member)
      (List.mem_map_of_mem (f := key) otherMember) made otherMade with agree | ⟨same, -⟩ | ⟨-, meet⟩
    · exact .inl agree
    · exact absurd same apart
    · exact .inr meet

/-- All declarations of a run agree exactly when no two of its artifacts meet. -/
theorem pairwise_agrees_iff :
    ((requested settings models).flatMap (declared defined)).Pairwise DeclaredMember.Agrees ↔
      ∀ typeName, ¬ArtifactKey.MeetIn typeName ((requested settings models).map (·.key)) := by
  constructor
  · rintro agree typeName ⟨space, method, hasProperty, hasClass⟩
    obtain ⟨source, member, isKey⟩ := List.mem_map.mp hasProperty
    obtain ⟨other, otherMember, isOther⟩ := List.mem_map.mp hasClass
    have apart : source ≠ other := by
      rintro rfl
      simp [isKey] at isOther
    obtain ⟨names, named⟩ := exists_declaresNamed member
    obtain ⟨others, otherNamed⟩ := exists_declaresNamed otherMember
    have isSymm : Std.Symm fun source other : OutlinedSource =>
        ∀ first ∈ source.declared defined, ∀ second ∈ other.declared defined,
          first.Agrees second :=
      ⟨fun _ _ agree first made second otherMade => (agree second otherMade first made).symm⟩
    have across := (List.pairwise_flatMap.mp agree).2.forall member otherMember apart
    rw [named.declared, otherNamed.declared, isKey, isOther] at across
    have clash := across _ (List.mem_map_of_mem (a := .property typeName (method ++ "Errors"))
        (by simp [GeneratedMember.ofKey]))
      _ (List.mem_map_of_mem (a := .accessorsClass typeName method)
        (by simp [GeneratedMember.ofKey]))
    cases (clash rfl rfl rfl).1
  · intro apart
    refine (pairwise_agrees_or differ defined).imp fun either => ?_
    exact either.resolve_right fun ⟨typeName, meet, _⟩ => apart typeName meet

omit differ in
/-- No declaration of a run is named like its class exactly when none of its
artifacts has one that is. -/
theorem forall_not_isNamedLikeItsClass_iff :
    (∀ member ∈ (requested settings models).flatMap (declared defined),
        ¬member.IsNamedLikeItsClass) ↔
      ∀ key ∈ (requested settings models).map (·.key), ¬key.HasNameOfClass := by
  rw [List.forall_mem_map]
  simp only [List.mem_flatMap, forall_exists_index, and_imp]
  constructor
  · intro apart source member
    obtain ⟨names, named⟩ := exists_declaresNamed member
    rw [← exists_isNamedLikeItsClass_iff named defined]
    rintro ⟨declaration, made, like⟩
    exact apart declaration source member made like
  · intro apart declaration source member made like
    obtain ⟨names, named⟩ := exists_declaresNamed member
    exact apart source member
      ((exists_isNamedLikeItsClass_iff named defined).mp ⟨declaration, made, like⟩)

end Requested

end OutlinedSource

namespace MarkedSite

/-- No method is called like another one of the same type with `Errors` behind
it. -/
def AccessorsApart (sites : List MarkedSite) : Prop :=
  ∀ first ∈ sites, ∀ second ∈ sites, first.space = second.space →
    first.typeName = second.typeName → second.method ≠ first.method ++ "Errors"

/-- Neither the type nor the method of a site is called like a class that holds
what is generated for it. -/
structure IsNamedApart (site : MarkedSite) : Prop where
  factory : site.typeName ≠ "ResultsFactory"
  provider : site.method ≠ site.typeName ++ "ResultsProvider"
  errors : site.method ≠ site.typeName ++ "Errors"

section Keys

variable {sites : List MarkedSite} {keys : List ArtifactKey}
  (covered : ∀ key, key ∈ keys ↔ ∃ site ∈ sites,
    (∃ kind, key = .ofType kind site.space site.typeName) ∨
      ∃ kind, key = .ofMethod kind site.space site.typeName site.method)

include covered

theorem accessorsApart_iff :
    AccessorsApart sites ↔ ∀ typeName, ¬ArtifactKey.MeetIn typeName keys := by
  constructor
  · rintro apart typeName ⟨space, method, hasProperty, hasClass⟩
    obtain ⟨second, isSecond, ⟨kind, same⟩ | ⟨kind, same⟩⟩ := (covered _).mp hasProperty
    · cases same
    obtain ⟨first, isFirst, ⟨kind, isOther⟩ | ⟨kind, isOther⟩⟩ := (covered _).mp hasClass
    · cases isOther
    injection same with _ space typeName method
    injection isOther with _ otherSpace otherTypeName otherMethod
    exact apart first isFirst second isSecond (otherSpace.symm.trans space)
      (otherTypeName.symm.trans typeName) (otherMethod ▸ method.symm)
  · intro apart first isFirst second isSecond spaces typeNames methods
    refine apart second.typeName ⟨second.space, first.method, ?_, ?_⟩
    · exact (covered _).mpr ⟨second, isSecond, .inr ⟨_, by rw [methods]⟩⟩
    · exact (covered _).mpr ⟨first, isFirst, .inr ⟨_, by rw [spaces, typeNames]⟩⟩

theorem forall_isNamedApart_iff :
    (∀ site ∈ sites, site.IsNamedApart) ↔ ∀ key ∈ keys, ¬key.HasNameOfClass := by
  constructor
  · intro apart key member
    obtain ⟨site, isSite, ⟨kind, rfl⟩ | ⟨kind, rfl⟩⟩ := (covered key).mp member
    · cases kind <;> simp [ArtifactKey.HasNameOfClass, (apart site isSite).factory]
    · cases kind <;> simp [ArtifactKey.HasNameOfClass, (apart site isSite).provider,
        (apart site isSite).errors]
  · intro apart site isSite
    exact {
      factory := apart (.ofType .resultsFactory _ _) ((covered _).mpr ⟨site, isSite, .inl ⟨_, rfl⟩⟩)
      provider := apart (.ofMethod .errorsProvider _ _ _)
        ((covered _).mpr ⟨site, isSite, .inr ⟨_, rfl⟩⟩)
      errors := apart (.ofMethod .methodErrorCodes _ _ _)
        ((covered _).mpr ⟨site, isSite, .inr ⟨_, rfl⟩⟩) }

end Keys

end MarkedSite

namespace Generation

variable (units : List SourceUnit) (settings : Settings)

/-- Declarations are made under the keys of the run. -/
theorem map_key_outlined_perm :
    ((run (.ofUnits units) settings).artifacts.map (·.key)).Perm
      ((outlined units settings).map (·.key)) := by
  have keys := (artifacts_run_perm_outlined units settings).map (·.key)
  rwa [List.map_map] at keys

/-- A run makes the texts of declarations.  Where the debug symbol is defined,
and where it is not, all of them agree exactly when no method has the name of
another one of its type with `Errors` behind, and only in providers they may not;
and no member is named like the class around it exactly when no type is called
like the factory and no method like the provider or the errors of its type. -/
theorem declared_agree_iff (defined : Bool) :
    let declared := (outlined units settings).flatMap (OutlinedSource.declared defined)
    let emitted := (run (.ofUnits units) settings).emittedSites
    (run (.ofUnits units) settings).artifacts.Perm
        ((outlined units settings).map (OutlinedSource.artifact settings.emission)) ∧
      (declared.Pairwise DeclaredMember.Agrees ↔ MarkedSite.AccessorsApart emitted) ∧
      (declared.Pairwise fun first second =>
        first.Agrees second ∨ ∃ typeName, first.around = [typeName ++ "ResultsProvider"]) ∧
      ((∀ member ∈ declared, ¬member.IsNamedLikeItsClass) ↔
        ∀ site ∈ emitted, site.IsNamedApart) := by
  intro declared emitted
  have keys := map_key_outlined_perm units settings
  have differ := keys.nodup_iff.mp (nodup_map_key_run units settings)
  have covered (key : ArtifactKey) := keys.mem_iff.symm.trans (mem_map_key_run units settings key)
  refine ⟨artifacts_run_perm_outlined units settings, ?_, ?_, ?_⟩
  · rw [MarkedSite.accessorsApart_iff covered]
    exact OutlinedSource.pairwise_agrees_iff differ defined
  · refine (OutlinedSource.pairwise_agrees_or differ defined).imp fun either => ?_
    exact either.imp_right fun ⟨typeName, _, inProvider⟩ => ⟨typeName, inProvider⟩
  · rw [MarkedSite.forall_isNamedApart_iff covered]
    exact OutlinedSource.forall_not_isNamedLikeItsClass_iff defined

/-- A class `A` with annotated methods of some names. -/
private def classOfMethods (methods : List String) : SourceUnit where
  path := "A.cs"
  span := Span.atFileStart "A.cs"
  usings := []
  members := [.type ⟨Span.atFileStart "A.cs", .classType, "A", Span.atFileStart "A.cs", [], [], [],
    methods.map fun method => .method {
      span := Span.atFileStart "A.cs"
      attributeLists := [⟨Span.atFileStart "A.cs", none,
        [⟨Span.atFileStart "A.cs", ["ErrorResult"],
          [⟨Span.atFileStart "A.cs", none, .int 1⟩,
            ⟨Span.atFileStart "A.cs", none, .str "Out of range"⟩]⟩]⟩]
      modifiers := []
      returnType := .named none [⟨"Result", []⟩] (Span.atFileStart "A.cs")
      name := method
      nameSpan := Span.atFileStart "A.cs"
      typeParameters := []
      body := .absent }⟩]

/-- The property of `MErrors` meets the class with the accessors of `M`. -/
example :
    ¬((outlined [classOfMethods ["M", "MErrors"]] {}).flatMap
      (OutlinedSource.declared true)).Pairwise DeclaredMember.Agrees := by
  decide +kernel

/-- The constants of `AErrors` stand in a class of that name. -/
example :
    ∃ member ∈ (outlined [classOfMethods ["AErrors"]] {}).flatMap (OutlinedSource.declared true),
      member.IsNamedLikeItsClass := by
  decide +kernel

end Generation

end ErrorAccessors
