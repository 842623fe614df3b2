/-
# When the sources of a run keep out of each other's way

The artifacts of a run have different keys, because shared ones are made once
and no two sites of a run stand for the same method name.  Their names can still
agree: a name does not show where the name of the type ends and that of the
method begins.  A run therefore loses a source exactly when two of its sites
have different names that join to the same stem, and this module turns that into
an equivalence.  The source that lists the faults is never in the way.

Sites that were rejected or dropped make no artifacts, so they do not count.
-/

import ErrorAccessors.Generation
import ErrorAccessors.Proofs.ArtifactName
import ErrorAccessors.Proofs.Emission
import ErrorAccessors.Proofs.FirstKept
import ErrorAccessors.Proofs.SourceSet

namespace ErrorAccessors

namespace MarkedSite

/-- No two types and no two methods among the sites have stems in common. -/
def StemsDiffer (sites : List MarkedSite) : Prop :=
  ∀ first ∈ sites, ∀ second ∈ sites,
    (joinParts [first.space, first.typeName] = joinParts [second.space, second.typeName] →
      first.space = second.space ∧ first.typeName = second.typeName) ∧
    (joinParts [first.space, first.typeName, first.method] =
        joinParts [second.space, second.typeName, second.method] →
      first.space = second.space ∧ first.typeName = second.typeName ∧
        first.method = second.method)

instance (sites : List MarkedSite) : Decidable (StemsDiffer sites) :=
  inferInstanceAs (Decidable (∀ first ∈ sites, ∀ second ∈ sites, _ ∧ _))

/-- The namespace, type and method that a site is about. -/
def place (site : MarkedSite) : String × String × String :=
  (site.space, site.typeName, site.method)

/-- The identifier of a site is made from the place alone. -/
def WellNamed (site : MarkedSite) : Prop :=
  site.qualifiedId = Text.joinDotted [site.space, site.typeName, site.method]

/-- Keeping the first site of every identifier leaves every identifier once. -/
theorem nodup_qualifiedId_distinct (sites : List MarkedSite) :
    ((distinct sites).map (·.qualifiedId)).Nodup :=
  nodup_map_foldl_keepFirst (fun _ => rfl) sites List.nodup_nil

theorem mem_of_mem_distinct {sites : List MarkedSite} {site : MarkedSite}
    (member : site ∈ distinct sites) : site ∈ sites := by
  obtain ⟨other, isOther, rfl⟩ :=
    (mem_foldl_keepFirst member).resolve_left List.not_mem_nil
  exact isOther

/-- Where every identifier stands once, all sites are kept. -/
theorem distinct_of_nodup {sites : List MarkedSite}
    (unique : (sites.map (·.qualifiedId)).Nodup) : distinct sites = sites := by
  refine (foldl_keepFirst_of_nodup (fun _ => rfl) ?_).trans (List.map_id sites)
  exact unique

/-- The sites of a run stand for different places. -/
theorem nodup_place_ofUnits (marker : Marker) (units : List SourceUnit) :
    ((ofUnits marker units).map place).Nodup := by
  have wellNamed : ∀ site ∈ ofUnits marker units, site.WellNamed := by
    intro site member
    obtain ⟨unit, _, inUnit⟩ := List.mem_flatMap.mp (mem_of_mem_distinct member)
    obtain ⟨type, _, inType⟩ := List.mem_flatMap.mp inUnit
    obtain ⟨method, _, rfl⟩ := List.mem_map.mp inType
    rfl
  have identifiers : (ofUnits marker units).map (·.qualifiedId) =
      ((ofUnits marker units).map place).map
        fun place => Text.joinDotted [place.1, place.2.1, place.2.2] := by
    rw [List.map_map]
    exact List.map_congr_left wellNamed
  have unique := nodup_qualifiedId_distinct (units.flatMap fun unit => unit.sites marker)
  rw [show distinct _ = ofUnits marker units from rfl, identifiers] at unique
  exact List.Nodup.of_map _ unique

end MarkedSite

/-- Whether the artifacts of a site were made. -/
def SiteRecord.isEmitted (record : SiteRecord) : Bool :=
  match record.outcome with
  | .emitted _ => true
  | _ => false

/-- The sites of a run whose artifacts were made. -/
def GenerationReport.emittedSites (report : GenerationReport) : List MarkedSite :=
  (report.records.filter (·.isEmitted)).map (·.site)

namespace Generation

/-- The model of a site whose type is known and whose method can be read. -/
def siteModel? (table : TypeTable) (settings : Settings) (site : MarkedSite) : Option SiteModel :=
  match (site.read table settings.marker settings.grammar).outcome with
  | .ok model => model
  | .error _ => none

/-- The models that a run hands to the emitter, in the order of the sites. -/
def siteModels (table : TypeTable) (settings : Settings) (sites : List MarkedSite) :
    List SiteModel :=
  sites.filterMap (siteModel? table settings)

/-- A model is about the site that it was read for. -/
theorem site_of_siteModel? {table : TypeTable} {settings : Settings} {site : MarkedSite}
    {model : SiteModel} (read : siteModel? table settings site = some model) :
    model.site = site := by
  unfold siteModel? MarkedSite.read at read
  cases found : table.find? site.fullName with
  | none => simp [found] at read
  | some type =>
      cases named : type.method? settings.marker site.method with
      | none => simp [found, named] at read
      | some method =>
          cases shape : method.returnShape settings.grammar with
          | error error => simp [found, named, shape, Except.map] at read
          | ok shape =>
              simp only [found, named, shape, Except.map, Option.some.injEq] at read
              exact read ▸ rfl

section Run

variable (table : TypeTable) (settings : Settings)

/-- A site with an accepted model gets what the emitter makes of the model. -/
theorem runSite_of_isAccepted {site : MarkedSite} {model : SiteModel} (ledger : Ledger)
    (read : siteModel? table settings site = some model)
    (accepted : model.isAccepted settings = true) :
    ∃ warnings, runSite table settings ledger site =
      (⟨site,
          .emitted ((ledger.select (model.sharedArtifacts settings.emission)).1 ++
            model.own settings),
          warnings⟩,
        (ledger.select (model.sharedArtifacts settings.emission)).2) := by
  obtain ⟨outcome, later⟩ := SiteModel.emit_of_isAccepted ledger accepted
  unfold siteModel? at read
  unfold runSite
  split at read
  · next reading =>
      subst read
      simp only [reading, outcome, later]
      exact ⟨_, rfl⟩
  · simp at read

/-- Any other site leaves no artifacts, and the ledger as it was. -/
theorem runSite_of_passed (ledger : Ledger) (site : MarkedSite)
    (passed : ∀ model, siteModel? table settings site = some model →
      model.isAccepted settings = false) :
    (runSite table settings ledger site).1.artifacts = [] ∧
      (runSite table settings ledger site).1.isEmitted = false ∧
      (runSite table settings ledger site).2 = ledger := by
  unfold siteModel? at passed
  unfold runSite
  cases reading : (site.read table settings.marker settings.grammar).outcome with
  | error error => simp only [reading, SiteRecord.artifacts, SiteRecord.isEmitted, and_self]
  | ok read =>
      cases read with
      | none => simp only [reading, SiteRecord.artifacts, SiteRecord.isEmitted, and_self]
      | some model =>
          rw [reading] at passed
          obtain ⟨⟨error, outcome⟩, same⟩ :=
            SiteModel.emit_of_not_isAccepted ledger (passed model rfl)
          simp only [reading, outcome, same, SiteRecord.artifacts, SiteRecord.isEmitted, and_self]

/-- The artifacts of a run are those that the emitter makes of its models. -/
theorem artifacts_runSites (ledger : Ledger) (sites : List MarkedSite) :
    (runSites table settings ledger sites).flatMap (·.artifacts) =
      (emitAll settings ledger (siteModels table settings sites)).1 := by
  induction sites generalizing ledger with
  | nil => rfl
  | cons site rest ih =>
      simp only [runSites, List.flatMap_cons, ih, siteModels, List.filterMap_cons]
      cases read : siteModel? table settings site with
      | none =>
          obtain ⟨noArtifacts, _, same⟩ :=
            runSite_of_passed table settings ledger site (by simp [read])
          simp only [noArtifacts, same, List.nil_append]
      | some model =>
          cases verdict : model.isAccepted settings with
          | true =>
              obtain ⟨warnings, outcome⟩ :=
                runSite_of_isAccepted table settings ledger read verdict
              rw [emitAll_cons_of_isAccepted settings ledger _ verdict, outcome]
              rfl
          | false =>
              obtain ⟨noArtifacts, _, same⟩ := runSite_of_passed table settings ledger site
                (by simp [read, verdict])
              rw [emitAll_cons_of_not_isAccepted settings ledger _ verdict]
              simp only [noArtifacts, same, List.nil_append]

/-- The sites that get their artifacts are those whose models are accepted. -/
theorem emitted_runSites (ledger : Ledger) (sites : List MarkedSite) :
    ((runSites table settings ledger sites).filter (·.isEmitted)).map (·.site) =
      (acceptedModels settings (siteModels table settings sites)).map (·.site) := by
  induction sites generalizing ledger with
  | nil => rfl
  | cons site rest ih =>
      simp only [runSites, siteModels, List.filterMap_cons]
      cases read : siteModel? table settings site with
      | none =>
          obtain ⟨_, notEmitted, same⟩ :=
            runSite_of_passed table settings ledger site (by simp [read])
          rw [List.filter_cons_of_neg (by simp [notEmitted]), same]
          exact ih ledger
      | some model =>
          cases verdict : model.isAccepted settings with
          | true =>
              obtain ⟨warnings, outcome⟩ :=
                runSite_of_isAccepted table settings ledger read verdict
              rw [outcome, List.filter_cons_of_pos rfl, acceptedModels,
                List.filter_cons_of_pos verdict, List.map_cons, List.map_cons,
                site_of_siteModel? read, ih]
              rfl
          | false =>
              obtain ⟨_, notEmitted, same⟩ := runSite_of_passed table settings ledger site
                (by simp [read, verdict])
              rw [List.filter_cons_of_neg (by simp [notEmitted]), same, acceptedModels,
                List.filter_cons_of_neg (by simp [verdict])]
              exact ih ledger

end Run

/-- The models of a run are about different places. -/
theorem nodup_place_siteModels (table : TypeTable) (settings : Settings) {sites : List MarkedSite}
    (differ : (sites.map MarkedSite.place).Nodup) :
    ((siteModels table settings sites).map fun model => model.site.place).Nodup := by
  induction sites with
  | nil => exact List.nodup_nil
  | cons site rest ih =>
      rw [List.map_cons, List.nodup_cons] at differ
      rw [siteModels, List.filterMap_cons]
      split
      · exact ih differ.2
      · next model read =>
          rw [List.map_cons, List.nodup_cons, site_of_siteModel? read]
          refine ⟨fun again => differ.1 ?_, ih differ.2⟩
          obtain ⟨other, member, same⟩ := List.mem_map.mp again
          obtain ⟨otherSite, otherMember, otherRead⟩ := List.mem_filterMap.mp member
          rw [site_of_siteModel? otherRead] at same
          exact same ▸ List.mem_map_of_mem otherMember

end Generation

namespace SiteModel

/-- The two methods' own artifacts have different keys, unless the methods stand
in the same place. -/
theorem disjoint_ownKeys {first second : SiteModel}
    (differ : first.site.place ≠ second.site.place) :
    first.ownKeys.Disjoint second.ownKeys := by
  intro key inFirst inSecond
  simp only [ownKeys, List.mem_cons, List.not_mem_nil, or_false] at inFirst inSecond
  rcases inFirst with rfl | rfl <;> rcases inSecond with same | same <;>
    simp_all [MarkedSite.place]

theorem nodup_ownKeys (model : SiteModel) : model.ownKeys.Nodup := by
  simp [ownKeys]

theorem not_isShared_of_mem_ownKeys {model : SiteModel} {key : ArtifactKey}
    (member : key ∈ model.ownKeys) : key.isShared = false := by
  simp only [ownKeys, List.mem_cons, List.not_mem_nil, or_false] at member
  rcases member with rfl | rfl <;> rfl

/-- Every kind of artifact is made for every accepted model, and no other. -/
theorem mem_sharedKeys_or_mem_ownKeys {model : SiteModel} {key : ArtifactKey} :
    key ∈ model.sharedKeys ∨ key ∈ model.ownKeys ↔
      (∃ kind, key = .ofType kind model.site.space model.site.typeName) ∨
        ∃ kind, key = .ofMethod kind model.site.space model.site.typeName model.site.method := by
  constructor
  · simp only [sharedKeys, ownKeys, List.mem_cons, List.not_mem_nil, or_false]
    rintro ((rfl | rfl | rfl | rfl) | (rfl | rfl)) <;> simp
  · rintro (⟨kind, rfl⟩ | ⟨kind, rfl⟩) <;> cases kind <;> simp [sharedKeys, ownKeys]

end SiteModel

section Requested

variable (settings : Settings)

theorem map_key_requestedArtifacts (models : List SiteModel) :
    (requestedArtifacts settings models).map (·.key) =
      ((acceptedModels settings models).flatMap SiteModel.sharedKeys).dedup ++
        (acceptedModels settings models).flatMap SiteModel.ownKeys := by
  rw [requestedArtifacts, List.map_append, List.map_map]
  congr 1
  · exact List.map_id' _
  · rw [List.map_flatMap]
    exact List.flatMap_congr fun model member =>
      SiteModel.map_key_own (List.mem_filter.mp member).2

/-- The artifacts that models about different places ask for have different
keys. -/
theorem nodup_map_key_requestedArtifacts {models : List SiteModel}
    (differ : (models.map fun model => model.site.place).Nodup) :
    ((requestedArtifacts settings models).map (·.key)).Nodup := by
  have acceptedDiffer :
      ((acceptedModels settings models).map fun model => model.site.place).Nodup :=
    differ.sublist (List.filter_sublist.map _)
  rw [map_key_requestedArtifacts]
  refine (List.nodup_dedup _).append ?_ ?_
  · refine List.nodup_flatMap.mpr ⟨fun model _ => model.nodup_ownKeys, ?_⟩
    exact (List.pairwise_map.mp acceptedDiffer).imp fun apart => SiteModel.disjoint_ownKeys apart
  · intro key shared own
    obtain ⟨model, _, asked⟩ := List.mem_flatMap.mp (List.mem_dedup.mp shared)
    obtain ⟨other, _, member⟩ := List.mem_flatMap.mp own
    have isShared := SiteModel.isShared_of_mem_sharedKeys asked
    rw [SiteModel.not_isShared_of_mem_ownKeys member] at isShared
    exact Bool.false_ne_true isShared

/-- Every artifact has the name that its key gives. -/
theorem name_of_mem_requestedArtifacts {models : List SiteModel} {artifact : Artifact}
    (member : artifact ∈ requestedArtifacts settings models) :
    artifact.name = artifact.key.name settings.emission.filePrefix := by
  rcases List.mem_append.mp member with shared | own
  · obtain ⟨key, _, rfl⟩ := List.mem_map.mp shared
    rfl
  · obtain ⟨model, _, made⟩ := List.mem_flatMap.mp own
    unfold SiteModel.own at made
    split at made
    · simp only [SiteModel.ownArtifacts, List.mem_cons, List.not_mem_nil, or_false] at made
      rcases made with rfl | rfl <;> rfl
    · simp at made

/-- The models ask for all the kinds of keys of the sites that get their
artifacts. -/
theorem mem_map_key_requestedArtifacts {models : List SiteModel} {key : ArtifactKey} :
    key ∈ (requestedArtifacts settings models).map (·.key) ↔
      ∃ site ∈ (acceptedModels settings models).map (·.site),
        (∃ kind, key = .ofType kind site.space site.typeName) ∨
          ∃ kind, key = .ofMethod kind site.space site.typeName site.method := by
  simp only [map_key_requestedArtifacts, List.mem_append, List.mem_dedup, List.mem_flatMap,
    List.mem_map (f := SiteModel.site), exists_exists_and_eq_and,
    ← SiteModel.mem_sharedKeys_or_mem_ownKeys]
  constructor
  · rintro (⟨model, member, asked⟩ | ⟨model, member, asked⟩)
    · exact ⟨model, member, Or.inl asked⟩
    · exact ⟨model, member, Or.inr asked⟩
  · rintro ⟨model, member, asked | asked⟩
    · exact Or.inl ⟨model, member, asked⟩
    · exact Or.inr ⟨model, member, asked⟩

end Requested

/-- The kinds of types and of methods all end names differently. -/
private theorem ending_inj_ofType {kind other : TypeArtifact} (same : kind.label = other.label) :
    kind = other := by
  cases kind <;> cases other <;> simp_all [TypeArtifact.label]

private theorem ending_inj_ofMethod {kind other : MethodArtifact}
    (same : kind.ending = other.ending) : kind = other := by
  cases kind <;> cases other <;> simp_all [MethodArtifact.ending]

private theorem label_ne_ending (kind : TypeArtifact) (other : MethodArtifact) :
    kind.label ≠ other.ending := by
  cases kind <;> cases other <;> decide

/-- The names of a set of sites differ exactly when no stems coincide. -/
theorem MarkedSite.stemsDiffer_iff {sites : List MarkedSite} {keys : List ArtifactKey}
    (covered : ∀ key, key ∈ keys ↔ ∃ site ∈ sites,
      (∃ kind, key = .ofType kind site.space site.typeName) ∨
        ∃ kind, key = .ofMethod kind site.space site.typeName site.method)
    (beginning : String) :
    (∀ first ∈ keys, ∀ second ∈ keys,
        first.name beginning = second.name beginning → first = second) ↔
      StemsDiffer sites := by
  constructor
  · intro injective first firstMember second secondMember
    refine ⟨fun stems => ?_, fun stems => ?_⟩
    · have same := injective (.ofType .resultsFactory first.space first.typeName)
        ((covered _).mpr ⟨first, firstMember, Or.inl ⟨_, rfl⟩⟩)
        (.ofType .resultsFactory second.space second.typeName)
        ((covered _).mpr ⟨second, secondMember, Or.inl ⟨_, rfl⟩⟩)
        ((ArtifactKey.name_eq_name_iff beginning).mpr ⟨rfl, stems⟩)
      simpa using same
    · have same := injective (.ofMethod .methodErrors first.space first.typeName first.method)
        ((covered _).mpr ⟨first, firstMember, Or.inr ⟨_, rfl⟩⟩)
        (.ofMethod .methodErrors second.space second.typeName second.method)
        ((covered _).mpr ⟨second, secondMember, Or.inr ⟨_, rfl⟩⟩)
        ((ArtifactKey.name_eq_name_iff beginning).mpr ⟨rfl, stems⟩)
      simpa using same
  · intro differ first firstMember second secondMember names
    obtain ⟨endings, stems⟩ := (ArtifactKey.name_eq_name_iff beginning).mp names
    obtain ⟨firstSite, firstSiteMember, firstKind⟩ := (covered first).mp firstMember
    obtain ⟨secondSite, secondSiteMember, secondKind⟩ := (covered second).mp secondMember
    obtain ⟨ofTypes, ofMethods⟩ := differ firstSite firstSiteMember secondSite secondSiteMember
    rcases firstKind with ⟨kind, rfl⟩ | ⟨kind, rfl⟩ <;>
      rcases secondKind with ⟨other, rfl⟩ | ⟨other, rfl⟩
    · obtain ⟨spaces, types⟩ := ofTypes stems
      rw [ending_inj_ofType endings, spaces, types]
    · exact absurd endings (label_ne_ending kind other)
    · exact absurd endings.symm (label_ne_ending other kind)
    · obtain ⟨spaces, types, methods⟩ := ofMethods stems
      rw [ending_inj_ofMethod endings, spaces, types, methods]

namespace Generation

variable (units : List SourceUnit) (settings : Settings)

/-- The artifacts of a run are those that its models ask for, up to their
order. -/
theorem artifacts_run_perm :
    (run (.ofUnits units) settings).artifacts.Perm
      (requestedArtifacts settings
        (siteModels (.ofUnits units) settings (MarkedSite.ofUnits settings.marker units))) := by
  have made := artifacts_runSites (.ofUnits units) settings .empty
    (MarkedSite.ofUnits settings.marker units)
  exact List.Perm.trans (List.Perm.of_eq made) (emitAll_perm_requestedArtifacts settings _)

/-- Whatever the names are, the keys in a run differ. -/
theorem nodup_map_key_run : ((run (.ofUnits units) settings).artifacts.map (·.key)).Nodup :=
  ((artifacts_run_perm units settings).map _).nodup_iff.mpr <|
    nodup_map_key_requestedArtifacts settings <|
      nodup_place_siteModels (.ofUnits units) settings
        (MarkedSite.nodup_place_ofUnits settings.marker units)

/-- The keys in a run are all the kinds of keys of the sites that got their
artifacts. -/
theorem mem_map_key_run (key : ArtifactKey) :
    key ∈ (run (.ofUnits units) settings).artifacts.map (·.key) ↔
      ∃ site ∈ (run (.ofUnits units) settings).emittedSites,
        (∃ kind, key = .ofType kind site.space site.typeName) ∨
          ∃ kind, key = .ofMethod kind site.space site.typeName site.method := by
  rw [((artifacts_run_perm units settings).map _).mem_iff, mem_map_key_requestedArtifacts,
    ← emitted_runSites (.ofUnits units) settings .empty]
  rfl

/-- The names in a run are those that the keys give. -/
theorem name_of_mem_artifacts_run {artifact : Artifact}
    (member : artifact ∈ (run (.ofUnits units) settings).artifacts) :
    artifact.name = artifact.key.name settings.emission.filePrefix :=
  name_of_mem_requestedArtifacts settings ((artifacts_run_perm units settings).mem_iff.mp member)

/-- Keys that differ have names that differ, in a run whose sites have stems
that differ, and in no other. -/
theorem names_differ_iff :
    (∀ first ∈ (run (.ofUnits units) settings).artifacts,
        ∀ second ∈ (run (.ofUnits units) settings).artifacts,
          first.key ≠ second.key → first.name ≠ second.name) ↔
      MarkedSite.StemsDiffer (run (.ofUnits units) settings).emittedSites := by
  rw [← MarkedSite.stemsDiffer_iff (mem_map_key_run units settings) settings.emission.filePrefix]
  constructor
  · intro differ firstKey firstMember secondKey secondMember names
    obtain ⟨first, inFirst, rfl⟩ := List.mem_map.mp firstMember
    obtain ⟨second, inSecond, rfl⟩ := List.mem_map.mp secondMember
    rw [← name_of_mem_artifacts_run units settings inFirst,
      ← name_of_mem_artifacts_run units settings inSecond] at names
    by_contra keys
    exact differ first inFirst second inSecond keys names
  · intro injective first inFirst second inSecond keys names
    rw [name_of_mem_artifacts_run units settings inFirst,
      name_of_mem_artifacts_run units settings inSecond] at names
    exact keys (injective _ (List.mem_map_of_mem inFirst) _ (List.mem_map_of_mem inSecond) names)

/-- The names of all sources of a run differ exactly when those of its artifacts
do. -/
theorem nodup_map_fst_sources_iff :
    (((run (.ofUnits units) settings).sources settings.emission).map (·.1)).Nodup ↔
      ∀ first ∈ (run (.ofUnits units) settings).artifacts,
        ∀ second ∈ (run (.ofUnits units) settings).artifacts,
          first.key ≠ second.key → first.name ≠ second.name := by
  have byKey := nodup_map_key_run units settings
  have names : ((run (.ofUnits units) settings).sources settings.emission).map (·.1) =
      (run (.ofUnits units) settings).artifacts.map (·.name) ++
        ((run (.ofUnits units) settings).traceSource? settings.emission).toList.map (·.1) := by
    rw [GenerationReport.sources, List.map_append, List.map_map]
    rfl
  rw [names]
  constructor
  · intro differ first inFirst second inSecond keys same
    have artifacts := List.inj_on_of_nodup_map differ.of_append_left inFirst inSecond same
    exact keys (congrArg Artifact.key artifacts)
  · intro differ
    refine List.Nodup.append ?_ ?_ ?_
    · refine (List.Nodup.of_map _ byKey).map_on fun first inFirst second inSecond same => ?_
      have keys : first.key = second.key := by
        by_contra keys
        exact differ first inFirst second inSecond keys same
      exact List.inj_on_of_nodup_map byKey inFirst inSecond keys
    · unfold GenerationReport.traceSource?
      split <;> simp
    · intro name inArtifacts inTrace
      obtain ⟨artifact, member, rfl⟩ := List.mem_map.mp inArtifacts
      rw [name_of_mem_artifacts_run units settings member] at inTrace
      unfold GenerationReport.traceSource? at inTrace
      split at inTrace
      · simp only [Option.toList_some, List.map_cons, List.map_nil, List.mem_singleton] at inTrace
        exact artifact.key.name_ne_traceName _ inTrace
      · simp at inTrace

/-- Writing the sources of a run into an empty set keeps every artifact under
its name with its text, and the source with the faults, exactly when no two
types and no two methods of the sites that got their artifacts have the same
stem. -/
theorem sources_kept_iff :
    (((SourceSet.empty.insertAll
          ((run (.ofUnits units) settings).sources settings.emission)).entries.Perm
        ((run (.ofUnits units) settings).sources settings.emission)) ↔
      MarkedSite.StemsDiffer (run (.ofUnits units) settings).emittedSites) ∧
    ((∀ first ∈ (run (.ofUnits units) settings).artifacts,
        ∀ second ∈ (run (.ofUnits units) settings).artifacts,
          first.key ≠ second.key → first.name ≠ second.name) ↔
      MarkedSite.StemsDiffer (run (.ofUnits units) settings).emittedSites) := by
  rw [SourceSet.insertAll_empty_perm_iff, nodup_map_fst_sources_iff]
  exact ⟨names_differ_iff units settings, names_differ_iff units settings⟩

end Generation

end ErrorAccessors
