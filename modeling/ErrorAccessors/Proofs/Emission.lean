/-
# Emission does not depend on the order of the methods

A run hands its site models one by one to the emitter, with one ledger for all.
This module describes what such a run makes without mentioning the ledger or the
order: every shared artifact that an accepted model asks for, once, and the two
artifacts of each accepted model.  The text of a shared artifact is a function
of its key, so it does not matter which model was first to ask for it.

A rejected model leaves no trace in the artifacts or the ledger.  Its warnings
stand, and they are not part of what is described here.
-/

import ErrorAccessors.Proofs.Ledger

namespace ErrorAccessors

/-- The text of a shared artifact before it is laid out. -/
def ArtifactKey.sharedText (emission : Emission) : ArtifactKey → String
  | .ofType .resultsFactory space typeName =>
    Template.resultsFactory ⟨space, emission.runtimeNamespace, []⟩ typeName
  | .ofType .errorRepository space typeName =>
    Template.errorRepository ⟨space, emission.runtimeNamespace, []⟩ typeName
  | .ofType .classErrorsProvider space typeName =>
    Template.classErrorsProvider ⟨space, emission.runtimeNamespace, []⟩ typeName
  | .ofMethod _ space typeName method =>
    Template.errorsProvider ⟨space, emission.runtimeNamespace, []⟩ typeName method

/-- The shared artifact of a key. -/
def Artifact.shared (emission : Emission) (key : ArtifactKey) : Artifact :=
  .ofTemplate emission key (key.sharedText emission)

@[simp]
theorem Artifact.ofTemplate_key (emission : Emission) (key : ArtifactKey) (text : String) :
    (Artifact.ofTemplate emission key text).key = key := rfl

@[simp]
theorem Artifact.ofTemplate_name (emission : Emission) (key : ArtifactKey) (text : String) :
    (Artifact.ofTemplate emission key text).name = key.name emission.filePrefix := rfl

@[simp]
theorem Artifact.shared_key (emission : Emission) (key : ArtifactKey) :
    (Artifact.shared emission key).key = key := rfl

namespace SiteModel

/-- The keys of the shared artifacts that a model asks for. -/
def sharedKeys (model : SiteModel) : List ArtifactKey :=
  [.ofType .resultsFactory model.site.space model.site.typeName,
    .ofMethod .errorsProvider model.site.space model.site.typeName model.site.method,
    .ofType .errorRepository model.site.space model.site.typeName,
    .ofType .classErrorsProvider model.site.space model.site.typeName]

/-- The keys of the artifacts that belong to one method alone. -/
def ownKeys (model : SiteModel) : List ArtifactKey :=
  [.ofMethod .methodErrors model.site.space model.site.typeName model.site.method,
    .ofMethod .methodErrorCodes model.site.space model.site.typeName model.site.method]

theorem sharedArtifacts_eq (model : SiteModel) (emission : Emission) :
    model.sharedArtifacts emission = model.sharedKeys.map (Artifact.shared emission) := rfl

theorem isShared_of_mem_sharedKeys {model : SiteModel} {key : ArtifactKey}
    (asked : key ∈ model.sharedKeys) : key.isShared = true := by
  simp only [sharedKeys, List.mem_cons, List.not_mem_nil, or_false] at asked
  rcases asked with rfl | rfl | rfl | rfl <;> rfl

/-- Whether a model gets its artifacts.  Only its own entries decide that, so
the ledger is immaterial. -/
def isAccepted (settings : Settings) (model : SiteModel) : Bool :=
  (model.emit settings .empty).outcome.isOk

/-- The artifacts that belong to a model alone; none if it is rejected. -/
def own (settings : Settings) (model : SiteModel) : List Artifact :=
  match (model.named settings.emission).outcome with
  | .ok entries => model.ownArtifacts settings entries
  | .error _ => []

theorem emit_eq (model : SiteModel) (settings : Settings) (ledger : Ledger) :
    model.emit settings ledger =
      match (model.named settings.emission).outcome with
      | .error error => ⟨.error error, (model.named settings.emission).warnings, ledger⟩
      | .ok entries =>
        ⟨.ok ((ledger.select (model.sharedArtifacts settings.emission)).1 ++
            model.ownArtifacts settings entries),
          (model.named settings.emission).warnings,
          (ledger.select (model.sharedArtifacts settings.emission)).2⟩ := rfl

theorem emit_of_named {settings : Settings} {model : SiteModel} {entries : List NamedEntry}
    (named : (model.named settings.emission).outcome = .ok entries) (ledger : Ledger) :
    model.emit settings ledger =
      ⟨.ok ((ledger.select (model.sharedArtifacts settings.emission)).1 ++
          model.ownArtifacts settings entries),
        (model.named settings.emission).warnings,
        (ledger.select (model.sharedArtifacts settings.emission)).2⟩ := by
  rw [emit_eq, named]

theorem emit_of_unnamed {settings : Settings} {model : SiteModel} {error : SiteError}
    (unnamed : (model.named settings.emission).outcome = .error error) (ledger : Ledger) :
    model.emit settings ledger =
      ⟨.error error, (model.named settings.emission).warnings, ledger⟩ := by
  rw [emit_eq, unnamed]

/-- A model is accepted when its entries can be named. -/
theorem isAccepted_iff {settings : Settings} {model : SiteModel} :
    model.isAccepted settings = true ↔
      ∃ entries, (model.named settings.emission).outcome = .ok entries := by
  show (model.emit settings .empty).outcome.isOk = true ↔ _
  cases outcome : (model.named settings.emission).outcome with
  | ok entries =>
      rw [emit_of_named outcome]
      exact ⟨fun _ => ⟨entries, rfl⟩, fun _ => rfl⟩
  | error error =>
      rw [emit_of_unnamed outcome]
      exact ⟨nofun, nofun⟩

/-- A model gets its artifacts under every ledger or under none. -/
theorem emit_outcome_isOk (settings : Settings) (model : SiteModel) (ledger : Ledger) :
    (model.emit settings ledger).outcome.isOk = model.isAccepted settings := by
  show _ = (model.emit settings .empty).outcome.isOk
  cases outcome : (model.named settings.emission).outcome with
  | ok entries =>
      rw [emit_of_named outcome, emit_of_named outcome]
      rfl
  | error error =>
      rw [emit_of_unnamed outcome, emit_of_unnamed outcome]

theorem own_of_named {settings : Settings} {model : SiteModel} {entries : List NamedEntry}
    (named : (model.named settings.emission).outcome = .ok entries) :
    model.own settings = model.ownArtifacts settings entries := by
  simp only [own, named]

/-- An accepted model is given the shared artifacts that the ledger lets
through, and its own. -/
theorem emit_of_isAccepted {settings : Settings} {model : SiteModel} (ledger : Ledger)
    (accepted : model.isAccepted settings = true) :
    (model.emit settings ledger).outcome =
        .ok ((ledger.select (model.sharedArtifacts settings.emission)).1 ++ model.own settings) ∧
      (model.emit settings ledger).ledger =
        (ledger.select (model.sharedArtifacts settings.emission)).2 := by
  obtain ⟨entries, named⟩ := isAccepted_iff.mp accepted
  rw [emit_of_named named, own_of_named named]
  exact ⟨rfl, rfl⟩

/-- A rejected model changes nothing. -/
theorem emit_of_not_isAccepted {settings : Settings} {model : SiteModel} (ledger : Ledger)
    (rejected : model.isAccepted settings = false) :
    (∃ error, (model.emit settings ledger).outcome = .error error) ∧
      (model.emit settings ledger).ledger = ledger := by
  cases outcome : (model.named settings.emission).outcome with
  | ok entries =>
      have accepted := isAccepted_iff.mpr ⟨entries, outcome⟩
      simp [rejected] at accepted
  | error error =>
      rw [emit_of_unnamed outcome]
      exact ⟨⟨error, rfl⟩, rfl⟩

/-- Every accepted model has its accessors and its constants, and nothing else
of its own. -/
theorem map_key_own {settings : Settings} {model : SiteModel}
    (accepted : model.isAccepted settings = true) :
    (model.own settings).map (·.key) = model.ownKeys := by
  obtain ⟨entries, named⟩ := isAccepted_iff.mp accepted
  rw [own_of_named named]
  rfl

end SiteModel

/-- Hand models to the emitter in turn, with one ledger.  Rejected ones are
passed over. -/
def emitAll (settings : Settings) : Ledger → List SiteModel → List Artifact × Ledger
  | ledger, [] => ([], ledger)
  | ledger, model :: rest =>
    let emitted := model.emit settings ledger
    let (later, final) := emitAll settings emitted.ledger rest
    match emitted.outcome with
    | .ok artifacts => (artifacts ++ later, final)
    | .error _ => (later, final)

/-- The models of a run that get their artifacts. -/
def acceptedModels (settings : Settings) (models : List SiteModel) : List SiteModel :=
  models.filter (SiteModel.isAccepted settings)

/-- What a run over some models has to make: one artifact for each shared key
that an accepted model asks for, and the own artifacts of every accepted model. -/
def requestedArtifacts (settings : Settings) (models : List SiteModel) : List Artifact :=
  ((acceptedModels settings models).flatMap SiteModel.sharedKeys).dedup.map
      (Artifact.shared settings.emission) ++
    (acceptedModels settings models).flatMap (SiteModel.own settings)

section Run

variable (settings : Settings)

theorem emitAll_cons (ledger : Ledger) (model : SiteModel) (rest : List SiteModel) :
    emitAll settings ledger (model :: rest) =
      match (model.emit settings ledger).outcome with
      | .ok artifacts =>
        (artifacts ++ (emitAll settings (model.emit settings ledger).ledger rest).1,
          (emitAll settings (model.emit settings ledger).ledger rest).2)
      | .error _ => emitAll settings (model.emit settings ledger).ledger rest := rfl

theorem emitAll_cons_of_isAccepted (ledger : Ledger) {model : SiteModel} (rest : List SiteModel)
    (accepted : model.isAccepted settings = true) :
    emitAll settings ledger (model :: rest) =
      let selected := ledger.select (model.sharedArtifacts settings.emission)
      (selected.1 ++ model.own settings ++ (emitAll settings selected.2 rest).1,
        (emitAll settings selected.2 rest).2) := by
  obtain ⟨outcome, later⟩ := SiteModel.emit_of_isAccepted ledger accepted
  rw [emitAll_cons, outcome, later]

theorem emitAll_cons_of_not_isAccepted (ledger : Ledger) {model : SiteModel}
    (rest : List SiteModel) (rejected : model.isAccepted settings = false) :
    emitAll settings ledger (model :: rest) = emitAll settings ledger rest := by
  obtain ⟨⟨error, outcome⟩, same⟩ := SiteModel.emit_of_not_isAccepted ledger rejected
  rw [emitAll_cons, outcome, same]

/-- Rejected models may be left out: neither the artifacts nor the ledger tells
the difference. -/
theorem emitAll_acceptedModels (ledger : Ledger) (models : List SiteModel) :
    emitAll settings ledger (acceptedModels settings models) = emitAll settings ledger models := by
  induction models generalizing ledger with
  | nil => rfl
  | cons model rest ih =>
      cases verdict : model.isAccepted settings with
      | true =>
          rw [acceptedModels, List.filter_cons_of_pos verdict]
          simp only [emitAll_cons_of_isAccepted settings _ _ verdict]
          simp only [acceptedModels] at ih
          rw [ih]
      | false =>
          rw [acceptedModels, List.filter_cons_of_neg (by simp [verdict]),
            emitAll_cons_of_not_isAccepted settings ledger rest verdict]
          exact ih ledger

/-- A run over accepted models is one selection from everything that they ask
for, next to their own artifacts. -/
theorem emitAll_of_forall_isAccepted (ledger : Ledger) {models : List SiteModel}
    (accepted : ∀ model ∈ models, model.isAccepted settings = true) :
    (emitAll settings ledger models).1.Perm
        ((ledger.select
            ((models.flatMap SiteModel.sharedKeys).map (Artifact.shared settings.emission))).1 ++
          models.flatMap (SiteModel.own settings)) ∧
      (emitAll settings ledger models).2 =
        (ledger.select
          ((models.flatMap SiteModel.sharedKeys).map (Artifact.shared settings.emission))).2 := by
  induction models generalizing ledger with
  | nil => exact ⟨List.Perm.refl _, rfl⟩
  | cons model rest ih =>
      obtain ⟨modelAccepted, restAccepted⟩ := List.forall_mem_cons.mp accepted
      rw [emitAll_cons_of_isAccepted settings ledger rest modelAccepted]
      simp only [List.flatMap_cons, List.map_append, ← SiteModel.sharedArtifacts_eq,
        Ledger.select_append]
      obtain ⟨artifacts, final⟩ :=
        ih (ledger.select (model.sharedArtifacts settings.emission)).2 restAccepted
      refine ⟨?_, final⟩
      -- The own artifacts of the first model move behind what the rest selects.
      refine (List.Perm.append_left _ artifacts).trans ?_
      rw [List.append_assoc, List.append_assoc]
      refine List.Perm.append_left _ ?_
      rw [← List.append_assoc, ← List.append_assoc]
      exact List.Perm.append_right _ List.perm_append_comm

/-- A run makes exactly what its accepted models ask for. -/
theorem emitAll_perm_requestedArtifacts (models : List SiteModel) :
    (emitAll settings .empty models).1.Perm (requestedArtifacts settings models) := by
  have accepted : ∀ model ∈ acceptedModels settings models, model.isAccepted settings = true :=
    fun model member => (List.mem_filter.mp member).2
  have selected := emitAll_of_forall_isAccepted settings .empty accepted
  rw [emitAll_acceptedModels] at selected
  refine selected.1.trans (List.Perm.append_right _ ?_)
  refine Ledger.select_empty_perm (Artifact.shared_key _) fun key asked => ?_
  obtain ⟨model, _, member⟩ := List.mem_flatMap.mp asked
  exact SiteModel.isShared_of_mem_sharedKeys member

/-- What has to be made does not depend on the order of the models. -/
theorem requestedArtifacts_perm {reordered models : List SiteModel}
    (same : reordered.Perm models) :
    (requestedArtifacts settings reordered).Perm (requestedArtifacts settings models) := by
  have accepted : (acceptedModels settings reordered).Perm (acceptedModels settings models) :=
    same.filter _
  refine List.Perm.append ?_ (accepted.flatMap_right _)
  exact ((accepted.flatMap_right _).dedup).map _

/-- A run makes one artifact for every shared key that an accepted model asks
for and the accessors and constants of every accepted model, each with a text
that is a function of the key or of that model.  So the order of the models does
not matter, and rejected models may be deleted. -/
theorem emitAll_artifacts (models : List SiteModel) :
    (emitAll settings .empty models).1.Perm (requestedArtifacts settings models) ∧
      (∀ model ∈ acceptedModels settings models,
        (model.own settings).map (·.key) = model.ownKeys) ∧
      (∀ (model : SiteModel) (ledger : Ledger),
        (model.emit settings ledger).outcome.isOk = model.isAccepted settings) ∧
      (∀ reordered : List SiteModel, reordered.Perm models →
        (emitAll settings .empty reordered).1.Perm (emitAll settings .empty models).1) ∧
      emitAll settings .empty (acceptedModels settings models) =
        emitAll settings .empty models := by
  refine ⟨emitAll_perm_requestedArtifacts settings models, fun model member => ?_,
    SiteModel.emit_outcome_isOk settings, fun reordered same => ?_,
    emitAll_acceptedModels settings .empty models⟩
  · exact SiteModel.map_key_own (List.mem_filter.mp member).2
  · have before := emitAll_perm_requestedArtifacts settings reordered
    have behind := emitAll_perm_requestedArtifacts settings models
    exact (before.trans (requestedArtifacts_perm settings same)).trans behind.symm

end Run

/-- A model of the type `Game.Api` with the given codes, all with one message. -/
private def apiModel (method : String) (codes : List Int) : SiteModel where
  site := ⟨"Game.Api." ++ method, "Game", "Api", "Game.Api", method, Span.atFileStart "Api.cs"⟩
  entries := codes.map fun code => ⟨code, "Out of range"⟩
  shape := ⟨.void, []⟩
  imports := []

/-- Two methods share the three artifacts of their type whichever comes first and have three
each, also next to a third one that is rejected for a repeated code. -/
theorem emitAll_artifacts_of_one_type :
    let settings : Settings := { emission := { duplicateCodes := .error } }
    let models := [apiModel "Attack" [1], apiModel "Rest" [2], apiModel "Twice" [3, 3]]
    let reordered := [apiModel "Rest" [2], apiModel "Twice" [3, 3], apiModel "Attack" [1]]
    reordered.Perm models ∧
      (emitAll settings .empty reordered).1.Perm (emitAll settings .empty models).1 ∧
      acceptedModels settings models = [apiModel "Attack" [1], apiModel "Rest" [2]] ∧
      (emitAll settings .empty models).1.length = 9 := by
  intro settings models reordered
  have isReordered : reordered.Perm models :=
    @List.perm_append_comm _ [apiModel "Rest" [2], apiModel "Twice" [3, 3]] [apiModel "Attack" [1]]
  obtain ⟨requested, -, -, same, -⟩ := emitAll_artifacts settings models
  have accepted : acceptedModels settings models =
      [apiModel "Attack" [1], apiModel "Rest" [2]] := by
    decide +kernel
  refine ⟨isReordered, same reordered isReordered, accepted, ?_⟩
  rw [requested.length_eq]
  decide +kernel

end ErrorAccessors
