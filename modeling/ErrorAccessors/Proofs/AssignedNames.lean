/-
# Which names the accessors of a method get

Every entry is named in one of two ways.  It gets the name that its message derives, or, if
that is taken, the first name with the code behind it that is not, and then there is a
warning.  So the warnings about taken names are as many as the names with codes behind them,
and all names can stand as names in the generated code.

A method is rejected for a taken name just where there would have been such a warning.  Up to
the first name that is taken both policies do the same, and no entry is named differently
because of what comes behind it.
-/

import ErrorAccessors.Proofs.AccessorText
import ErrorAccessors.Proofs.DistinctNames
import ErrorAccessors.Proofs.Emission

namespace ErrorAccessors

open Unicode

/-- A warning that a name is taken. -/
def Diagnostic.tellsCollision (diagnostic : Diagnostic) : Bool :=
  diagnostic.code == DiagnosticCode.identifierCollision.text

namespace NamedEntry

/-- The name that the message of an entry derives. -/
def derivedName (named : NamedEntry) : String :=
  AccessorName.ofMessage named.entry.message named.entry.code

/-- An entry has the derived name with its code behind it, and possibly a number from two
on. -/
def IsNumbered (named : NamedEntry) : Prop :=
  named.name = named.derivedName ++ toString named.entry.code.natAbs ∨
    ∃ number ≥ 2, named.name =
      named.derivedName ++ toString named.entry.code.natAbs ++ "_" ++ toString number

/-- A name with something behind it is another name. -/
theorem IsNumbered.name_ne {named : NamedEntry} (isNumbered : named.IsNumbered) :
    named.name ≠ named.derivedName := by
  intro same
  have digits : 0 < (toString named.entry.code.natAbs).length := Nat.length_repr_pos
  rcases isNumbered with isName | ⟨number, -, isName⟩
  all_goals
    have lengths := congrArg String.length (same.symm.trans isName)
    simp only [String.length_append] at lengths
    omega

end NamedEntry

namespace AccessorName

/-- What is made from a message begins as names have to. -/
theorem exists_start_ofMessage (message : String) (code : Int) :
    ∃ c more, (ofMessage message code).toList = c :: more ∧
      (c = '_' ∨ isIdentifierStart c = true) := by
  unfold ofMessage
  split
  · exact ⟨'E', _, by rw [String.toList_append]; rfl, .inr (by decide)⟩
  · next c rest _ =>
    rw [String.toList_ofList, withValidStart]
    split
    · next starts => exact ⟨c, rest, rfl, .inr starts⟩
    · exact ⟨'_', c :: rest, rfl, .inl rfl⟩

end AccessorName

/-- A derived name can stand as a name without escaping. -/
theorem NamedEntry.IsDerived.isIdentifier {named : NamedEntry} (isDerived : named.IsDerived) :
    AccessorName.isIdentifier named.name = true := by
  have areNames := isDerived.isAccessorText.areNames
  obtain ⟨more, isName, -⟩ := isDerived
  obtain ⟨c, rest, isText, begins⟩ :=
    AccessorName.exists_start_ofMessage named.entry.message named.entry.code
  rw [isText, List.cons_append] at isName
  rw [isName] at areNames
  rw [AccessorName.isIdentifier, isName]
  simp only [Bool.and_eq_true, Bool.or_eq_true, beq_iff_eq, List.all_eq_true]
  exact ⟨begins, (List.forall_mem_cons.mp areNames).2⟩

namespace Naming

variable {emission : Emission} {site : MarkedSite} {earlier : List NamedEntry}
  {entry : ErrorEntry}

section Step

/-- A fresh name for an entry whose derived name is taken is a numbered one. -/
theorem isNumbered_freshName {taken : List String}
    (isTaken : AccessorName.ofMessage entry.message entry.code ∈ taken) :
    (NamedEntry.mk (freshName (AccessorName.ofMessage entry.message entry.code) entry.code taken)
      entry).IsNumbered := by
  rcases freshName_cases (AccessorName.ofMessage entry.message entry.code) entry.code taken with
    same | ⟨attempt, isAttempt⟩
  · exact absurd (same ▸ isTaken) (freshName_not_mem _ entry.code taken)
  · rw [isAttempt]
    cases attempt with
    | zero => exact .inl rfl
    | succ attempt => exact .inr ⟨attempt + 2, by omega, rfl⟩

/-- An entry is named as its message derives, without a warning.  If that name is taken, it is
not named at all by one policy, and by the other one it is numbered, with a warning. -/
theorem chooseName_cases (site : MarkedSite) (earlier : List NamedEntry) (entry : ErrorEntry) :
    (∀ policy, chooseName policy site earlier entry =
      ⟨.ok (AccessorName.ofMessage entry.message entry.code), []⟩) ∨
    (chooseName .error site earlier entry = ⟨.error (.nameCollision site.qualifiedId
        (AccessorName.ofMessage entry.message entry.code)), []⟩ ∧
      ∃ name warning, chooseName .suffix site earlier entry = ⟨.ok name, [warning]⟩ ∧
        (NamedEntry.mk name entry).IsNumbered ∧ warning.tellsCollision = true) := by
  let base := AccessorName.ofMessage entry.message entry.code
  let taken := reserved site.method ++ earlier.map (·.name)
  by_cases isTaken : base ∈ taken
  · have contained : taken.contains base = true := List.contains_iff_mem.mpr isTaken
    let fresh := freshName base entry.code taken
    refine .inr ⟨if_pos contained, fresh, takenName site entry.message base fresh,
      if_pos contained, isNumbered_freshName isTaken, rfl⟩
  · exact .inl fun policy => if_neg (mt List.contains_iff_mem.mp isTaken)

/-- The check of a code does not warn about names. -/
theorem tellsCollision_checkCode {policy : DuplicateCodes} {code : Int} {warning : Diagnostic}
    (member : warning ∈ (checkCode policy site earlier code).warnings) :
    warning.tellsCollision = false := by
  unfold checkCode at member
  split at member
  · cases policy with
    | warn =>
        obtain rfl := List.mem_singleton.mp member
        rfl
    | error => cases member
    | allow => cases member
  · cases member

theorem checkCode_of_ne_error {policy : DuplicateCodes} (allowed : policy ≠ .error) (code : Int) :
    (checkCode policy site earlier code).outcome = .ok () := by
  unfold checkCode
  split
  · cases policy with
    | warn => rfl
    | error => exact absurd rfl allowed
    | allow => rfl
  · rfl

/-- Where the first entry is named, the others are named behind it. -/
theorem nameBehind_cons_of_ok {name : String} {warnings : List Diagnostic}
    (checked : (checkCode emission.duplicateCodes site earlier entry.code).outcome = .ok ())
    (chosen : chooseName emission.nameCollisions site earlier entry = ⟨.ok name, warnings⟩)
    (rest : List ErrorEntry) :
    nameBehind emission site earlier (entry :: rest) =
      let later := nameBehind emission site (earlier ++ [⟨name, entry⟩]) rest
      ⟨later.outcome, (checkCode emission.duplicateCodes site earlier entry.code).warnings ++
        warnings ++ later.warnings⟩ := by
  simp only [nameBehind, checked, chosen]

/-- Where the first entry is not named, none is. -/
theorem nameBehind_cons_of_error {error : SiteError}
    (checked : (checkCode emission.duplicateCodes site earlier entry.code).outcome = .ok ())
    (chosen : (chooseName emission.nameCollisions site earlier entry).outcome = .error error)
    (rest : List ErrorEntry) :
    (nameBehind emission site earlier (entry :: rest)).outcome = .error error := by
  simp only [nameBehind, checked, chosen]

/-- Entries are only named if the first one is. -/
theorem exists_of_nameBehind_cons {rest : List ErrorEntry} {named : List NamedEntry}
    (outcome : (nameBehind emission site earlier (entry :: rest)).outcome = .ok named) :
    (checkCode emission.duplicateCodes site earlier entry.code).outcome = .ok () ∧
      ∃ name, (chooseName emission.nameCollisions site earlier entry).outcome = .ok name := by
  simp only [nameBehind] at outcome
  split at outcome
  · cases outcome
  · next checked =>
    split at outcome
    · cases outcome
    · next name chosen => exact ⟨checked, name, chosen⟩

end Step

section Run

/-- Every entry has its derived name or a numbered one, and there are as many warnings about
taken names as numbered ones. -/
structure AreAssigned (named : List NamedEntry) (warnings : List Diagnostic) : Prop where
  names : ∀ entry ∈ named, entry.name = entry.derivedName ∨ entry.IsNumbered
  warned : warnings.countP (·.tellsCollision) =
    named.countP fun entry => entry.name ≠ entry.derivedName

/-- The names that are given behind earlier ones. -/
theorem exists_areAssigned {entries : List ErrorEntry} {named : List NamedEntry}
    (outcome : (nameBehind emission site earlier entries).outcome = .ok named) :
    ∃ later, named = earlier ++ later ∧
      AreAssigned later (nameBehind emission site earlier entries).warnings := by
  induction entries generalizing earlier with
  | nil =>
      obtain rfl := Except.ok.inj outcome
      exact ⟨[], (List.append_nil _).symm, List.forall_mem_nil _, rfl⟩
  | cons entry rest ih =>
      obtain ⟨checked, name, isName⟩ := exists_of_nameBehind_cons outcome
      have quiet : ((checkCode emission.duplicateCodes site earlier entry.code).warnings).countP
          (·.tellsCollision) = 0 :=
        List.countP_eq_zero.mpr fun warning member => by simp [tellsCollision_checkCode member]
      obtain free | ⟨refused, other, warning, numbered, isNumbered, tells⟩ :=
        chooseName_cases site earlier entry
      · rw [nameBehind_cons_of_ok checked (free _) rest] at outcome ⊢
        obtain ⟨later, rfl, names, warned⟩ := ih outcome
        refine ⟨⟨_, entry⟩ :: later, (List.append_assoc ..).trans rfl,
          List.forall_mem_cons.mpr ⟨.inl rfl, names⟩, ?_⟩
        rw [List.append_nil, List.countP_append, quiet, Nat.zero_add, warned,
          List.countP_cons_of_neg (by simp [NamedEntry.derivedName])]
      · cases policy : emission.nameCollisions with
        | error =>
            rw [policy, refused] at isName
            cases isName
        | suffix =>
            rw [nameBehind_cons_of_ok checked (policy ▸ numbered) rest] at outcome ⊢
            obtain ⟨later, rfl, names, warned⟩ := ih outcome
            refine ⟨⟨other, entry⟩ :: later, (List.append_assoc ..).trans rfl,
              List.forall_mem_cons.mpr ⟨.inr isNumbered, names⟩, ?_⟩
            rw [List.countP_append, List.countP_append, quiet, Nat.zero_add, warned,
              List.countP_singleton, if_pos tells, Nat.add_comm]
            exact (List.countP_cons_of_pos (by simpa using isNumbered.name_ne)).symm

end Run

end Naming

/-- The same settings with a policy on taken names. -/
def Settings.withCollisions (settings : Settings) (policy : NameCollisions) : Settings :=
  { settings with emission := { settings.emission with nameCollisions := policy } }

namespace Naming

variable {settings : Settings} {site : MarkedSite}

/-- Where repeated codes are allowed, all entries are named by the policy that numbers names.
The other policy does the same if no name is taken, and otherwise refuses some name. -/
theorem nameBehind_withCollisions (allowed : settings.emission.duplicateCodes ≠ .error)
    (entries : List ErrorEntry) (earlier : List NamedEntry) :
    let strict := nameBehind (settings.withCollisions .error).emission site earlier entries
    let lenient := nameBehind (settings.withCollisions .suffix).emission site earlier entries
    (∃ named, lenient.outcome = .ok named) ∧
      (strict = lenient ∧ (∀ warning ∈ lenient.warnings, warning.tellsCollision = false) ∨
        (∃ name, strict.outcome = .error (.nameCollision site.qualifiedId name)) ∧
          ∃ warning ∈ lenient.warnings, warning.tellsCollision = true) := by
  induction entries generalizing earlier with
  | nil => exact ⟨⟨earlier, rfl⟩, .inl ⟨rfl, List.forall_mem_nil _⟩⟩
  | cons entry rest ih =>
      have checked (policy : NameCollisions) :
          (checkCode (settings.withCollisions policy).emission.duplicateCodes site earlier
            entry.code).outcome = .ok () := checkCode_of_ne_error allowed entry.code
      obtain free | ⟨refused, name, warning, numbered, -, tells⟩ :=
        chooseName_cases site earlier entry
      · have step (policy : NameCollisions) :=
          nameBehind_cons_of_ok (checked policy) (free _) rest
        obtain ⟨lenientOk, same⟩ := ih (earlier ++ [⟨_, entry⟩])
        rw [step, step]
        refine ⟨lenientOk, same.imp ?_ ?_⟩
        · rintro ⟨strictLater, quiet⟩
          refine ⟨by rw [strictLater]; rfl, fun warning member => ?_⟩
          rw [List.append_nil, List.mem_append] at member
          exact member.elim tellsCollision_checkCode (quiet warning)
        · rintro ⟨strict, warning, member, tells⟩
          exact ⟨strict, warning, List.mem_append_right _ member, tells⟩
      · have step := nameBehind_cons_of_ok (checked .suffix) numbered rest
        obtain ⟨lenientOk, -⟩ := ih (earlier ++ [⟨name, entry⟩])
        have strict :=
          nameBehind_cons_of_error (checked .error) (congrArg Warned.outcome refused) rest
        rw [step]
        exact ⟨lenientOk, .inr ⟨⟨_, strict⟩, warning, by simp, tells⟩⟩

end Naming

namespace SiteModel

/-- The entries of a model have names, given with some warnings.  The names differ from each
other and from those of the method and of the class of the accessors, and they can stand as
names without escaping. -/
structure HasNames (model : SiteModel) (named : List NamedEntry) (warnings : List Diagnostic) :
    Prop extends Naming.AreAssigned named warnings where
  inOrder : named.map (·.entry) = model.entries
  differ : (named.map (·.name)).Nodup
  free : ∀ entry ∈ named,
    entry.name ≠ model.site.method ++ "Errors" ∧ entry.name ≠ model.site.method
  identifiers : ∀ entry ∈ named, AccessorName.isIdentifier entry.name = true

theorem hasNames_of_named {model : SiteModel} {emission : Emission} {named : List NamedEntry}
    (outcome : (model.named emission).outcome = .ok named) :
    model.HasNames named (model.named emission).warnings := by
  obtain ⟨inOrder, areDerived⟩ := derived_named outcome
  obtain ⟨-, differ, free⟩ := List.nodup_append.mp (nodup_named outcome)
  obtain ⟨later, rfl, areAssigned⟩ := Naming.exists_areAssigned outcome
  exact { areAssigned with
    inOrder, differ
    free := fun entry member =>
      ⟨(free _ (by simp [Naming.reserved]) _ (List.mem_map_of_mem member)).symm,
        (free _ (by simp [Naming.reserved]) _ (List.mem_map_of_mem member)).symm⟩
    identifiers := fun entry member => (areDerived entry member).isIdentifier }

/-- Where two policies name the entries alike, they come to the same. -/
theorem emit_withCollisions_congr {model : SiteModel} {settings : Settings}
    {first second : NameCollisions}
    (same : model.named (settings.withCollisions first).emission =
      model.named (settings.withCollisions second).emission) (ledger : Ledger) :
    model.emit (settings.withCollisions first) ledger =
      model.emit (settings.withCollisions second) ledger := by
  rw [emit, emit, same]
  rfl

/-- Whenever the artifacts of a method are made, their accessors have names in the order of the
entries.  Each is the one that the message derives, or that one with the code and possibly a
number from two on behind it, with a warning.

If repeated codes are allowed, a method is rejected for a taken name by one policy just if the
other policy warns about one.  If there is no such warning, both make the same artifacts. -/
theorem emit_names (model : SiteModel) (settings : Settings) (ledger : Ledger) :
    (∀ artifacts, (model.emit settings ledger).outcome = .ok artifacts →
      ∃ named, (model.named settings.emission).outcome = .ok named ∧
        model.HasNames named (model.emit settings ledger).warnings ∧
        artifacts = (ledger.select (model.sharedArtifacts settings.emission)).1 ++
          model.ownArtifacts settings named) ∧
    (settings.emission.duplicateCodes ≠ .error →
      let strict := model.emit (settings.withCollisions .error) ledger
      let lenient := model.emit (settings.withCollisions .suffix) ledger
      ((∃ name, strict.outcome = .error (.nameCollision model.site.qualifiedId name)) ↔
        ∃ warning ∈ lenient.warnings, warning.tellsCollision = true) ∧
      ((∀ warning ∈ lenient.warnings, warning.tellsCollision = false) →
        strict = lenient ∧ ∃ artifacts, lenient.outcome = .ok artifacts)) := by
  constructor
  · intro artifacts made
    cases outcome : (model.named settings.emission).outcome with
    | error error =>
        rw [emit_of_unnamed outcome] at made
        cases made
    | ok named =>
        rw [emit_of_named outcome] at made ⊢
        exact ⟨named, rfl, hasNames_of_named outcome, (Except.ok.inj made).symm⟩
  · intro allowed
    obtain ⟨⟨named, outcome⟩, chosen⟩ :=
      @Naming.nameBehind_withCollisions settings model.site allowed model.entries []
    have lenient : model.emit (settings.withCollisions .suffix) ledger = _ :=
      emit_of_named outcome ledger
    obtain ⟨same, quiet⟩ | ⟨⟨name, refused⟩, warning, member, tells⟩ := chosen
    · have alike := emit_withCollisions_congr same ledger
      simp only [alike, lenient]
      refine ⟨⟨nofun, ?_⟩, fun _ => ⟨trivial, _, rfl⟩⟩
      rintro ⟨warning, member, tells⟩
      rw [quiet warning member] at tells
      cases tells
    · have strict : model.emit (settings.withCollisions .error) ledger = _ :=
        emit_of_unnamed refused ledger
      simp only [strict, lenient]
      refine ⟨⟨fun _ => ⟨warning, member, tells⟩, fun _ => ⟨name, rfl⟩⟩, fun silent => ?_⟩
      rw [silent warning member] at tells
      cases tells

/-- A model whose messages derive the same name, the name of its method, and a name that an
earlier entry got with its code. -/
private def crowdedModel : SiteModel where
  site := ⟨"Api.Load", "", "Api", "Api", "Load", Span.atFileStart "Api.cs"⟩
  entries := [⟨1, "full"⟩, ⟨-1, "Full"⟩, ⟨1, "FULL!"⟩, ⟨7, "load"⟩, ⟨5, "full1"⟩]
  shape := ⟨.void, []⟩
  imports := []

/-- All but the first entry get their codes behind their names, and one of them a number as
well.  The other policy refuses the model. -/
theorem emit_names_of_crowded :
    (∃ artifacts named, (crowdedModel.emit {} .empty).outcome = .ok artifacts ∧
      named.map (·.name) = ["Full", "Full1", "Full1_2", "Load7", "Full15"] ∧
      crowdedModel.HasNames named (crowdedModel.emit {} .empty).warnings) ∧
    ({} : Settings).emission.duplicateCodes ≠ .error ∧
    ∃ name, (crowdedModel.emit (Settings.withCollisions {} .error) .empty).outcome =
      .error (.nameCollision "Api.Load" name) := by
  have seen : (crowdedModel.named {}).outcome.toOption.map (·.map (·.name)) =
      some ["Full", "Full1", "Full1_2", "Load7", "Full15"] := by decide +kernel
  obtain ⟨given, policies⟩ := emit_names crowdedModel {} .empty
  obtain ⟨named, outcome⟩ : ∃ named, (crowdedModel.named {}).outcome = .ok named := by
    cases outcome : (crowdedModel.named {}).outcome with
    | error error => simp [outcome, Except.toOption] at seen
    | ok named => exact ⟨named, rfl⟩
  have made := congrArg Emitted.outcome (@emit_of_named {} crowdedModel named outcome .empty)
  obtain ⟨same, isNamed, hasNames, -⟩ := given _ made
  obtain rfl : named = same := Except.ok.inj (outcome.symm.trans isNamed)
  have names : named.map (·.name) = ["Full", "Full1", "Full1_2", "Load7", "Full15"] := by
    rw [outcome] at seen
    exact Option.some.inj seen
  refine ⟨⟨_, named, made, names, hasNames⟩, by decide, ?_⟩
  have warns : ((crowdedModel.emit {} .empty).warnings.any (·.tellsCollision)) = true := by
    decide +kernel
  exact (policies (by decide)).1.mpr (List.any_eq_true.mp warns)

end SiteModel

end ErrorAccessors
