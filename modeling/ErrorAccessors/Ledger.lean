/-
# The ledger of a run

Artifacts that several methods share are generated once in a run.  The ledger
holds the keys that have been generated; keys of artifacts that are not shared
never enter it.
-/

import ErrorAccessors.ArtifactKey

namespace ErrorAccessors

/-- The shared artifacts generated so far, each once. -/
structure Ledger where
  keys : List ArtifactKey
  nodup : keys.Nodup

namespace Ledger

/-- The ledger at the beginning of a run. -/
def empty : Ledger := ⟨[], List.nodup_nil⟩

instance : Inhabited Ledger := ⟨empty⟩

/-- Whether a key has been entered. -/
def contains (ledger : Ledger) (key : ArtifactKey) : Bool :=
  ledger.keys.contains key

/-- The number of keys entered. -/
def size (ledger : Ledger) : Nat :=
  ledger.keys.length

/-- Whether an artifact is to be generated now. -/
def admits (ledger : Ledger) (key : ArtifactKey) : Bool :=
  !key.isShared || !ledger.contains key

/-- Enter the key of an artifact that is generated.  Keys that are not shared
are not kept. -/
def enter (ledger : Ledger) (key : ArtifactKey) : Ledger :=
  if h : key.isShared = true ∧ ledger.contains key = false then
    ⟨key :: ledger.keys, List.nodup_cons.mpr ⟨by simpa [contains] using h.2, ledger.nodup⟩⟩
  else ledger

end Ledger

end ErrorAccessors
