/-
# Named sources

A set of generated sources, each under a name of its own, in the order of the
names.  A source that is added under a taken name replaces the one before.
-/

namespace ErrorAccessors

/-- Sources by name, in increasing order of the names. -/
structure SourceSet where
  entries : List (String × String)
deriving DecidableEq, Repr, Inhabited

namespace SourceSet

/-- No sources. -/
def empty : SourceSet := ⟨[]⟩

/-- Put a source into a list that is ordered by name. -/
def insertEntry (name text : String) : List (String × String) → List (String × String)
  | [] => [(name, text)]
  | (held, heldText) :: rest =>
    if name = held then (name, text) :: rest
    else if name < held then (name, text) :: (held, heldText) :: rest
    else (held, heldText) :: insertEntry name text rest

/-- Add a source, or replace the one of that name. -/
def insert (sources : SourceSet) (name text : String) : SourceSet :=
  ⟨insertEntry name text sources.entries⟩

/-- The source of a name. -/
def find? (sources : SourceSet) (name : String) : Option String :=
  (sources.entries.find? fun entry => entry.1 == name).map (·.2)

/-- The names in increasing order. -/
def names (sources : SourceSet) : List String :=
  sources.entries.map (·.1)

/-- The number of sources. -/
def size (sources : SourceSet) : Nat :=
  sources.entries.length

/-- Add sources in the order given. -/
def insertAll (sources : SourceSet) (more : List (String × String)) : SourceSet :=
  more.foldl (fun held entry => held.insert entry.1 entry.2) sources

end SourceSet

end ErrorAccessors
