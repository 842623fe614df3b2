/-
# The table of a settings file

Statements are put together to one table.  A header opens a table, which takes
the entries that follow until the next header.  A table can be headed once, and
only if it was not made by dotted keys; a key can be given a value once.  A
table that is headed after tables inside it keeps them, but counts as written
where its header stands.
-/

import ErrorAccessors.Toml.Statement

namespace ErrorAccessors

namespace TomlTable

/-- Change the table at a path.  Missing tables on the way are implied by it; of
an array of tables the last one is meant. -/
def changeAt {α : Type} (table : TomlTable) (change : TomlTable → Option (α × TomlTable)) :
    List String → Option (α × TomlTable)
  | [] => change table
  | step :: path =>
    match table.find? step with
    | none =>
      (changeAt (.empty .implied) change path).map fun (result, child) =>
        (result, table.insert step (.table child))
    | some (.table child) =>
      if child.origin = .inline then none
      else
        (changeAt child change path).map fun (result, later) =>
          (result, table.insert step (.table later))
    | some (.tables elements) =>
      match elements.getLast? with
      | none => none
      | some last =>
        (changeAt last change path).map fun (result, later) =>
          (result, table.insert step (.tables (elements.dropLast ++ [later])))
    | some _ => none

end TomlTable

/-- Where a headed table belongs. -/
inductive TomlPlace where
  /-- It is the table of the whole file. -/
  | whole
  | table (path : List String) (key : String)
  | element (path : List String) (key : String)

/-- A file of which a part has been put together: the finished tables, and the
table that takes the entries now. -/
structure TomlDraft where
  finished : TomlTable
  current : TomlTable
  place : TomlPlace

namespace TomlDraft

/-- The draft of a file before its first statement. -/
def start : TomlDraft := ⟨.empty .header, .empty .header, .whole⟩

/-- Put the current table where it belongs. -/
def close (draft : TomlDraft) : Option TomlTable :=
  match draft.place with
  | .whole => some draft.current
  | .table path key =>
    (draft.finished.changeAt (fun parent =>
      if (parent.find? key).isSome then none
      else some ((), parent.insert key (.table draft.current))) path).map (·.2)
  | .element path key =>
    (draft.finished.changeAt (fun parent =>
      match parent.find? key with
      | some (.tables elements) =>
        some ((), parent.insert key (.tables (elements ++ [draft.current])))
      | _ => none) path).map (·.2)

/-- Open the table of a header.  An implied table of that name goes on with
what it holds. -/
def openTable (finished : TomlTable) (path : List String) (key : String) : Option TomlDraft :=
  (finished.changeAt (fun parent =>
    match parent.find? key with
    | none => some (TomlTable.empty .header, parent)
    | some (.table held) =>
      if held.origin = .implied then some ({ held with origin := .header }, parent.erase key)
      else none
    | some _ => none) path).map fun (current, later) => ⟨later, current, .table path key⟩

/-- Open one more table of an array of tables. -/
def openElement (finished : TomlTable) (path : List String) (key : String) : Option TomlDraft :=
  (finished.changeAt (fun parent =>
    match parent.find? key with
    | none => some ((), parent.insert key (.tables []))
    | some (.tables _) => some ((), parent)
    | some _ => none) path).map fun ((), later) => ⟨later, .empty .header, .element path key⟩

/-- Add a statement. -/
def add (draft : TomlDraft) : TomlStatement → Option TomlDraft
  | .entry path key value =>
    (draft.current.addDotted key value path).map fun current => { draft with current }
  | .header path key => draft.close.bind fun finished => openTable finished path key
  | .element path key => draft.close.bind fun finished => openElement finished path key

end TomlDraft

/-- The table that a text describes, if it is well-formed. -/
def TomlTable.ofText? (text : String) : Option TomlTable := do
  let (statements, _) ← Toml.Reader.statements.run text.toList
  let draft ← statements.foldlM TomlDraft.add TomlDraft.start
  draft.close

end ErrorAccessors
