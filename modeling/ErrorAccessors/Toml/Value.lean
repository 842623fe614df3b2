/-
# Values of settings files

Settings files are written in TOML.  A table keeps its entries in the order in
which they were first written, because the first entry that does not fit is
the one that is reported.  It also keeps how it came about, since that decides
whether more may be added to it.
-/

import ErrorAccessors.Binary64

namespace ErrorAccessors

/-- How a table came about. -/
inductive TomlOrigin where
  /-- It has a header of its own, or is the table of the whole file. -/
  | header
  /-- It is on the way to a table with a header. -/
  | implied
  /-- It is on the way of a dotted key. -/
  | dotted
  /-- It is written between braces. -/
  | inline
deriving DecidableEq, Repr, Inhabited

mutual

/-- A value.  Dates and times are only told apart from other values. -/
inductive TomlValue where
  | string (text : String)
  | integer (value : Int)
  | float (value : Binary64)
  | boolean (value : Bool)
  | time
  | array (items : List TomlValue)
  | table (table : TomlTable)
  /-- Tables that are headed by the same doubly bracketed name. -/
  | tables (elements : List TomlTable)

/-- A table. -/
structure TomlTable where
  origin : TomlOrigin
  entries : List (String × TomlValue)

end

instance : Inhabited TomlTable := ⟨⟨.header, []⟩⟩
instance : Inhabited TomlValue := ⟨.time⟩

namespace TomlTable

/-- A table without entries. -/
def empty (origin : TomlOrigin) : TomlTable := ⟨origin, []⟩

/-- The value of a key. -/
def find? (table : TomlTable) (key : String) : Option TomlValue :=
  (table.entries.find? fun entry => entry.1 == key).map (·.2)

/-- Give a key a value.  A key that has one stays at its place. -/
def insert (table : TomlTable) (key : String) (value : TomlValue) : TomlTable :=
  if (table.find? key).isSome then
    { table with
      entries := table.entries.map fun entry => if entry.1 = key then (key, value) else entry }
  else { table with entries := table.entries ++ [(key, value)] }

/-- Take a key away. -/
def erase (table : TomlTable) (key : String) : TomlTable :=
  { table with entries := table.entries.filter fun entry => entry.1 ≠ key }

end TomlTable

end ErrorAccessors
