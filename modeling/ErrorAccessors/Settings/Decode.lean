/-
# Reading settings

The settings of a project are the table of a settings file: one section for
each group of settings, and in it one entry for each setting.  Sections and
settings that are missing keep their defaults.  The entries are taken in the
order in which they were written, and the first one that does not fit is
reported.  A section may also be written as an array of its first settings.
-/

import ErrorAccessors.Settings
import ErrorAccessors.Text.Visible
import ErrorAccessors.Toml.Document
import ErrorAccessors.Unicode.Space

namespace ErrorAccessors

/-- What is wrong with a settings file. -/
inductive SettingsProblem where
  /-- The text is not well-formed. -/
  | malformed
  | unknownField (name : String) (expected : List String)
  | unknownWord (word : String) (expected : List String)
  | wrongType (found expected : String)
  /-- A choice is written in a form that names no word. -/
  | noWord (text : String)
deriving DecidableEq, Repr, Inhabited

namespace SettingsProblem

/-- A list of allowed names. -/
def alternatives (names : List String) : String :=
  let quoted := names.map fun name => "`" ++ name ++ "`"
  match quoted with
  | [] => "there are no names"
  | [single] => "expected " ++ single
  | [first, second] => "expected " ++ first ++ " or " ++ second
  | more => "expected one of " ++ ", ".intercalate more

/-- What is said about a problem. -/
def message : SettingsProblem → String
  | malformed => "not a valid TOML document"
  | unknownField name expected => "unknown field `" ++ name ++ "`, " ++ alternatives expected
  | unknownWord word expected => "unknown variant `" ++ word ++ "`, " ++ alternatives expected
  | wrongType found expected => "invalid type: " ++ found ++ ", expected " ++ expected
  | noWord text => text

end SettingsProblem

/-- What a value is, for a message. -/
def TomlValue.describe : TomlValue → String
  | string text => "string " ++ Text.quoteVisible text
  | integer value => "integer `" ++ toString value ++ "`"
  | float value => "floating point `" ++ value.text ++ "`"
  | boolean value => "boolean `" ++ (if value then "true" else "false") ++ "`"
  | time | table _ => "map"
  | array _ | tables _ => "sequence"

namespace Settings.Decode

/-- A value or what is wrong with it. -/
abbrev Result (α : Type) := Except SettingsProblem α

/-- A text where `expected` is asked for. -/
def text (expected : String) : TomlValue → Result String
  | .string value => .ok value
  | other => .error (.wrongType other.describe expected)

/-- A list of texts. -/
def texts : TomlValue → Result (List String)
  | .array items => items.mapM (text "a string")
  | .tables elements => elements.mapM fun element => text "a string" (.table element)
  | other => .error (.wrongType other.describe "a sequence")

/-- Whether a value is empty, as it has to be behind a word. -/
def isEmpty : TomlValue → Bool
  | .array items => items.isEmpty
  | .table table => table.entries.isEmpty
  | .tables elements => elements.isEmpty
  | _ => false

/-- One of some choices, each named by a word.  The word is a text, or else the
only key of a table, with nothing behind it. -/
def choice {α : Type} (word : α → String) (choices : List α) (value : TomlValue) : Result α := do
  let named (given : String) : Result α :=
    match choices.find? fun choice => word choice == given with
    | some choice => .ok choice
    | none => .error (.unknownWord given (choices.map word))
  match value with
  | .string given => named given
  | .table ⟨_, [(given, behind)]⟩ =>
    let choice ← named given
    if isEmpty behind then return choice else .error (.noWord "expected an empty value")
  | .table ⟨_, []⟩ => .error (.noWord "wanted exactly 1 element, found 0 elements")
  | .table _ => .error (.noWord "wanted exactly 1 element, more than 1 element")
  | _ => .error (.noWord "wanted string or table")

/-- A setting: its name, and how its value changes a group of settings. -/
structure Field (σ : Type) where
  name : String
  set : TomlValue → σ → Result σ

/-- A setting whose value is read by a function. -/
def field {σ α : Type} (name : String) (read : TomlValue → Result α) (put : α → σ → σ) : Field σ :=
  ⟨name, fun value settings => (read value).map fun setting => put setting settings⟩

/-- The key under which a date counts as a table. -/
def timeKey : String := "$__toml_private_datetime"

/-- A setting by its name. -/
def setNamed {σ : Type} (fields : List (Field σ)) (settings : σ) (key : String)
    (value : TomlValue) : Result σ :=
  match fields.find? fun field => field.name == key with
  | some field => field.set value settings
  | none => .error (.unknownField key (fields.map (·.name)))

/-- Settings by their places. -/
def setPlaced {σ : Type} (fields : List (Field σ)) (settings : σ) (values : List TomlValue) :
    Result σ :=
  (fields.zip values).foldlM (fun settings (field, value) => field.set value settings) settings

/-- A group of settings, beginning with the defaults. -/
def group {σ : Type} (name : String) (fields : List (Field σ)) (defaults : σ) :
    TomlValue → Result σ
  | .table table =>
    table.entries.foldlM (fun settings (key, value) => setNamed fields settings key value) defaults
  | .time => setNamed fields defaults timeKey .time
  | .array items => setPlaced fields defaults items
  | .tables elements => setPlaced fields defaults (elements.map .table)
  | other => .error (.wrongType other.describe ("struct " ++ name))

/-- The settings of the marker. -/
def marker : TomlValue → Result Marker :=
  group "MarkerConfig"
    [field "full_name" (text "a string") fun value settings => { settings with fullName := value },
      field "short_name" (text "a string") fun value settings =>
        { settings with shortName := value },
      field "code_parameter" (text "a string") fun value settings =>
        { settings with codeParameter := value },
      field "message_parameter" (text "a string") fun value settings =>
        { settings with messageParameter := value }]
    {}

/-- The settings of the result grammar. -/
def grammar : TomlValue → Result ResultGrammar :=
  group "GrammarConfig"
    [field "result_type" (text "a string") fun value settings =>
        { settings with resultType := value },
      field "async_wrappers" texts fun value settings => { settings with asyncWrappers := value }]
    {}

/-- The settings of generation. -/
def emission : TomlValue → Result Emission :=
  group "EmitConfig"
    [field "runtime_namespace" (text "a string") fun value settings =>
        { settings with runtimeNamespace := value },
      field "debug_symbol" (text "a string") fun value settings =>
        { settings with debugSymbol := value },
      field "variant" (choice Variant.text [.both, .debug, .release]) fun value settings =>
        { settings with variant := value },
      field "file_prefix" (text "a string") fun value settings =>
        { settings with filePrefix := value },
      field "out_dir" (text "path string") fun value settings => { settings with outDir := value },
      field "duplicate_codes" (choice DuplicateCodes.text [.warn, .error, .allow])
        fun value settings => { settings with duplicateCodes := value },
      field "name_collisions" (choice NameCollisions.text [.suffix, .error])
        fun value settings => { settings with nameCollisions := value }]
    {}

/-- All settings. -/
def all (table : TomlTable) : Result Settings :=
  group "Config"
    [field "marker" marker fun value settings => { settings with marker := value },
      field "grammar" grammar fun value settings => { settings with grammar := value },
      field "emit" emission fun value settings => { settings with emission := value }]
    {} (.table table)

end Settings.Decode

/-- Why settings cannot be used. -/
inductive SettingsError where
  | unreadable (path : String)
  | badText (path : Option String) (problem : SettingsProblem)
  | emptyName (key : String)
  | resultIsWrapper
deriving DecidableEq, Repr, Inhabited

/-- What is said about unusable settings. -/
def SettingsError.message : SettingsError → String
  | unreadable path => "could not read " ++ path
  | badText none problem => "invalid configuration: " ++ problem.message
  | badText (some path) problem => "invalid configuration in " ++ path ++ ": " ++ problem.message
  | emptyName key => "invalid configuration: `" ++ key ++ "` must not be empty"
  | resultIsWrapper =>
    "invalid configuration: `grammar.result_type` cannot also be an async wrapper"

namespace Settings

/-- The names that must not be empty, with their keys. -/
def names (settings : Settings) : List (String × String) :=
  [("marker.full_name", settings.marker.fullName),
    ("marker.short_name", settings.marker.shortName),
    ("marker.code_parameter", settings.marker.codeParameter),
    ("marker.message_parameter", settings.marker.messageParameter),
    ("grammar.result_type", settings.grammar.resultType)]

/-- Settings that can be used: no name is blank, and the result type is not a
wrapper. -/
def validate (settings : Settings) : Except SettingsError Settings :=
  match settings.names.find? fun (_, name) => Unicode.isBlank name with
  | some (key, _) => .error (.emptyName key)
  | none =>
    if settings.grammar.asyncWrappers.contains settings.grammar.resultType then
      .error .resultIsWrapper
    else .ok settings

/-- The settings that a text describes. -/
def parse (text : String) : Except SettingsError Settings :=
  match TomlTable.ofText? text with
  | none => .error (.badText none .malformed)
  | some table =>
    match Decode.all table with
    | .error problem => .error (.badText none problem)
    | .ok settings => settings.validate

end Settings

end ErrorAccessors
