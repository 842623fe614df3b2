/-
# Writing settings

All settings as the text of a settings file, defaults included, section by
section.  Every setting is written as a text or as a list of texts, since the
choices are named by words.  Reading the text gives the settings back.
-/

import ErrorAccessors.Settings
import ErrorAccessors.Toml.Quoted

namespace ErrorAccessors

/-- What is written for a setting. -/
inductive SettingValue where
  | text (value : String)
  | texts (values : List String)
deriving DecidableEq, Repr, Inhabited

/-- The written form of a setting; more than one text stand on lines of their
own. -/
def SettingValue.toToml : SettingValue → String
  | text value => Toml.writeQuoted value
  | texts values =>
    match values.map Toml.writeQuoted with
    | [] => "[]"
    | [item] => "[" ++ item ++ "]"
    | items => "[\n" ++ String.join (items.map fun item => "    " ++ item ++ ",\n") ++ "]"

namespace Settings

/-- All settings by section and name. -/
def sections (settings : Settings) : List (String × List (String × SettingValue)) :=
  let marker := settings.marker
  let grammar := settings.grammar
  let emission := settings.emission
  [("marker",
      [("full_name", .text marker.fullName), ("short_name", .text marker.shortName),
        ("code_parameter", .text marker.codeParameter),
        ("message_parameter", .text marker.messageParameter)]),
    ("grammar",
      [("result_type", .text grammar.resultType),
        ("async_wrappers", .texts grammar.asyncWrappers)]),
    ("emit",
      [("runtime_namespace", .text emission.runtimeNamespace),
        ("debug_symbol", .text emission.debugSymbol), ("variant", .text emission.variant.text),
        ("file_prefix", .text emission.filePrefix), ("out_dir", .text emission.outDir),
        ("duplicate_codes", .text emission.duplicateCodes.text),
        ("name_collisions", .text emission.nameCollisions.text)])]

/-- A section with its settings. -/
def sectionText (name : String) (entries : List (String × SettingValue)) : String :=
  "[" ++ name ++ "]\n" ++
    String.join (entries.map fun (key, value) => key ++ " = " ++ value.toToml ++ "\n")

/-- All settings as the text of a settings file. -/
def toToml (settings : Settings) : String :=
  "\n".intercalate (settings.sections.map fun (name, entries) => sectionText name entries)

end Settings

end ErrorAccessors
