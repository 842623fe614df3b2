/-
# Settings

What a project may choose: which attribute marks a method, which types count as
results, and how the generated sources are named and what happens when codes or
names clash.  Every setting has a default, so that a project without a settings
file works with the conventional `[ErrorResult]` attribute.
-/

namespace ErrorAccessors

/-- The attribute that marks a method for generation. -/
structure Marker where
  /-- The full name of the attribute type. -/
  fullName : String := "ErrorResultAttribute"
  /-- The name without its conventional ending. -/
  shortName : String := "ErrorResult"
  /-- The parameter that carries the integer code. -/
  codeParameter : String := "errorCode"
  /-- The parameter that carries the message. -/
  messageParameter : String := "errorMessage"
deriving DecidableEq, Repr, Inhabited

/-- Whether an attribute name is the marker, in either form. -/
def Marker.accepts (marker : Marker) (name : String) : Bool :=
  name == marker.fullName || name == marker.shortName

/-- The names that make a return type a result: the result type itself and the
asynchronous wrappers that may hold one. -/
structure ResultGrammar where
  resultType : String := "Result"
  asyncWrappers : List String := ["Task", "UniTask", "ValueTask"]
deriving DecidableEq, Repr, Inhabited

/-- Which build variants get accessors. -/
inductive Variant where
  /-- Both, selected by a conditional compilation symbol. -/
  | both
  /-- Only accessors that carry their message. -/
  | debug
  /-- Only accessors without messages. -/
  | release
deriving DecidableEq, Repr, Inhabited

namespace Variant

/-- The word for a variant. -/
def text : Variant → String
  | both => "both"
  | debug => "debug"
  | release => "release"

/-- The variant that a word names. -/
def ofText? (word : String) : Option Variant :=
  [both, debug, release].find? fun variant => variant.text == word

/-- What is said about a word that names no variant. -/
def unknownMessage (word : String) : String :=
  "unknown variant `" ++ word ++ "` (expected both, debug or release)"

/-- The word for a variant names it. -/
theorem ofText?_text (variant : Variant) : ofText? variant.text = some variant := by
  cases variant <;> decide

end Variant

/-- What happens when two annotations of a method share a code. -/
inductive DuplicateCodes where
  /-- Both are emitted and a warning is given. -/
  | warn
  /-- The method is rejected. -/
  | error
  /-- Both are emitted. -/
  | allow
deriving DecidableEq, Repr, Inhabited

/-- The word for a policy on duplicate codes. -/
def DuplicateCodes.text : DuplicateCodes → String
  | warn => "warn"
  | error => "error"
  | allow => "allow"

/-- What happens when two messages of a method derive the same accessor name. -/
inductive NameCollisions where
  /-- The code is appended to the later name and a warning is given. -/
  | suffix
  /-- The method is rejected. -/
  | error
deriving DecidableEq, Repr, Inhabited

/-- The word for a policy on name collisions. -/
def NameCollisions.text : NameCollisions → String
  | suffix => "suffix"
  | error => "error"

/-- How sources are generated. -/
structure Emission where
  /-- The namespace of the result types, imported by every source. -/
  runtimeNamespace : String := "TDS.Results"
  /-- The symbol that selects the accessors with messages. -/
  debugSymbol : String := "DEBUG"
  variant : Variant := .both
  /-- The beginning of every artifact name. -/
  filePrefix : String := "Gen"
  /-- The output directory, relative to the settings file. -/
  outDir : String := "Generated"
  duplicateCodes : DuplicateCodes := .warn
  nameCollisions : NameCollisions := .suffix
deriving DecidableEq, Repr, Inhabited

/-- All settings of a project. -/
structure Settings where
  marker : Marker := {}
  grammar : ResultGrammar := {}
  emission : Emission := {}
deriving DecidableEq, Repr, Inhabited

end ErrorAccessors
