/-
# Diagnostic codes

Every diagnostic of this library carries one of the codes below.  The texts of
the codes are stable: `E0` codes are about reading a file, `E1` codes about the
return types of marked methods, `E2` codes about generation, and `W` codes are
warnings.
-/

import ErrorAccessors.Diagnostic

namespace ErrorAccessors

/-- The conditions that are reported. -/
inductive DiagnosticCode where
  | unexpectedToken
  | unterminatedLiteral
  | invalidNumber
  | missingDelimiter
  | unexpectedEnd
  | unreadableFile
  | invalidReturnType
  | siteFault
  | duplicateErrorCode
  | identifierCollision
  | unusableAttribute
deriving DecidableEq, Repr

namespace DiagnosticCode

/-- The stable text of a code. -/
def text : DiagnosticCode → String
  | unexpectedToken => "E0001"
  | unterminatedLiteral => "E0002"
  | invalidNumber => "E0003"
  | missingDelimiter => "E0004"
  | unexpectedEnd => "E0008"
  | unreadableFile => "E0100"
  | invalidReturnType => "E1001"
  | siteFault => "E2001"
  | duplicateErrorCode => "W0101"
  | identifierCollision => "W0102"
  | unusableAttribute => "W0103"

/-- A one-line summary of a code. -/
def summary : DiagnosticCode → String
  | unexpectedToken => "Unexpected token"
  | unterminatedLiteral => "Unterminated string or character literal"
  | invalidNumber => "Invalid numeric literal"
  | missingDelimiter => "Missing closing delimiter"
  | unexpectedEnd => "Unexpected end of file"
  | unreadableFile => "Source file could not be read"
  | invalidReturnType => "Invalid return type for an error-result method"
  | siteFault => "Generation failed for one method"
  | duplicateErrorCode => "Duplicate error code on one method"
  | identifierCollision => "Two error messages derive the same accessor name"
  | unusableAttribute => "Error-result annotation with unusable arguments"

/-- All codes, in the order in which they are listed. -/
def all : List DiagnosticCode :=
  [unexpectedToken, unterminatedLiteral, invalidNumber, missingDelimiter, unexpectedEnd,
    unreadableFile, invalidReturnType, siteFault, duplicateErrorCode, identifierCollision,
    unusableAttribute]

/-- Every code is listed. -/
theorem mem_all (code : DiagnosticCode) : code ∈ all := by
  cases code <;> decide

/-- Different codes have different texts. -/
theorem text_injective {first second : DiagnosticCode} (h : first.text = second.text) :
    first = second := by
  cases first <;> cases second <;> simp_all [text]

end DiagnosticCode

namespace Diagnostic

/-- An error with no suggestions. -/
def error (code : DiagnosticCode) (message : String) (span : Span) : Diagnostic :=
  { code := code.text, severity := .error, message, span }

/-- A warning with no suggestions. -/
def warning (code : DiagnosticCode) (message : String) (span : Span) : Diagnostic :=
  { code := code.text, severity := .warning, message, span }

end Diagnostic

end ErrorAccessors
