/-
# Diagnostics

A diagnostic is a stable code, a severity, a message, the span it is about and
possibly some suggested edits.  This module holds the type, its text for a
terminal and its JSON form.  The terminal text quotes the first line of the
span and underlines the covered part; columns are counted in bytes, and so are
the blanks and carets of the underline.
-/

import ErrorAccessors.Json
import ErrorAccessors.Source.Edit
import ErrorAccessors.Text.Line

namespace ErrorAccessors

/-- How grave a diagnostic is. -/
inductive Severity where
  | error
  | warning
deriving DecidableEq, Repr, Inhabited

/-- The word for a severity. -/
def Severity.label : Severity → String
  | error => "error"
  | warning => "warning"

/-- A suggested change: a title and the edits that make it. -/
structure Suggestion where
  title : String
  edits : List Edit
deriving DecidableEq, Repr, Inhabited

/-- A message about a place in a source file. -/
structure Diagnostic where
  code : String
  severity : Severity
  message : String
  span : Span
  suggestions : List Suggestion := []
deriving DecidableEq, Repr, Inhabited

/-- The JSON form of a span, with lines and columns behind the offsets. -/
def Span.toJson (span : Span) : Json :=
  .obj [("file", .str span.file), ("start", .nat span.start.offset), ("end", .nat span.stop.offset),
    ("start_line", .nat span.start.line), ("start_col", .nat span.start.column),
    ("end_line", .nat span.stop.line), ("end_col", .nat span.stop.column)]

/-- The JSON form of an edit. -/
def Edit.toJson (edit : Edit) : Json :=
  .obj [("span", edit.span.toJson), ("replacement", .str edit.replacement)]

/-- The JSON form of a suggestion. -/
def Suggestion.toJson (suggestion : Suggestion) : Json :=
  .obj [("title", .str suggestion.title), ("edits", .list Edit.toJson suggestion.edits)]

namespace Diagnostic

/-- Whether a diagnostic is an error. -/
def isError (diagnostic : Diagnostic) : Bool :=
  diagnostic.severity == .error

/-- The JSON form of a diagnostic.  Suggestions are left out when there are
none. -/
def toJson (diagnostic : Diagnostic) : Json :=
  .obj ([("code", .str diagnostic.code), ("severity", .str diagnostic.severity.label),
    ("message", .str diagnostic.message), ("span", diagnostic.span.toJson)] ++
    if diagnostic.suggestions = [] then []
    else [("suggestions", .list Suggestion.toJson diagnostic.suggestions)])

/-- A run of one character. -/
def run (count : Nat) (c : Char) : String :=
  String.ofList (List.replicate count c)

/-- The quoted source line with the underlined part of the span. -/
def excerpt (span : Span) (line : List Char) : String :=
  let gutter := toString span.start.line
  let margin := run gutter.length ' '
  let indent := span.start.column - 1
  let width :=
    if span.stop.line = span.start.line then span.stop.column - span.start.column
    else Text.byteLength line - indent
  margin ++ " |\n" ++ gutter ++ " | " ++ String.ofList line ++ "\n" ++ margin ++ " | " ++
    run indent ' ' ++ run (max width 1) '^' ++ "\n"

/-- The line that offers a suggestion, showing its first replacement. -/
def helpLine (suggestion : Suggestion) : String :=
  let replacement :=
    match suggestion.edits with
    | [] => ""
    | edit :: _ => ": `" ++ edit.replacement ++ "`"
  "   = help: " ++ suggestion.title ++ replacement ++ "\n"

/-- The text of a diagnostic for a terminal, given the text of its file.  A
span whose line does not exist is reported without an excerpt. -/
def render (diagnostic : Diagnostic) (source : String) : String :=
  let span := diagnostic.span
  let head :=
    diagnostic.severity.label ++ "[" ++ diagnostic.code ++ "]: " ++ diagnostic.message ++
      "\n  --> " ++ span.file ++ ":" ++ toString span.start.line ++ ":" ++
      toString span.start.column ++ "\n"
  let shown :=
    match (Text.lines source.toList)[span.start.line - 1]? with
    | none => ""
    | some line => excerpt span line
  head ++ shown ++ String.join (diagnostic.suggestions.map helpLine)

end Diagnostic

end ErrorAccessors
