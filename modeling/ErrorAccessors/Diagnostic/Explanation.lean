/-
# Explanations of diagnostic codes

What a code means, with an example and a way out.  An explanation begins with
the code and its summary, so that those agree with the list of all codes.
-/

import ErrorAccessors.Diagnostic.Code

namespace ErrorAccessors.DiagnosticCode

/-- The code with a text. -/
def ofText? (word : String) : Option DiagnosticCode :=
  all.find? fun code => code.text == word

/-- The lines below the heading of an explanation. -/
def explanationLines : DiagnosticCode → List String
  | unexpectedToken =>
    ["The parser met a token that does not fit a declaration.",
      "",
      "Example:",
      "  public class Api",
      "  \x7b",
      "      public Result Run() => null;",
      "  \x7d\x7d",
      "",
      "Fix: Remove the stray token or add what is missing before it."]
  | unterminatedLiteral =>
    ["A literal was opened but not closed on the same line.",
      "",
      "Example:",
      "  [ErrorResult(1, \"No enemy provided)]",
      "",
      "Fix: Close the literal with a matching quote."]
  | invalidNumber =>
    ["A number contains characters that are not valid for its base.",
      "",
      "Example:",
      "  [ErrorResult(0x1G, \"Bad\")]",
      "",
      "Fix: Use only digits valid for the literal's base."]
  | missingDelimiter =>
    ["A `\x7b`, `(` or `[` is never closed before the end of the file.",
      "",
      "Example:",
      "  public class Api",
      "  \x7b",
      "      public Result Run() \x7b return null;",
      "",
      "Fix: Add the matching closing delimiter."]
  | unexpectedEnd =>
    ["The file ended in the middle of a declaration.",
      "",
      "Example:",
      "  namespace Game",
      "  \x7b",
      "      public class",
      "",
      "Fix: Complete the declaration."]
  | unreadableFile =>
    ["The file exists in the input set but reading it failed, for example",
      "because of permissions or invalid UTF-8.",
      "",
      "Fix: Check the file's permissions and encoding."]
  | invalidReturnType =>
    ["A method carrying [ErrorResult] must return `Result` or `Result<T>`.",
      "Async methods must return `Task<Result>` or `Task<Result<T>>` (or the same",
      "inside another configured async wrapper such as `UniTask`).",
      "",
      "Example:",
      "  [ErrorResult(1, \"No enemy provided\")]",
      "  public AttackResult AttackTheEnemy(Enemy enemy) \x7b ... \x7d",
      "",
      "Fix: Return `Result<AttackResult>` instead. `resultgen fix` rewrites the",
      "return type for you:",
      "  void          -> Result",
      "  async void    -> Task<Result>",
      "  T             -> Result<T>",
      "  async Task<T> -> Task<Result<T>>"]
  | siteFault =>
    ["Accessors for one annotated method could not be generated. Other methods",
      "are unaffected and still generated. The reason is part of the message and",
      "is also listed in the `Gen_ResultsGenerator_Trace` artifact.",
      "",
      "Common causes:",
      "  - two annotations share an error code while `emit.duplicate_codes = \"error\"`",
      "  - two messages derive the same accessor name while",
      "    `emit.name_collisions = \"error\"`",
      "",
      "Fix: Make the codes or messages distinct, or relax the policy in",
      "resultgen.toml."]
  | duplicateErrorCode =>
    ["Two annotations on the same method use the same error code. Both",
      "accessors are generated, but callers cannot tell the failures apart by",
      "code.",
      "",
      "Example:",
      "  [ErrorResult(1, \"No enemy provided\")]",
      "  [ErrorResult(1, \"Enemy already defeated\")]",
      "",
      "Fix: Give each failure its own code. Set `emit.duplicate_codes = \"allow\"`",
      "to silence this warning or `\"error\"` to reject the method."]
  | identifierCollision =>
    ["Accessor names come from the message: lower-cased, split on spaces and",
      "underscores, title-cased and joined. Two messages that differ only in case",
      "or separators produce the same name, and a message may also produce the",
      "name of the enclosing accessor class.",
      "",
      "Example:",
      "  [ErrorResult(3, \"Not found\")]",
      "  [ErrorResult(4, \"not_found\")]     // NotFound4",
      "",
      "The later entry gets its error code appended.",
      "",
      "Fix: Reword one of the messages. Set `emit.name_collisions = \"error\"` to",
      "reject the method instead."]
  | unusableAttribute =>
    ["An [ErrorResult] annotation must carry an integer code and a string",
      "message, positionally or by name (`errorCode:`, `errorMessage:`). The",
      "annotation is skipped.",
      "",
      "Example:",
      "  [ErrorResult(\"No enemy provided\")]",
      "",
      "Fix:",
      "  [ErrorResult(1, \"No enemy provided\")]"]

/-- The explanation of a code, which ends with a line break. -/
def explanation (code : DiagnosticCode) : String :=
  code.text ++ ": " ++ code.summary ++ "\n\n" ++
    String.join (code.explanationLines.map fun line => line ++ "\n")

/-- The text of a code names it. -/
theorem ofText?_text (code : DiagnosticCode) : ofText? code.text = some code := by
  cases code <;> decide

end ErrorAccessors.DiagnosticCode
