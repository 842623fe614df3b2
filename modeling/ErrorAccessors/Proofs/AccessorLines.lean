/-
# The lines of generated accessors

Reading does not look into bodies, so an outline does not tell whether an accessor carries
its message.  The lines of the text tell it.  Each accessor stands on a line of its own, no
other line begins like one, and the layout keeps the lines, so the accessors of a text can be
listed in the order in which they stand there.
-/

import ErrorAccessors.Proofs.OutlinedText

namespace ErrorAccessors

open ErrorAccessors.Parser

namespace Template

/-- How the accessors of a method begin that returns something with its result. -/
def accessorBeginning : String :=
  "public Result<"

/-- The lines of a text, without the white space around them, that begin like an accessor. -/
def accessorLines (text : String) : List String :=
  ((Layout.trimmedLines text.toList).filter accessorBeginning.toList.isPrefixOf).map String.ofList

section Lines

variable {line : String}

theorem accessorLines_append (text more : String) :
    accessorLines (text ++ "\n" ++ more) = accessorLines text ++ accessorLines more := by
  have isText : (text ++ "\n" ++ more).toList = text.toList ++ '\n' :: more.toList := by simp
  rw [accessorLines, isText, Layout.trimmedLines_append, List.filter_append, List.map_append]
  rfl

@[simp] theorem accessorLines_nothing : accessorLines "" = [] := rfl

/-- The end of the last line makes no difference. -/
theorem accessorLines_concat (text : String) :
    accessorLines (text ++ "\n") = accessorLines text := by
  have behind := accessorLines_append text ""
  rwa [accessorLines_nothing, List.append_nil, String.append_empty] at behind

private theorem trimmedLines_of_neat (neat : Layout.Neat line.toList) :
    Layout.trimmedLines line.toList = [line.toList] := by
  simpa using Layout.trimmedLines_of_neat neat 0

/-- The line of an accessor is one of them. -/
theorem accessorLines_of_begins (neat : Layout.Neat line.toList) {rest : String}
    (isLine : line = accessorBeginning ++ rest) : accessorLines line = [line] := by
  have begins : accessorBeginning.toList.isPrefixOf line.toList = true := by
    rw [List.isPrefixOf_iff_prefix, isLine, String.toList_append]
    exact List.prefix_append _ _
  rw [accessorLines, trimmedLines_of_neat neat, List.filter_cons_of_pos begins, List.filter_nil,
    List.map_singleton, String.ofList_toList]

/-- A line that begins otherwise is none of them. -/
theorem accessorLines_of_other (neat : Layout.Neat line.toList) {front rest : String}
    (isLine : line = front ++ rest)
    (other : ¬accessorBeginning.toList <+: front.toList ∧
      ¬front.toList <+: accessorBeginning.toList) :
    accessorLines line = [] := by
  have noAccessor : ¬accessorBeginning.toList.isPrefixOf line.toList = true := by
    rw [List.isPrefixOf_iff_prefix, isLine, String.toList_append]
    intro begins
    exact (List.prefix_or_prefix_of_prefix begins (List.prefix_append _ _)).elim other.1 other.2
  rw [accessorLines, trimmedLines_of_neat neat, List.filter_cons_of_neg noAccessor, List.filter_nil,
    List.map_nil]

theorem accessorLines_lines (texts : List String) :
    accessorLines (lines texts) = texts.flatMap accessorLines := by
  unfold lines
  induction texts with
  | nil => rfl
  | cons first texts ih =>
      cases texts with
      | nil => simp
      | cons second texts =>
          rw [String.intercalate_cons_cons, accessorLines_append, ih, ← List.flatMap_cons]

theorem accessorLines_block (head : String) (texts : List String) :
    accessorLines (block head texts) = accessorLines head ++ texts.flatMap accessorLines := by
  have isBlock : block head texts =
      head ++ "\n" ++ "\x7b" ++ "\n" ++ lines texts ++ "\n" ++ "\x7d" := by
    simp [block, ← String.toList_inj]
  have opening : accessorLines "\x7b" = [] := rfl
  have closing : accessorLines "\x7d" = [] := rfl
  rw [isBlock, accessorLines_append, accessorLines_append, accessorLines_append, opening, closing,
    accessorLines_lines, List.append_nil, List.append_nil]

end Lines

section Frames

variable {frame : Frame} {body : String}

/-- A declaration keeps its accessors when it is laid out in a proper frame, which has none of
its own. -/
theorem accessorLines_inFrame (proper : IsProperFrame frame)
    (runtime : (UsingKind.ofNamespace frame.runtimeNamespace).IsProper false)
    {kinds : List TokenKind} (laysOut : LaysOut body kinds) :
    accessorLines (Layout.normalize (inFrame frame body)) = accessorLines body := by
  have directive {kind : UsingKind} (isProper : kind.IsProper false) :
      accessorLines kind.text = [] := by
    obtain ⟨target, repeated⟩ := exists_repeatsDirective isProper
    obtain ⟨rest, isLine⟩ : ∃ rest, kind.text = "using " ++ rest := by
      cases kind with
      | ofNamespace name => exact ⟨_, String.append_assoc⟩
      | ofStatic type =>
          exact ⟨"static " ++ type ++ ";", by simp [UsingKind.text, ← String.toList_inj]⟩
      | ofAlias name target =>
          exact ⟨name ++ " = " ++ target ++ ";", by simp [UsingKind.text, String.append_assoc]⟩
    exact accessorLines_of_other repeated.written.neat isLine (by decide)
  have imports : frame.imports.flatMap accessorLines = [] := by
    refine List.flatMap_eq_nil_iff.mpr fun text member => ?_
    obtain ⟨kind, isProper, rfl⟩ := proper.imports text member
    exact directive isProper
  obtain ⟨target, isRuntime⟩ := exists_repeatsDirective runtime
  have laysOutAll : LaysOut body [kinds].flatten := by simpa using laysOut
  obtain ⟨text, _, _, _, isText, _, _, _, whole⟩ :=
    exists_laysOut_inFrame proper isRuntime.written laysOutAll
  have kept : accessorLines (Layout.normalize (inFrame frame body)) = accessorLines text := by
    rw [isText, accessorLines, whole.trimmedLines_normalize]
    rfl
  rw [kept, ← accessorLines_concat, ← isText]
  have newline : ";\n" = ";" ++ "\n" := rfl
  have front : accessorLines (UsingKind.ofNamespace frame.runtimeNamespace).text = [] :=
    directive runtime
  rw [UsingKind.text] at front
  unfold inFrame
  simp only [newline]
  rw [← String.append_assoc, accessorLines_concat, accessorLines_append, front, List.nil_append]
  by_cases noSpace : frame.space = ""
  · rw [if_pos noSpace, accessorLines_append, accessorLines_lines, imports, List.nil_append]
  · obtain ⟨first, others, isName⟩ := proper.space noSpace
    have noHead : accessorLines ("namespace " ++ frame.space) = [] :=
      accessorLines_of_other (writesNeatly_namespace isName).neat rfl (by decide)
    rw [if_neg noSpace, accessorLines_block, noHead]
    simp [accessorLines_lines, imports]

end Frames

section Errors

variable {frame : Frame} {typeName method carried debugSymbol : String} {type : TypeExpr}
  {shape : ReturnShape} {entries : List NamedEntry}

private theorem accessorLines_inVariant (isSymbol : Lexeme.IsWord debugSymbol.toList)
    (text : Bool → String) (variant : Variant) :
    accessorLines (inVariant variant debugSymbol text) =
      variant.messages.flatMap fun withMessage => accessorLines (text withMessage) := by
  cases variant with
  | debug => simp [inVariant, Variant.messages]
  | release => simp [inVariant, Variant.messages]
  | both =>
      have ifLine : accessorLines ("#if " ++ debugSymbol) = [] :=
        accessorLines_of_other (neat_ifSymbol isSymbol) rfl (by decide)
      have elseLine : accessorLines "#else" = [] := rfl
      have endLine : accessorLines "#endif" = [] := rfl
      simp [inVariant, Variant.messages, accessorLines_lines, ifLine, elseLine, endLine]

/-- The accessors of a method stand in its text for each time that they are emitted, first
those that carry their messages. -/
theorem accessorLines_methodErrors (isTypeName : Lexeme.IsWord typeName.toList)
    (isMethod : Lexeme.IsWord method.toList) (isSymbol : Lexeme.IsWord debugSymbol.toList)
    (carries : shape.payload.type? = some carried) (spelled : IsSpelledShape shape)
    (isType : TypeExpr.parse carried = .ok type)
    (areTexts : ∀ named ∈ entries,
      IsAccessorText named.name.toList ∧ Lexeme.IsWord named.name.toList)
    (variant : Variant) (proper : IsProperFrame frame)
    (runtime : (UsingKind.ofNamespace frame.runtimeNamespace).IsProper false) :
    accessorLines (Layout.normalize
        (methodErrors frame typeName method "Result" shape entries variant debugSymbol)) =
      variant.messages.flatMap fun withMessage =>
        entries.map (accessor "Result" shape withMessage) := by
  obtain ⟨kinds, -, laysOut⟩ := exists_outlines_provider isTypeName isMethod isSymbol carries
    spelled isType areTexts variant
  have noProvider : accessorLines (providerClass typeName) = [] :=
    accessorLines_of_other (isClassHead_provider isTypeName).written.neat String.append_assoc
      (by decide)
  have noErrors : accessorLines ("public class " ++ method ++ "Errors") = [] :=
    accessorLines_of_other (isClassHead_accessors isMethod).written.neat String.append_assoc
      (by decide)
  have accessors (withMessage : Bool) :
      (entries.map (accessor "Result" shape withMessage)).flatMap accessorLines =
        entries.map (accessor "Result" shape withMessage) := by
    rw [List.flatMap_map, List.map_eq_flatMap]
    refine List.flatMap_congr fun named member => ?_
    obtain ⟨isText, isWord⟩ := areTexts named member
    obtain ⟨kinds, -, written⟩ :=
      exists_outlines_accessor carries spelled isType isText isWord withMessage
    have begins : accessorBeginning = "public " ++ ("Result" ++ "<") := rfl
    obtain ⟨rest, isLine⟩ : ∃ rest, accessor "Result" shape withMessage named =
        accessorBeginning ++ rest := by
      rw [accessor_of_carried carries, begins]
      simp only [String.append_assoc, -String.reduceAppend]
      exact ⟨_, rfl⟩
    exact accessorLines_of_begins written.neat isLine
  rw [methodErrors, accessorLines_inFrame proper runtime laysOut, accessorLines_block, noProvider,
    List.nil_append, List.flatMap_singleton, accessorLines_inVariant isSymbol]
  refine List.flatMap_congr fun withMessage _ => ?_
  rw [accessorClass, accessorLines_block, noErrors, List.nil_append, accessors]

end Errors

end Template

end ErrorAccessors
