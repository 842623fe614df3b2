/-
# The bodies of methods are opaque

The outline of a file says of a method that it has a block, an expression or no body, and
nothing of what is inside.  The tokens inside of any bodies may be replaced by others, as
long as their delimiters are properly nested and, in an expression, no token outside of
them ends it: the file still has an outline, and it is the same apart from places.
-/

import ErrorAccessors.Proofs.ExchangedOutline
import ErrorAccessors.Proofs.ProperBinding

namespace ErrorAccessors

/-- No return type is exchanged. -/
def Exchange.nothing : Exchange := fun _ => none

theorem Exchange.fits_nothing : Exchange.nothing.Fits := by
  refine ⟨fun method given gives => ?_, fun method given kinds written gives => ?_⟩ <;> cases gives

/-- A stretch becomes itself or, if it is a method, one with other tokens inside of its
body. -/
inductive Stretch.Refilled : Stretch → Stretch → Prop
  | same (stretch : Stretch) : Refilled stretch stretch
  | body {found : MethodTokens} {inside : List Token}
      (admits : found.decl.body.Admits (inside.map (·.kind))) :
      Refilled (.method found) (.method { found with body := inside })

namespace Stretch.Refilled

variable (file : SourceFile)

theorem becomes {stretch refilled : Stretch} (fills : stretch.Refilled refilled) :
    stretch.Becomes Exchange.nothing file file refilled.tokens := by
  cases fills with
  | body admits =>
      exact .method (.refl file _) (.kept rfl (.refl file _)) (.refl file _) rfl (.inr admits) rfl
  | same =>
      cases stretch with
      | other tokens => exact .other (.refl file tokens)
      | method found =>
          exact .method (.refl file _) (.kept rfl (.refl file _)) (.refl file _) rfl (.inl rfl) rfl

theorem rewritten {stretches refilled : List Stretch}
    (fill : List.Forall₂ Refilled stretches refilled) :
    Rewritten Exchange.nothing file file stretches (Stretch.tokensOf refilled) := by
  induction fill with
  | nil => exact .nil
  | cons first _ ih => exact .cons (first.becomes file) ih

end Stretch.Refilled

/-- Whatever tokens stand inside of the bodies of methods, a file has the same outline.  Its
tokens are divided into the methods that are read and what stands between them, each method
into its parts, and any of the bodies may be replaced at once.  A file with a diagnostic has no
outline. -/
theorem SourceFile.outlineOf_refilled {file : SourceFile} {tokens : List Token} {unit : SourceUnit}
    (outlined : file.outlineOf tokens = .ok unit) :
    ∃ stretches, tokens = Stretch.tokensOf stretches ∧ Stretch.ArePlaced [] stretches ∧
      unit.methods = Stretch.methodsOf stretches ∧
      ∀ refilled, List.Forall₂ Stretch.Refilled stretches refilled →
        ∃ again, file.outlineOf (Stretch.tokensOf refilled) = .ok again ∧
          again.unplaced = unit.unplaced := by
  obtain ⟨stretches, passed, placed, found, carried⟩ :=
    outlineOf_rewritten Exchange.fits_nothing outlined
  exact ⟨stretches, passed, placed, found, fun refilled fill =>
    carried file _ rfl (Stretch.Refilled.rewritten file fill)⟩

/-- A method with a block and a method with an expression. -/
private def bodiesText : String :=
  "class Api \x7b int Load() \x7b return 1; \x7d int Twice(int x) => x + x; \x7d"

/-- Their bodies may be replaced. -/
theorem SourceFile.outlineOf_refilled_of_bodies :
    let file := SourceFile.ofText "Api.cs" bodiesText
    ∃ unit stretches, file.outlineOf (Token.tokens file) = .ok unit ∧
      unit.methods.map (fun method => (method.name, method.body)) =
        [("Load", .block), ("Twice", .expression)] ∧
      Token.tokens file = Stretch.tokensOf stretches ∧ Stretch.ArePlaced [] stretches ∧
      unit.methods = Stretch.methodsOf stretches ∧
      ∀ refilled, List.Forall₂ Stretch.Refilled stretches refilled →
        ∃ again, file.outlineOf (Stretch.tokensOf refilled) = .ok again ∧
          again.unplaced = unit.unplaced := by
  have seen : (SourceUnit.parse bodiesText "Api.cs").toOption.map
      (fun unit => unit.methods.map fun method => (method.name, method.body)) =
        some [("Load", .block), ("Twice", .expression)] := by decide +kernel
  obtain ⟨unit, isUnit, -, names⟩ := SourceUnit.exists_of_parse seen
  obtain ⟨stretches, rest⟩ := outlineOf_refilled isUnit
  exact ⟨unit, stretches, isUnit, names, rest⟩

end ErrorAccessors
