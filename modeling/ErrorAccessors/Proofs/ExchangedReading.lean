/-
# Reading with exchanged return types and bodies

The return types of some methods are exchanged in a text, bodies are replaced by others,
and everything else is kept.  What is read of the new text is what was read of the old
one, with these return types exchanged.

The tokens of the old text are divided into stretches: methods, and what stands
between them.  Where the methods stand is only known once they have been read, so a
reading comes with its stretches, and it is shown to be followed by the readers of
the new text.  These start in another context, with other places and other states of
the same view, and the stretches must not depend on it; therefore a whole family of
readers follows at once.
-/

import ErrorAccessors.Proofs.BodyTokens
import ErrorAccessors.Proofs.UnplacedOutline

namespace ErrorAccessors

open ErrorAccessors.Parser

/-- The tokens of a method part by part: attributes and modifiers, the return type, the name
with what belongs to it, the parameter list, the clauses behind it, what opens the body, what
is inside of it, and what ends it. -/
structure MethodTokens where
  before : List Token
  type : List Token
  names : List Token
  list : List Token
  clauses : List Token
  opening : Token
  body : List Token
  ending : List Token
  decl : MethodDecl

namespace MethodTokens

variable (found : MethodTokens)

/-- The tokens between the return type and the body. -/
def head : List Token := found.names ++ (found.list ++ found.clauses)

/-- The tokens behind the return type. -/
def tail : List Token := found.head ++ found.opening :: (found.body ++ found.ending)

/-- All tokens of a method. -/
def tokens : List Token := found.before ++ (found.type ++ found.tail)

/-- A method is where it says: its span reaches from the first token to the last one and
that of its return type over the tokens of the type, which stand behind an attribute list
or a word if there are attributes; its name stands behind its return type, and its body at
the end, in front of what comes next. -/
structure IsPlaced (next : Option TokenKind) : Prop where
  apart : found.decl.attributeLists ≠ [] → ∃ last, found.before.getLast? = some last ∧
    (last.kind = .mark .rightBracket ∨ last.kind.isIdent = true)
  spells : Spells (found.type.map (·.kind)) (.type found.decl.returnType.unplaced)
  typeSpan : ∀ first last, found.type.head? = some first → found.type.getLast? = some last →
    first.span.start.offset ≤ last.span.stop.offset →
      found.decl.returnType.span = first.span.merge last.span
  headed : HeadTokens found.decl.nameSpan found.names found.list found.clauses
  bodied : BodyTokens next found.decl.body found.opening found.body found.ending
  span : ∀ first last, found.tokens.head? = some first → found.tail.getLast? = some last →
    first.span.start.offset ≤ last.span.stop.offset → found.decl.span = first.span.merge last.span

end MethodTokens

/-- A stretch of the tokens of a file: a method, or what stands between methods. -/
inductive Stretch where
  | other (tokens : List Token)
  | method (found : MethodTokens)

namespace Stretch

/-- The tokens of a stretch. -/
def tokens : Stretch → List Token
  | other tokens => tokens
  | method found => found.tokens

/-- The tokens of some stretches. -/
def tokensOf (stretches : List Stretch) : List Token := stretches.flatMap tokens

/-- The method that a stretch is. -/
def method? : Stretch → Option MethodDecl
  | other _ => none
  | method found => some found.decl

/-- The methods among some stretches. -/
def methodsOf (stretches : List Stretch) : List MethodDecl := stretches.filterMap method?

@[simp] theorem tokensOf_nil : tokensOf [] = [] := rfl

@[simp] theorem tokensOf_cons (stretch : Stretch) (stretches : List Stretch) :
    tokensOf (stretch :: stretches) = stretch.tokens ++ tokensOf stretches := rfl

@[simp] theorem tokensOf_append (first second : List Stretch) :
    tokensOf (first ++ second) = tokensOf first ++ tokensOf second :=
  List.flatMap_append

@[simp] theorem methodsOf_append (first second : List Stretch) :
    methodsOf (first ++ second) = methodsOf first ++ methodsOf second :=
  List.filterMap_append

/-- In front of other tokens methods are where they say. -/
inductive ArePlaced (rest : List Token) : List Stretch → Prop
  | nil : ArePlaced rest []
  | other {tokens : List Token} {stretches : List Stretch} (behind : ArePlaced rest stretches) :
      ArePlaced rest (.other tokens :: stretches)
  | method {found : MethodTokens} {stretches : List Stretch}
      (isPlaced : found.IsPlaced ((tokensOf stretches ++ rest).head?.map (·.kind)))
      (behind : ArePlaced rest stretches) : ArePlaced rest (.method found :: stretches)

theorem ArePlaced.append {first second : List Stretch} {rest : List Token}
    (here : ArePlaced (tokensOf second ++ rest) first) (there : ArePlaced rest second) :
    ArePlaced rest (first ++ second) := by
  induction here with
  | nil => exact there
  | other _ ih => exact .other ih
  | @method found stretches isPlaced _ ih =>
      refine .method ?_ ih
      show found.IsPlaced ((tokensOf (stretches ++ second) ++ rest).head?.map (·.kind))
      rwa [tokensOf_append, List.append_assoc]

theorem arePlaced_other (tokens rest : List Token) : ArePlaced rest [.other tokens] :=
  .other .nil

end Stretch

/-- Some tokens are what the return type of a method becomes when return types are
exchanged. -/
inductive MethodTokens.TypeBecomes (exchange : Exchange) (file other : SourceFile)
    (found : MethodTokens) (written : List Token) : Prop
  | kept (keeps : exchange found.decl = none) (alike : Token.Alike file found.type other written)
  | given {type : TypeExpr} (gives : exchange found.decl = some type)
      (spells : Spells (written.map (·.kind)) (.type type.unplaced))

/-- Some tokens are what a stretch becomes when return types are exchanged and bodies are
replaced. -/
inductive Stretch.Becomes (exchange : Exchange) (file other : SourceFile) :
    Stretch → List Token → Prop
  | other {tokens copies : List Token} (alike : Token.Alike file tokens other copies) :
      Becomes exchange file other (.other tokens) copies
  | method {found : MethodTokens} {copies written start filling closing : List Token} {copy : Token}
      (alikeBefore : Token.Alike file found.before other copies)
      (typed : found.TypeBecomes exchange file other written)
      (alikeHead : Token.Alike file found.head other start)
      (opens : copy.kind = found.opening.kind)
      (fills : filling.map (·.kind) = found.body.map (·.kind) ∨
        found.decl.body.Admits (filling.map (·.kind)))
      (closes : closing.map (·.kind) = found.ending.map (·.kind)) :
      Becomes exchange file other (.method found)
        (copies ++ (written ++ (start ++ copy :: (filling ++ closing))))

/-- The tokens of a text in which return types have been exchanged and bodies replaced. -/
inductive Rewritten (exchange : Exchange) (file other : SourceFile) :
    List Stretch → List Token → Prop
  | nil : Rewritten exchange file other [] []
  | cons {stretch : Stretch} {copies more : List Token} {stretches : List Stretch}
      (first : stretch.Becomes exchange file other copies)
      (rest : Rewritten exchange file other stretches more) :
      Rewritten exchange file other (stretch :: stretches) (copies ++ more)

namespace Rewritten

variable {exchange : Exchange} {file other : SourceFile} {copies : List Token}

/-- Stretches are rewritten one behind the other. -/
theorem of_append {first second : List Stretch}
    (rewritten : Rewritten exchange file other (first ++ second) copies) :
    ∃ copiesFirst copiesSecond, copies = copiesFirst ++ copiesSecond ∧
      Rewritten exchange file other first copiesFirst ∧
      Rewritten exchange file other second copiesSecond := by
  induction first generalizing copies with
  | nil => exact ⟨[], copies, rfl, .nil, rewritten⟩
  | cons stretch stretches ih =>
      rw [List.cons_append] at rewritten
      cases rewritten with
      | cons here rest =>
          obtain ⟨copiesFirst, copiesSecond, rfl, front, behind⟩ := ih rest
          exact ⟨_, copiesSecond, (List.append_assoc ..).symm, .cons here front, behind⟩

theorem of_other {tokens : List Token}
    (rewritten : Rewritten exchange file other [.other tokens] copies) :
    Token.Alike file tokens other copies := by
  cases rewritten with
  | cons here rest =>
      cases rest
      cases here with
      | other alike => rwa [List.append_nil]

theorem of_method {found : MethodTokens}
    (rewritten : Rewritten exchange file other [.method found] copies) :
    Stretch.Becomes exchange file other (.method found) copies := by
  cases rewritten with
  | cons here rest =>
      cases rest
      rwa [List.append_nil]

/-- Nothing is rewritten as nothing, and something as something. -/
theorem eq_nil_iff {stretches : List Stretch}
    (rewritten : Rewritten exchange file other stretches copies) :
    copies = [] ↔ Stretch.tokensOf stretches = [] := by
  induction rewritten with
  | nil => exact Iff.rfl
  | cons first rest ih =>
      rw [List.append_eq_nil_iff, Stretch.tokensOf_cons, List.append_eq_nil_iff, ih]
      refine and_congr ?_ Iff.rfl
      cases first with
      | other alike =>
          rw [← List.length_eq_zero_iff, alike.length_eq, List.length_eq_zero_iff]
          rfl
      | method => simp [Stretch.tokens, MethodTokens.tokens, MethodTokens.tail]

end Rewritten

/-- What is regarded of a value that is read: its view, the view of what it
becomes when return types are exchanged, and the methods in it. -/
structure Regard (α β : Type) where
  view : α → β
  after : α → β
  found : α → List MethodDecl

/-- What is kept becomes what it was, and holds no methods beyond those found
before. -/
def Regard.same {α β : Type} (view : α → β) (before : List MethodDecl) : Regard α β :=
  ⟨view, view, fun _ => before⟩

/-- What is regarded of the outcome of a round. -/
def Regard.ofRound {σ β : Type} (regard : Regard σ β) : Regard (ForInStep σ) (ForInStep β) :=
  ⟨Parser.stepView regard.view, Parser.stepView regard.after,
    fun outcome => regard.found outcome.value⟩

namespace Parser

/-- The context behind a reader: the one in front of it and the value that has been
read, of which the view is known. -/
structure Continued (ι : Type) {α β : Type} (view : α → β) (result : β) where
  context : ι
  value : α
  same : view value = result

variable {α β γ σ τ ι : Type}

/-- In front of rewritten stretches comes what came in front of the stretches, if
the same comes behind them. -/
def Leads (exchange : Exchange) (file : SourceFile) (cursor later : Cursor)
    (stretches : List Stretch) : Prop :=
  ∀ (other : SourceFile) (previous : Option Token) (copies rest : List Token)
    (recorded : List Diagnostic), Rewritten exchange file other stretches copies →
    later.SameNext ⟨Token.lastOf previous copies, rest, recorded⟩ →
      cursor.SameNext ⟨previous, copies ++ rest, recorded⟩

/-- Rewritten stretches are read by all of some readers, with the same view of the
result, in front of the same. -/
def Carried (exchange : Exchange) (bound : ι → Nat) (again : ι → Parser α) (view : α → β)
    (result : β) (file : SourceFile) (later : Cursor) (stretches : List Stretch) : Prop :=
  ∀ (context : ι) (other : SourceFile) (previous : Option Token) (copies rest : List Token)
    (recorded : List Diagnostic), Rewritten exchange file other stretches copies →
    (copies ++ rest).length < bound context →
    later.SameNext ⟨Token.lastOf previous copies, rest, recorded⟩ →
      ∃ value, view value = result ∧
        again context other ⟨previous, copies ++ rest, recorded⟩ =
          .ok value ⟨Token.lastOf previous copies, rest, recorded⟩

/-- Whatever the first parser reads without a diagnostic is read by all of the
others once return types have been exchanged.  Each of them follows as long as fewer
tokens than its bound are left, and only values of a kind need be followed. -/
structure Follows (exchange : Exchange) (bound : ι → Nat) (ofKind : α → Prop) (parser : Parser α)
    (again : ι → Parser α) (before : List MethodDecl) (regard : Regard α β) : Prop where
  forward : Forward parser
  carried : ∀ (file : SourceFile) (cursor later : Cursor) (value : α),
    parser file cursor = .ok value later → later.recorded = cursor.recorded → ofKind value →
      ∃ stretches, cursor.remaining = Stretch.tokensOf stretches ++ later.remaining ∧
        Stretch.ArePlaced later.remaining stretches ∧
        regard.found value = before ++ Stretch.methodsOf stretches ∧
        Leads exchange file cursor later stretches ∧
        Carried exchange bound again regard.view (regard.after value) file later stretches

/-- Any value. -/
abbrev anyValue (_ : α) : Prop := True

variable {exchange : Exchange} {bound : ι → Nat} {ofKind : α → Prop} {parser : Parser α}
  {again : ι → Parser α} {before : List MethodDecl} {regard : Regard α β}

section Basics

theorem leads_other {file : SourceFile} {cursor later : Cursor} {tokens : List Token}
    (passed : cursor.remaining = tokens ++ later.remaining) :
    Leads exchange file cursor later [.other tokens] :=
  fun _ _ _ _ _ rewritten inFront => rewritten.of_other.sameNext inFront passed rfl

theorem Leads.append {file : SourceFile} {cursor middle later : Cursor}
    {first second : List Stretch} (front : Leads exchange file cursor middle first)
    (rear : Leads exchange file middle later second) :
    Leads exchange file cursor later (first ++ second) := by
  intro other previous copies rest recorded rewritten inFront
  obtain ⟨copiesFront, copiesRear, rfl, rewrittenFront, rewrittenRear⟩ := rewritten.of_append
  rw [Token.lastOf_append] at inFront
  rw [List.append_assoc]
  exact front other previous copiesFront _ recorded rewrittenFront
    (rear other _ copiesRear rest recorded rewrittenRear inFront)

/-- What is read again is followed. -/
theorem follows_of_repeats {view : α → β} (forward : Forward parser)
    (repeats : ∀ context, Repeats parser (again context) view) :
    Follows exchange bound ofKind parser again before (.same view before) := by
  refine ⟨forward, fun file cursor later value run silent _ => ?_⟩
  have passed : ∃ tokens, cursor.remaining = tokens ++ later.remaining := by
    obtain ⟨tokens, passed, -⟩ := (forward.of_ok run).passed
    exact ⟨tokens, passed⟩
  obtain ⟨tokens, passed⟩ := passed
  refine ⟨[.other tokens], by simpa [Stretch.tokens] using passed, Stretch.arePlaced_other tokens _,
    by simp [Regard.same, Stretch.methodsOf, Stretch.method?], leads_other passed, ?_⟩
  intro context other previous copies rest recorded rewritten _ inFront
  obtain ⟨again, passedAgain, rereads⟩ :=
    (repeats context).rereads file cursor later value run silent trivial
  obtain rfl : again = tokens := List.append_cancel_right (passedAgain.symm.trans passed)
  exact rereads other previous copies rest recorded rewritten.of_other inFront

/-- A parser that is followed is followed by some of the readers, as far as some less
tight bounds say. -/
theorem Follows.mono {κ : Type} {less : κ → Nat} {fewer : α → Prop} {selected : κ → Parser α}
    (follows : Follows exchange bound ofKind parser again before regard)
    (implies : ∀ value, fewer value → ofKind value)
    (select : ∀ context, 0 < less context →
      ∃ among, selected context = again among ∧ less context ≤ bound among) :
    Follows exchange less fewer parser selected before regard := by
  refine ⟨follows.forward, fun file cursor later value run silent isKind => ?_⟩
  obtain ⟨stretches, passed, placed, found, leads, carried⟩ :=
    follows.carried file cursor later value run silent (implies value isKind)
  refine ⟨stretches, passed, placed, found, leads, fun context other previous copies rest recorded
    rewritten within inFront => ?_⟩
  obtain ⟨among, isAgain, fits⟩ := select context (Nat.zero_lt_of_lt within)
  rw [isAgain]
  exact carried among other previous copies rest recorded rewritten (Nat.lt_of_lt_of_le within fits)
    inFront

/-- A value without effect is followed by others of the same view. -/
theorem follows_pure {value : α} {again : ι → α}
    (same : ofKind value → ∀ context, regard.view (again context) = regard.after value)
    (found : ofKind value → regard.found value = before) :
    Follows exchange bound ofKind (pure value) (fun context => pure (again context)) before
      regard := by
  refine ⟨forward_pure value, fun file cursor later result run _ isKind => ?_⟩
  cases run
  refine ⟨[], rfl, .nil, by simpa [Stretch.methodsOf] using found isKind, ?_, ?_⟩
  · intro other previous copies rest recorded rewritten inFront
    cases rewritten
    exact inFront.of_remaining rfl rfl
  · intro context other previous copies rest recorded rewritten _ inFront
    cases rewritten
    exact ⟨again context, same isKind context, rfl⟩

/-- A parser that fails is followed by anything. -/
theorem follows_failExpecting (expected : String) :
    Follows exchange bound ofKind (failExpecting expected) again before regard := by
  refine ⟨forward_failExpecting expected, fun file cursor later value run => ?_⟩
  rw [failExpecting_apply] at run
  cases run

theorem Follows.ite {condition : Prop} [Decidable condition] {other : Parser α}
    {otherAgain : ι → Parser α}
    (holds : condition → Follows exchange bound ofKind parser again before regard)
    (fails : ¬condition → Follows exchange bound ofKind other otherAgain before regard) :
    Follows exchange bound ofKind (if condition then parser else other)
      (fun context => if condition then again context else otherAgain context) before regard := by
  by_cases isTrue : condition
  · simp only [if_pos isTrue]
    exact holds isTrue
  · simp only [if_neg isTrue]
    exact fails isTrue

end Basics

section Sequences

variable {next : α → Parser γ} {nextAgain : ι → α → Parser γ} {ofSort : γ → Prop}
  {ending : Regard γ τ}

/-- The parts of a sequence that is read without a diagnostic. -/
private theorem parts_of_bind {file : SourceFile} {cursor later : Cursor} {final : γ}
    (forward : Forward parser) (forwardNext : ∀ value, Forward (next value))
    (run : (parser >>= next) file cursor = .ok final later)
    (silent : later.recorded = cursor.recorded) :
    ∃ value middle, parser file cursor = .ok value middle ∧
      next value file middle = .ok final later ∧ middle.recorded = cursor.recorded ∧
      later.recorded = middle.recorded := by
  rw [bind_apply] at run
  cases first : parser file cursor with
  | error diagnostic middle => simp [first] at run
  | ok value middle =>
      simp only [first] at run
      obtain ⟨silentFirst, silentRest⟩ :=
        (forward.of_ok first).recorded_eq ((forwardNext value).of_ok run) silent
      exact ⟨value, middle, rfl, run, silentFirst, silentRest⟩

/-- A sequence is followed if its parts are.  If the first part always uses up a
token, the second one need not follow as far. -/
theorem Follows.bind_within {less : ι → Nat}
    (first : Follows exchange bound anyValue parser again before regard)
    (second : ∀ value, Follows exchange
        (fun context : Continued ι regard.view (regard.after value) => less context.context)
        ofSort (next value)
      (fun context : Continued ι regard.view (regard.after value) =>
        nextAgain context.context context.value) (regard.found value) ending)
    (fits : (∀ context, bound context ≤ less context) ∨
      Uses parser ∧ ∀ context, bound context ≤ less context + 1) :
    Follows exchange bound ofSort (parser >>= next)
      (fun context => again context >>= nextAgain context) before ending := by
  have forwardNext (value : α) : Forward (next value) := (second value).forward
  refine ⟨first.forward.bind forwardNext, fun file cursor later final run silent isSort => ?_⟩
  obtain ⟨value, middle, runFirst, runNext, silentFirst, silentNext⟩ :=
    parts_of_bind first.forward forwardNext run silent
  obtain ⟨front, passed, placed, found, leads, carried⟩ :=
    first.carried file cursor middle value runFirst silentFirst trivial
  obtain ⟨rear, passedNext, placedNext, foundNext, leadsNext, carriedNext⟩ :=
    (second value).carried file middle later final runNext silentNext isSort
  refine ⟨front ++ rear, ?_, (passedNext ▸ placed).append placedNext, ?_,
    leads.append leadsNext, ?_⟩
  · rw [passed, passedNext, Stretch.tokensOf_append, List.append_assoc]
  · rw [foundNext, found, Stretch.methodsOf_append, List.append_assoc]
  intro context other previous copies rest recorded rewritten within inFront
  obtain ⟨copiesFront, copiesRear, rfl, rewrittenFront, rewrittenRear⟩ := rewritten.of_append
  rw [Token.lastOf_append] at inFront ⊢
  rw [List.append_assoc] at within ⊢
  have withinRear : (copiesRear ++ rest).length < less context := by
    rw [List.length_append] at within
    rcases fits with fits | ⟨uses, fits⟩
    · have := fits context
      omega
    · have := fits context
      have used := uses file cursor middle value runFirst
      have some : copiesFront ≠ [] := by
        rw [Ne, rewrittenFront.eq_nil_iff]
        intro nothing
        rw [passed, nothing, List.nil_append] at used
        exact Nat.lt_irrefl _ used
      have := List.length_pos_iff.mpr some
      omega
  obtain ⟨value', view, runAgain⟩ := carried context other previous copiesFront
    (copiesRear ++ rest) recorded rewrittenFront within
    (leadsNext other _ copiesRear rest recorded rewrittenRear inFront)
  obtain ⟨final', viewFinal, runRear⟩ := carriedNext ⟨context, value', view⟩ other
    (Token.lastOf previous copiesFront) copiesRear rest recorded rewrittenRear withinRear inFront
  refine ⟨final', viewFinal, ?_⟩
  show (again context >>= nextAgain context) other _ = _
  rw [bind_apply, runAgain]
  exact runRear

/-- A sequence is followed if its parts are. -/
theorem Follows.bind (first : Follows exchange bound anyValue parser again before regard)
    (second : ∀ value, Follows exchange
        (fun context : Continued ι regard.view (regard.after value) => bound context.context)
        ofSort (next value)
      (fun context : Continued ι regard.view (regard.after value) =>
        nextAgain context.context context.value) (regard.found value) ending) :
    Follows exchange bound ofSort (parser >>= next)
      (fun context => again context >>= nextAgain context) before ending :=
  first.bind_within second (.inl fun context => Nat.le_refl (bound context))

/-- What comes behind something that is kept. -/
theorem Follows.behind {view : α → β} (forward : Forward parser)
    (repeats : ∀ context, Repeats parser (again context) view)
    (second : ∀ value, Follows exchange
        (fun context : Continued ι view (view value) => bound context.context)
        ofSort (next value)
      (fun context : Continued ι view (view value) => nextAgain context.context context.value)
      before ending) :
    Follows exchange bound ofSort (parser >>= next)
      (fun context => again context >>= nextAgain context) before ending :=
  (follows_of_repeats forward repeats).bind second

/-- What comes behind something that is kept and is itself the same. -/
theorem Follows.behind_same {parser : Parser α} (repeats : Repeats parser parser id)
    (second : ∀ value, Follows exchange bound ofSort (next value)
      (fun context => nextAgain context value) before ending) :
    Follows exchange bound ofSort (parser >>= next)
      (fun context => parser >>= nextAgain context) before ending := by
  refine .behind repeats.forward (fun _ => repeats) fun value => ?_
  refine (second value).mono (fun _ => id) fun context _ => ⟨context.context, ?_, Nat.le_refl _⟩
  obtain ⟨context, again, same⟩ := context
  exact congrArg (nextAgain context) same

end Sequences

section Found

/-- What has been found before does not matter. -/
theorem Follows.behind_found (follows : Follows exchange bound ofKind parser again [] regard)
    (before : List MethodDecl) :
    Follows exchange bound ofKind parser again before
      { regard with found := fun value => before ++ regard.found value } := by
  refine ⟨follows.forward, fun file cursor later value run silent isKind => ?_⟩
  obtain ⟨stretches, passed, placed, found, leads, carried⟩ :=
    follows.carried file cursor later value run silent isKind
  refine ⟨stretches, passed, placed, ?_, leads, carried⟩
  show before ++ regard.found value = _
  rw [found, List.nil_append]

end Found

section Loops

variable {step : σ → Parser (ForInStep σ)} {stepAgain : ι → σ → Parser (ForInStep σ)}
  {state : σ} {started : ι → σ}

/-- A loop is followed if its rounds are. -/
theorem follows_loop {regard : Regard σ β} (progress : Progresses step)
    (progressAgain : ∀ context, Progresses (stepAgain context))
    (rounds : ∀ state, Follows exchange
        (fun context : Continued ι regard.view (regard.after state) => bound context.context)
        anyValue (step state)
      (fun context : Continued ι regard.view (regard.after state) =>
        stepAgain context.context context.value) (regard.found state) regard.ofRound)
    (same : ∀ context, regard.view (started context) = regard.after state) :
    Follows exchange bound anyValue (loop state step)
      (fun context => loop (started context) (stepAgain context)) (regard.found state) regard := by
  have forward (state : σ) : Forward (step state) := (rounds state).forward
  refine ⟨forward_loop forward state, fun file cursor later result run silent _ => ?_⟩
  have several (state : σ) (cursor : Cursor) (run : loop state step file cursor = .ok result later)
      (silent : later.recorded = cursor.recorded) :
      ∃ stretches, cursor.remaining = Stretch.tokensOf stretches ++ later.remaining ∧
        Stretch.ArePlaced later.remaining stretches ∧
        regard.found result = regard.found state ++ Stretch.methodsOf stretches ∧
        Leads exchange file cursor later stretches ∧
        Carried exchange (fun context => bound context.context)
          (fun context : Continued ι regard.view (regard.after state) =>
            loop context.value (stepAgain context.context))
          regard.view (regard.after result) file later stretches := by
    induction length : cursor.remaining.length using Nat.strongRecOn generalizing state cursor with
    | ind size ih =>
    cases round : step state file cursor with
    | error diagnostic reached =>
        rw [loop_of_error file progress round] at run
        cases run
    | ok outcome reached =>
    cases outcome with
    | done value =>
        rw [loop_of_done file progress round] at run
        cases run
        obtain ⟨stretches, passed, placed, found, leads, carried⟩ :=
          (rounds state).carried file cursor later _ round silent trivial
        refine ⟨stretches, passed, placed, found, leads, ?_⟩
        intro context other previous copies rest recorded rewritten within inFront
        obtain ⟨outcome, agrees, again⟩ :=
          carried context other previous copies rest recorded rewritten within inFront
        cases outcome with
        | yield next => cases agrees
        | done value =>
            exact ⟨value, ForInStep.done.inj agrees,
              loop_of_done other (progressAgain context.context) again⟩
    | yield next =>
        rw [loop_of_yield file progress round] at run
        obtain ⟨silentRound, silentRest⟩ := ((forward state).of_ok round).recorded_eq
          ((forward_loop forward next).of_ok run) silent
        have less := progress file state next cursor reached round
        obtain ⟨front, passed, placed, found, leads, carried⟩ :=
          (rounds state).carried file cursor reached _ round silentRound trivial
        obtain ⟨rear, passedRest, placedRest, foundRest, leadsRest, carriedRest⟩ :=
          ih reached.remaining.length (by omega) next reached run silentRest rfl
        refine ⟨front ++ rear, ?_, (passedRest ▸ placed).append placedRest, ?_,
          leads.append leadsRest, ?_⟩
        · rw [passed, passedRest, Stretch.tokensOf_append, List.append_assoc]
        · have found : regard.found next = _ := found
          rw [foundRest, found, Stretch.methodsOf_append, List.append_assoc]
        intro context other previous copies rest recorded rewritten within inFront
        obtain ⟨copiesFront, copiesRear, rfl, rewrittenFront, rewrittenRear⟩ :=
          rewritten.of_append
        rw [Token.lastOf_append] at inFront ⊢
        rw [List.append_assoc] at within ⊢
        obtain ⟨outcome, agrees, again⟩ := carried context other previous copiesFront
          (copiesRear ++ rest) recorded rewrittenFront within
          (leadsRest other _ copiesRear rest recorded rewrittenRear inFront)
        cases outcome with
        | done value => cases agrees
        | yield value =>
            have withinRest : (copiesRear ++ rest).length < bound context.context := by
              rw [List.length_append] at within
              exact Nat.lt_of_le_of_lt (Nat.le_add_left _ _) within
            obtain ⟨final, agreesFinal, behind⟩ :=
              carriedRest ⟨context.context, value, ForInStep.yield.inj agrees⟩ other
                (Token.lastOf previous copiesFront) copiesRear rest recorded rewrittenRear
                  withinRest
                inFront
            refine ⟨final, agreesFinal, ?_⟩
            show loop context.value (stepAgain context.context) other _ = _
            rw [loop_of_yield other (progressAgain context.context) again]
            exact behind
  obtain ⟨stretches, passed, placed, found, leads, carried⟩ := several state cursor run silent
  exact ⟨stretches, passed, placed, found, leads, fun context =>
    carried ⟨context, started context, same context⟩⟩

end Loops

end Parser

end ErrorAccessors
