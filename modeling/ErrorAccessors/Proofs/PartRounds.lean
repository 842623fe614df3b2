/-
# Every loop within a reader moves on

A round that goes on ends with fewer tokens than it begins with.  That is so for the loops
over type arguments, parts of names, tuple elements, suffixes and dimensions, for those over
attributes, modifiers and type parameters, and for those that skip what is not read.  So
none of them is broken off, and neither is the nesting of types, whatever the tokens are.

What holds of the rounds is carried by the readers: where a reader goes forward, the rounds
of what is read behind it belong to the whole.  Only type arguments and methods that cannot
be read are gone back over, and what is read again starts where the whole starts.
-/

import ErrorAccessors.Proofs.LaidDeclarations
import ErrorAccessors.Proofs.ProperOutline
import ErrorAccessors.Proofs.TracedReading

namespace ErrorAccessors.Parser

/-- A round within a reading that starts at a cursor. -/
structure Round.IsSound (round : Round) (here : Cursor) : Prop where
  starts : here.Reaches round.start
  stops : round.start.Reaches round.stop
  allowed : round.ending ≠ .breaksOff
  moves : round.ending = .goesOn → round.stop.remaining.length < round.start.remaining.length

/-- A round of a later part of a reading belongs to the reading. -/
theorem Round.IsSound.of_reaches {round : Round} {here later : Cursor} (sound : round.IsSound later)
    (reached : here.Reaches later) : round.IsSound here :=
  ⟨reached.trans sound.starts, sound.stops, sound.allowed, sound.moves⟩

/-- A parser that goes forward stops further on, also if it fails. -/
theorem Forward.reaches_stopOf {α : Type} {parser : Parser α} (forward : Forward parser)
    (file : SourceFile) (here : Cursor) : here.Reaches (stopOf (parser file here)) := by
  cases run : parser file here with
  | ok value later => exact forward.of_ok run
  | error diagnostic later => exact (forward.of_error run).1

namespace Traced

/-- The rounds of a reading are sound and of some kinds. -/
def SoundAt {α : Type} (kinds : Set LoopKind) (traced : Traced α) (file : SourceFile)
    (here : Cursor) : Prop :=
  ∀ round ∈ traced.rounds file here, round.IsSound here ∧ round.kind ∈ kinds

section Rounds

variable {α β σ : Type} {kinds : Set LoopKind} {file : SourceFile} {here : Cursor}

theorem soundAt_of_none {traced : Traced α} (none : traced.rounds file here = []) :
    SoundAt kinds traced file here := by
  intro round member
  rw [none] at member
  cases member

theorem SoundAt.mono {traced : Traced α} {more : Set LoopKind}
    (sound : SoundAt kinds traced file here) (within : kinds ⊆ more) :
    SoundAt more traced file here :=
  fun round member => (sound round member).imp_right fun isKind => within isKind

/-- What is sound from further on is sound. -/
theorem SoundAt.of_reaches {traced : Traced α} {later : Cursor}
    (sound : SoundAt kinds traced file later) (reached : here.Reaches later) :
    ∀ round ∈ traced.rounds file later, round.IsSound here ∧ round.kind ∈ kinds :=
  fun round member => (sound round member).imp_left (·.of_reaches reached)

/-- What is read behind a reader may start where the whole starts. -/
theorem SoundAt.bind_of {first : Traced α} {next : α → Traced β}
    (sound : SoundAt kinds first file here)
    (behind : ∀ value later, first.parser file here = .ok value later →
      ∀ round ∈ (next value).rounds file later, round.IsSound here ∧ round.kind ∈ kinds) :
    SoundAt kinds (first >>= next) file here := by
  intro round member
  rw [rounds_bind] at member
  rcases List.mem_append.mp member with within | further
  · exact sound round within
  · cases run : first.parser file here with
    | error diagnostic later =>
        simp only [run] at further
        cases further
    | ok value later =>
        simp only [run] at further
        exact behind value later run round further

theorem SoundAt.bind {first : Traced α} {next : α → Traced β} (forward : Forward first.parser)
    (sound : SoundAt kinds first file here)
    (behind : ∀ value later, first.parser file here = .ok value later →
      SoundAt kinds (next value) file later) :
    SoundAt kinds (first >>= next) file here :=
  sound.bind_of fun value later run => (behind value later run).of_reaches (forward.of_ok run)

/-- Behind a parser without rounds. -/
theorem SoundAt.behind {parser : Parser α} {next : α → Traced β} (forward : Forward parser)
    (sound : ∀ value later, parser file here = .ok value later →
      SoundAt kinds (next value) file later) :
    SoundAt kinds (liftM parser >>= next) file here :=
  .bind forward (soundAt_of_none rfl) sound

/-- Behind a look. -/
theorem SoundAt.behind_look {parser : Parser α} {next : α → Traced β}
    {value : SourceFile → Cursor → α}
    (look : ∀ file cursor, parser file cursor = .ok (value file cursor) cursor)
    (sound : SoundAt kinds (next (value file here)) file here) :
    SoundAt kinds (liftM parser >>= next) file here := by
  refine .behind (.of_look value look) fun seen later run => ?_
  cases (look file here).symm.trans run
  exact sound

/-- Behind a look at the cursor. -/
theorem SoundAt.behind_get {next : Cursor → Traced β}
    (sound : SoundAt kinds (next here) file here) : SoundAt kinds (get >>= next) file here := by
  refine .bind (.of_look _ get_apply) (soundAt_of_none rfl) ?_
  rintro value later ⟨⟩
  exact sound

end Rounds

section Loops

variable {σ : Type} {step : σ → Traced (ForInStep σ)} {file : SourceFile} {here : Cursor}
  {state : σ}

/-- A round that goes on is followed by the rounds of the rest of the loop. -/
theorem loopWithin_of_yield (kind : LoopKind) (rounds : Nat) {next : σ} {later : Cursor}
    (run : (step state).parser file here = .ok (.yield next) later) :
    (loopWithin kind step (rounds + 1) state).rounds file here =
        ⟨kind, here, later, .goesOn⟩ :: ((step state).rounds file here ++
          (loopWithin kind step rounds next).rounds file later) ∧
      (loopWithin kind step (rounds + 1) state).parser file here =
        (loopWithin kind step rounds next).parser file later := by
  constructor
  · rw [loopWithin, rounds_bind]
    simp only [round, run, stopOf_ok, List.cons_append]
  · rw [parser_loopWithin, Parser.loopWithin, bind_apply, run, parser_loopWithin]

/-- Any other round is the last one. -/
theorem loopWithin_of_leave (kind : LoopKind) (rounds : Nat)
    (leaves : ∀ next later, (step state).parser file here ≠ .ok (.yield next) later) :
    (loopWithin kind step (rounds + 1) state).rounds file here =
        ⟨kind, here, stopOf ((step state).parser file here), .leaves⟩ ::
          (step state).rounds file here ∧
      stopOf ((loopWithin kind step (rounds + 1) state).parser file here) =
        stopOf ((step state).parser file here) := by
  constructor
  · rw [loopWithin, rounds_bind]
    cases run : (step state).parser file here with
    | error diagnostic later => simp only [round, run, List.append_nil]
    | ok outcome later =>
        cases outcome with
        | done result =>
            simp only [round, run]
            exact List.append_nil _
        | yield next => exact absurd run (leaves next later)
  · rw [parser_loopWithin, Parser.loopWithin, bind_apply]
    cases run : (step state).parser file here with
    | error diagnostic later => rfl
    | ok outcome later =>
        cases outcome with
        | done result => rfl
        | yield next => exact absurd run (leaves next later)

variable {kind : LoopKind} {kinds : Set LoopKind} {bound : Nat}

/-- A loop whose rounds move on is never broken off, since it is allowed more rounds than
there are tokens. -/
theorem soundAt_loopWithin (isKind : kind ∈ kinds) (forward : ∀ state, Forward (step state).parser)
    (progress : Progresses fun state => (step state).parser)
    (sound : ∀ state file here, here.remaining.length < bound →
      SoundAt kinds (step state) file here)
    {rounds : Nat} (enough : here.remaining.length < rounds) (below : here.remaining.length < bound)
    (state : σ) : SoundAt kinds (loopWithin kind step rounds state) file here := by
  induction rounds generalizing here state with
  | zero => exact absurd enough (Nat.not_lt_zero _)
  | succ rounds ih =>
      have within := sound state file here below
      have reached := (forward state).reaches_stopOf file here
      unfold SoundAt
      by_cases goesOn : ∃ next later, (step state).parser file here = .ok (.yield next) later
      · obtain ⟨next, later, run⟩ := goesOn
        have moves := progress file state next here later run
        have rest := @ih later (by omega) (by omega) next
        rw [run] at reached
        rw [(loopWithin_of_yield kind rounds run).1]
        refine List.forall_mem_cons.mpr ⟨⟨⟨.refl here, reached, nofun, fun _ => moves⟩, isKind⟩, ?_⟩
        exact List.forall_mem_append.mpr ⟨within, rest.of_reaches reached⟩
      · have leaves (next : σ) (later : Cursor) :
            (step state).parser file here ≠ .ok (.yield next) later :=
          fun run => goesOn ⟨next, later, run⟩
        rw [(loopWithin_of_leave kind rounds leaves).1]
        exact List.forall_mem_cons.mpr ⟨⟨⟨.refl here, reached, nofun, nofun⟩, isKind⟩, within⟩

theorem soundAt_loop (isKind : kind ∈ kinds) (forward : ∀ state, Forward (step state).parser)
    (progress : Progresses fun state => (step state).parser)
    (sound : ∀ state file here, here.remaining.length < bound →
      SoundAt kinds (step state) file here)
    (below : here.remaining.length < bound) (state : σ) :
    SoundAt kinds (loop kind state step) file here :=
  .behind_get (soundAt_loopWithin isKind forward progress sound (Nat.lt_succ_self _) below state)

end Loops

/-- A traced parser goes forward, and wherever there are fewer tokens than a bound, it goes
through no rounds but sound ones of parts. -/
structure Quiet {α : Type} (bound : Nat) (traced : Traced α) : Prop where
  forward : Forward traced.parser
  sound : ∀ file here, here.remaining.length < bound → SoundAt {.ofParts} traced file here

section Rules

variable {α β σ : Type} {bound : Nat}

theorem Quiet.of_forward {parser : Parser α} (forward : Forward parser) :
    Quiet bound (liftM parser) :=
  ⟨forward, fun _ _ _ => soundAt_of_none rfl⟩

theorem Quiet.of_look {parser : Parser α} {value : SourceFile → Cursor → α}
    (look : ∀ file cursor, parser file cursor = .ok (value file cursor) cursor) :
    Quiet bound (liftM parser) :=
  .of_forward (.of_look value look)

theorem quiet_pure (value : α) : Quiet bound (pure value) :=
  ⟨forward_pure value, fun _ _ _ => soundAt_of_none rfl⟩

theorem quiet_get : Quiet bound get :=
  ⟨.of_look _ get_apply, fun _ _ _ => soundAt_of_none rfl⟩

theorem quiet_read : Quiet bound read :=
  ⟨.of_look _ read_apply, fun _ _ _ => soundAt_of_none rfl⟩

theorem Quiet.bind {first : Traced α} {next : α → Traced β} (quiet : Quiet bound first)
    (behind : ∀ value, Quiet bound (next value)) : Quiet bound (first >>= next) where
  forward := quiet.forward.bind fun value => (behind value).forward
  sound file here below := by
    refine .bind quiet.forward (quiet.sound file here below) fun value later run => ?_
    have fewer := (quiet.forward.of_ok run).length_le
    exact (behind value).sound file later (Nat.lt_of_le_of_lt fewer below)

/-- Behind a parser without rounds. -/
theorem Quiet.behind {parser : Parser α} {next : α → Traced β} (forward : Forward parser)
    (quiet : ∀ value, Quiet bound (next value)) : Quiet bound (liftM parser >>= next) :=
  (Quiet.of_forward forward).bind quiet

/-- Behind a look. -/
theorem Quiet.behind_look {parser : Parser α} {next : α → Traced β}
    {value : SourceFile → Cursor → α}
    (look : ∀ file cursor, parser file cursor = .ok (value file cursor) cursor)
    (quiet : ∀ value, Quiet bound (next value)) : Quiet bound (liftM parser >>= next) :=
  (Quiet.of_look look).bind quiet

/-- A token that is passed in front need not be counted behind it. -/
theorem Quiet.behind_use {parser : Parser α} {next : α → Traced β} (forward : Forward parser)
    (uses : Uses parser) (quiet : ∀ value, Quiet bound (next value)) :
    Quiet (bound + 1) (liftM parser >>= next) where
  forward := forward.bind fun value => (quiet value).forward
  sound file here below := .behind forward fun value later run => by
    have less := uses file here later value run
    exact (quiet value).sound file later (by omega)

theorem Quiet.ite {condition : Prop} [Decidable condition] {first second : Traced α}
    (holds : Quiet bound first) (fails : Quiet bound second) :
    Quiet bound (if condition then first else second) := by
  split
  · exact holds
  · exact fails

theorem Quiet.attempt {traced : Traced α} (quiet : Quiet bound traced) :
    Quiet bound (attempt traced) :=
  ⟨forward_attempt quiet.forward, quiet.sound⟩

theorem quiet_loop {step : σ → Traced (ForInStep σ)}
    (progress : Progresses fun state => (step state).parser)
    (quiet : ∀ state, Quiet bound (step state)) (state : σ) :
    Quiet bound (loop .ofParts state step) where
  forward := by
    rw [parser_loop]
    exact forward_loop (fun state => (quiet state).forward) state
  sound _ _ below :=
    soundAt_loop (Set.mem_singleton _) (fun state => (quiet state).forward) progress
      (fun state => (quiet state).sound) below state

end Rules

section Skipping

variable {bound : Nat}

theorem quiet_skipBy (action : TokenKind → SkipAction) : Quiet bound (skipBy action) :=
  quiet_loop (fun file state => progresses_skipRound action file state)
    (fun state => .of_forward (forward_skipRound action state)) ()

theorem quiet_skipMember : Quiet bound skipMember := quiet_skipBy _

theorem quiet_recoverFrom (before : Nat) : Quiet bound (recoverFrom before) :=
  quiet_get.bind fun _ => .ite (.behind forward_advance fun _ => quiet_skipMember) quiet_skipMember

end Skipping

section Types

variable {bound : Nat} {type : Traced TypeExpr}

theorem quiet_argumentRound (quiet : Quiet bound type) (found : List TypeExpr) :
    Quiet bound (argumentRound type found) := by
  refine quiet.attempt.bind fun argument => ?_
  cases argument with
  | none => exact quiet_pure _
  | some argument => exact .behind (forward_eat _) fun _ => .ite (quiet_pure _) (quiet_pure _)

/-- Type arguments are gone back over without a round. -/
theorem quiet_typeArguments (quiet : Quiet bound type) : Quiet bound (typeArguments type) where
  forward := by
    rw [parser_typeArguments]
    exact forward_typeArguments quiet.forward
  sound file here below := by
    have progress : Progresses fun found => (argumentRound type found).parser := by
      rw [funext (parser_argumentRound type)]
      exact progresses_argumentRound quiet.forward
    have rounds := quiet_loop progress (quiet_argumentRound quiet) []
    refine .behind_get (.behind forward_advance fun _ later run => ?_)
    have fewer := (forward_advance.of_ok run).length_le
    refine .bind rounds.forward (rounds.sound file later (Nat.lt_of_le_of_lt fewer below))
      fun arguments reached _ => ?_
    split
    · exact soundAt_of_none rfl
    · refine .behind (forward_eat _) fun closed _ _ => ?_
      split
      · exact soundAt_of_none rfl
      · exact soundAt_of_none rfl

theorem quiet_segmentRound (quiet : Quiet bound type) (found : List NameSegment) :
    Quiet (bound + 1) (segmentRound type found) := by
  refine .behind_use forward_expectIdent uses_expectIdent fun ⟨name, _⟩ => ?_
  have ends (arguments : List TypeExpr) : Quiet bound (do
      if (← atMark .dot) && (← secondIsIdent) then
        advance
        return ForInStep.yield (found ++ [⟨name, arguments⟩])
      else return ForInStep.done (found ++ [⟨name, arguments⟩])) :=
    .behind_look (fun _ _ => rfl) fun _ => .behind_look (fun _ _ => rfl) fun _ =>
      .ite (.behind forward_advance fun _ => quiet_pure _) (quiet_pure _)
  refine .behind_look (fun _ _ => rfl) fun _ => .ite ?_ ?_
  · exact (quiet_typeArguments quiet).bind ends
  · exact (quiet_pure []).bind ends

theorem quiet_namedType (quiet : Quiet bound type) (start : Span) :
    Quiet (bound + 1) (namedType type start) := by
  have progress : Progresses fun found => (segmentRound type found).parser := by
    rw [funext (parser_segmentRound type)]
    exact progresses_segmentRound quiet.forward
  have ends (qualifier : Option String) :
      Quiet (bound + 1) (do
        let segments ← loop .ofParts [] (segmentRound type)
        return TypeExpr.named qualifier segments (← spanFrom start)) :=
    (quiet_loop progress (quiet_segmentRound quiet) []).bind fun _ =>
      .behind_look (spanFrom_apply · · start) fun _ => quiet_pure _
  refine .behind_look (fun _ _ => rfl) fun _ => .ite ?_ ((quiet_pure none).bind ends)
  exact .behind forward_expectIdent fun ⟨name, _⟩ => .behind forward_advance fun _ =>
    (quiet_pure _).bind ends

theorem quiet_elementRound (quiet : Quiet bound type) (found : List TupleElement) :
    Quiet bound (elementRound type found) := by
  refine quiet.bind fun element => .behind_look (fun _ _ => rfl) fun name => ?_
  have ends : Quiet bound (do
      if ← eat .comma then return ForInStep.yield (found ++ [⟨element, name⟩])
      else return ForInStep.done (found ++ [⟨element, name⟩])) :=
    .behind (forward_eat _) fun _ => .ite (quiet_pure _) (quiet_pure _)
  exact .ite (.behind forward_advance fun _ => ends) ends

/-- The parenthesis in front need not be counted within. -/
theorem soundAt_tupleType (quiet : Quiet bound type) (start : Span) {file : SourceFile}
    {here : Cursor} (opened : here.peek? 0 = some (.mark .leftParen))
    (below : here.remaining.length < bound + 1) :
    SoundAt {.ofParts} (tupleType type start) file here := by
  have progress : Progresses fun found => (elementRound type found).parser := by
    rw [funext (parser_elementRound type)]
    exact progresses_elementRound quiet.forward
  have rest : Quiet bound (do
      let elements ← loop .ofParts [] (elementRound type)
      expect .rightParen
      return TypeExpr.tuple elements (← spanFrom start)) :=
    (quiet_loop progress (quiet_elementRound quiet) []).bind fun _ =>
      .behind (forward_expect _) fun _ =>
        .behind_look (spanFrom_apply · · start) fun _ => quiet_pure _
  have passed := Cursor.length_advance opened
  refine .behind forward_advance ?_
  rintro _ later ⟨⟩
  exact rest.sound file here.advance (by omega)

theorem quiet_suffixRound (start : Span) (head : TypeExpr) :
    Quiet bound (suffixRound start head) := by
  have yields (next : Span → TypeExpr) :
      Quiet bound (do return ForInStep.yield (next (← spanFrom start))) :=
    .behind_look (spanFrom_apply · · start) fun _ => quiet_pure _
  refine .behind (forward_eat _) fun _ => .ite (yields _) ?_
  refine .behind (forward_eat _) fun _ => .ite (yields _) ?_
  refine .behind_look (fun _ _ => rfl) fun _ => .behind_look (fun _ _ => rfl) fun _ => ?_
  refine .behind_look (fun _ _ => rfl) fun _ => .ite ?_ (quiet_pure _)
  refine .behind forward_advance fun _ => ?_
  refine (quiet_loop progresses_rankRound (fun rank => .of_forward (forward_rankRound rank)) 1).bind
    fun rank => ?_
  exact .behind (forward_expect _) fun _ => yields _

theorem quiet_typeSuffixes (start : Span) (head : TypeExpr) :
    Quiet bound (typeSuffixes start head) := by
  refine quiet_loop ?_ (quiet_suffixRound start) head
  rw [funext (parser_suffixRound start)]
  exact progresses_suffixRound start

/-- The parts of a type nest less than its tokens. -/
theorem quiet_typeWithin (depth : Nat) : Quiet depth (typeWithin depth) where
  forward := by
    rw [parser_typeWithin]
    exact forward_typeWithin depth
  sound := by
    induction depth with
    | zero => exact fun file here below => absurd below (Nat.not_lt_zero _)
    | succ depth ih =>
        intro file here below
        have quiet : Quiet depth (typeWithin depth) := by
          refine ⟨?_, ih⟩
          rw [parser_typeWithin]
          exact forward_typeWithin depth
        have ends (start : Span) (head : TypeExpr) : Quiet (depth + 1) (typeSuffixes start head) :=
          quiet_typeSuffixes start head
        refine .behind_look nextSpan_apply (.behind_look (fun _ _ => rfl) ?_)
        by_cases paren : here.peek? 0 = some (.mark .leftParen)
        · rw [if_pos (beq_iff_eq.mpr paren)]
          have forward : Forward (tupleType (typeWithin depth) (here.nextSpan file)).parser := by
            rw [parser_tupleType]
            exact forward_tupleType quiet.forward _
          refine .bind forward (soundAt_tupleType quiet _ paren below) fun head later run => ?_
          have fewer := (forward.of_ok run).length_le
          exact (ends _ head).sound file later (Nat.lt_of_le_of_lt fewer below)
        · rw [if_neg fun isParen => paren (beq_iff_eq.mp isParen)]
          refine .behind_look (fun _ _ => rfl) ?_
          cases (here.peek? 0).bind TokenKind.ident? with
          | none => exact soundAt_of_none rfl
          | some name =>
              have named : Quiet (depth + 1) (do
                  if TypeExpr.keywords.contains name then
                    advance
                    typeSuffixes (here.nextSpan file) (.predefined name (here.nextSpan file))
                  else
                    typeSuffixes (here.nextSpan file)
                      (← namedType (typeWithin depth) (here.nextSpan file))) :=
                .ite (.behind forward_advance fun _ => ends _ _)
                  ((quiet_namedType quiet _).bind (ends _))
              exact named.sound file here below

theorem quiet_type : Quiet bound Traced.type where
  forward := by
    rw [parser_type]
    exact forward_type
  sound file here _ := .behind_get ((quiet_typeWithin _).sound file here (Nat.lt_succ_self _))

end Types

section Attributes

variable {bound : Nat} {α : Type}

theorem quiet_argumentTokens : Quiet bound argumentTokens :=
  quiet_get.bind fun _ => (quiet_skipBy _).bind fun _ => quiet_get.bind fun _ => quiet_pure _

theorem quiet_attributeArgument : Quiet bound attributeArgument := by
  have ends (start : Span) (name : Option String) (tokens : List Token) : Quiet bound (do
      return (⟨← spanFrom start, name, argumentValue (← read) tokens⟩ : AttributeArgument)) :=
    .behind_look (spanFrom_apply · · start) fun _ => quiet_read.bind fun _ => quiet_pure _
  refine .behind_look nextSpan_apply fun start => .behind forward_argumentName fun name => ?_
  refine quiet_argumentTokens.bind fun tokens => ?_
  exact .ite (.behind (forward_failExpecting _) fun _ => ends ..) (ends ..)

theorem quiet_listUpTo (close : Mark) {item : Traced α} (quiet : Quiet bound item) :
    Quiet bound (listUpTo close item) := by
  have progress : Progresses fun found => (itemRound close item found).parser := by
    rw [funext (parser_itemRound close item)]
    exact progresses_itemRound quiet.forward
  have rounds (found : List α) : Quiet bound (itemRound close item found) :=
    .behind_look (fun _ _ => rfl) fun _ => .ite (quiet_pure _) (quiet.bind fun _ =>
      .behind (forward_eat _) fun _ => .ite (quiet_pure _) (quiet_pure _))
  exact (quiet_loop progress rounds []).bind fun _ =>
    .behind (forward_expect _) fun _ => quiet_pure _

theorem quiet_dottedName : Quiet bound dottedName := by
  have forward (found : List String) : Forward (dotRound found) :=
    (forward_eat _).bind fun _ => .ite (forward_expectIdent.bind fun _ => forward_pure _)
      (forward_pure _)
  exact .behind forward_expectIdent fun ⟨first, _⟩ =>
    quiet_loop progresses_dotRound (fun found => .of_forward (forward found)) [first]

theorem quiet_appliedAttribute : Quiet bound appliedAttribute := by
  have ends (start : Span) (name : List String) : Quiet bound (do
      let arguments ← if ← eat .leftParen then listUpTo .rightParen attributeArgument else pure []
      return (⟨← spanFrom start, name, arguments⟩ : Attribute)) := by
    have behind (arguments : List AttributeArgument) : Quiet bound (do
        return (⟨← spanFrom start, name, arguments⟩ : Attribute)) :=
      .behind_look (spanFrom_apply · · start) fun _ => quiet_pure _
    exact .behind (forward_eat _) fun _ =>
      .ite ((quiet_listUpTo _ quiet_attributeArgument).bind behind) ((quiet_pure []).bind behind)
  have named (start : Span) : Quiet bound (do
      let name ← dottedName
      if ← atMark .less then
        let _ ← typeArguments Traced.type
      let arguments ← if ← eat .leftParen then listUpTo .rightParen attributeArgument else pure []
      return (⟨← spanFrom start, name, arguments⟩ : Attribute)) :=
    quiet_dottedName.bind fun name => .behind_look (fun _ _ => rfl) fun _ =>
      .ite ((quiet_typeArguments quiet_type).bind fun _ => ends start name) (ends start name)
  refine .behind_look nextSpan_apply fun start => ?_
  refine .behind_look (fun _ _ => rfl) fun _ => .behind_look (fun _ _ => rfl) fun _ => ?_
  exact .ite (.behind forward_advance fun _ => .behind forward_advance fun _ => named start)
    (named start)

theorem quiet_attributeList : Quiet bound attributeList := by
  refine .behind_look nextSpan_apply fun start => .behind (forward_expect _) fun _ => ?_
  refine .behind forward_attributeTarget fun target => ?_
  exact (quiet_listUpTo _ quiet_appliedAttribute).bind fun _ =>
    .behind_look (spanFrom_apply · · start) fun _ => quiet_pure _

theorem quiet_attributeLists : Quiet bound attributeLists := by
  refine quiet_loop ?_ (fun found => ?_) []
  · rw [funext parser_listRound]
    exact progresses_listRound
  · exact .behind_look (fun _ _ => rfl) fun _ =>
      .ite (quiet_attributeList.bind fun _ => quiet_pure _) (quiet_pure _)

end Attributes

section Methods

variable {bound : Nat}

theorem quiet_modifiers : Quiet bound modifiers :=
  quiet_loop progresses_modifierRound (fun found => .of_forward (forward_modifierRound found)) []

theorem quiet_parameterRound (found : List String) : Quiet bound (parameterRound found) := by
  have variance : Quiet bound (do if ← atVariance then advance) :=
    .behind repeats_atVariance.forward fun _ => .ite (.of_forward forward_advance) (quiet_pure _)
  refine quiet_attributeLists.bind fun _ => variance.bind fun _ => ?_
  exact .behind forward_expectIdent fun _ => .behind (forward_eat _) fun _ =>
    .ite (quiet_pure _) (quiet_pure _)

theorem quiet_typeParameters : Quiet bound typeParameters := by
  have progress : Progresses fun found => (parameterRound found).parser := by
    rw [funext parser_parameterRound]
    exact progresses_parameterRound
  exact .behind (forward_expect _) fun _ => (quiet_loop progress quiet_parameterRound []).bind
    fun _ => .behind (forward_expect _) fun _ => quiet_pure _

theorem quiet_qualifiedName : Quiet bound qualifiedName :=
  quiet_dottedName.bind fun _ => quiet_pure _

theorem quiet_usingDirective (start : Span) (isGlobal : Bool) :
    Quiet bound (usingDirective start isGlobal) := by
  have ends (kind : UsingKind) : Quiet bound (do
      expect .semicolon
      return (⟨← spanFrom start, isGlobal, kind⟩ : UsingDirective)) :=
    .behind (forward_expect _) fun _ => .behind_look (spanFrom_apply · · start) fun _ =>
      quiet_pure _
  refine .behind (forward_eatWord _) fun _ =>
    .ite ?_ (.behind (forward_failExpecting _) fun _ => ?_)
  all_goals
    refine .behind (forward_eatWord _) fun _ => .behind_look atIdent_apply fun _ => ?_
    refine .behind_look (fun _ _ => rfl) fun _ => .ite ?_ (.ite ?_ ?_)
    · exact quiet_type.bind fun _ => (quiet_pure _).bind ends
    · exact .behind forward_expectIdent fun _ => .behind forward_advance fun _ =>
        quiet_type.bind fun _ => (quiet_pure _).bind ends
    · exact quiet_qualifiedName.bind fun _ => (quiet_pure _).bind ends

theorem quiet_nameRound (found : String × Span × List String) :
    Quiet bound (nameRound found) := by
  refine .behind_look (fun _ _ => rfl) fun _ =>
    .ite (quiet_typeParameters.bind fun _ => ?_) ((quiet_pure _).bind fun _ => ?_)
  all_goals
    refine .behind repeats_atNextPart.forward fun _ => .ite ?_ (quiet_pure _)
    exact .behind forward_advance fun _ => .behind forward_expectIdent fun _ => quiet_pure _

theorem quiet_memberName : Quiet bound memberName := by
  have progress : Progresses fun found => (nameRound found).parser := by
    rw [funext parser_nameRound]
    exact progresses_nameRound
  exact .behind forward_expectIdent fun _ => quiet_loop progress quiet_nameRound _

theorem quiet_methodBody : Quiet bound methodBody := by
  refine .behind_look (fun _ _ => rfl) fun _ => .ite ?_ ?_
  · exact .behind forward_skipBalanced fun _ => quiet_pure _
  refine .behind (forward_eat _) fun _ => .ite ?_ ?_
  · exact (quiet_skipBy _).bind fun _ => quiet_pure _
  · exact .behind (forward_eat _) fun _ =>
      .ite (quiet_pure _) (.of_forward (forward_failExpecting _))

/-- A method is gone back over if its type cannot be read, and skipped from there. -/
theorem quiet_method? (start : Span) (lists : List AttributeList) (words : List Modifier) :
    Quiet bound (method? start lists words) where
  forward := by
    rw [parser_method?]
    exact forward_method? start lists words
  sound file here below := by
    have skips : Quiet bound (skipMember >>= fun _ => pure (none : Option MethodDecl)) :=
      quiet_skipMember.bind fun _ => quiet_pure _
    have type : Quiet bound (attempt Traced.type) := quiet_type.attempt
    refine .behind_get (.bind_of (type.sound file here below) fun read later run => ?_)
    cases read with
    | none => exact skips.sound file here below
    | some returnType =>
        have reached := type.forward.of_ok run
        have fewer := Nat.lt_of_le_of_lt reached.length_le below
        refine (Quiet.sound ?_ file later fewer).of_reaches reached
        refine .behind_look atIdent_apply fun _ => .behind_look (fun _ _ => rfl) fun _ => ?_
        refine .behind_look (fun _ _ => rfl) fun _ => .ite skips ?_
        refine quiet_memberName.bind fun ⟨name, nameSpan, parameters⟩ => ?_
        refine .behind_look (fun _ _ => rfl) fun _ => .ite skips ?_
        refine .behind forward_skipBalanced fun _ => (quiet_skipBy _).bind fun _ => ?_
        exact quiet_methodBody.bind fun _ => .behind_look (spanFrom_apply · · start) fun _ =>
          quiet_pure _

theorem quiet_typeHead : Quiet bound typeHead := by
  have ends (parameters : List String) : Quiet bound (do
      if ← atMark .leftParen then skipBalanced
      skipUntil [.leftBrace, .semicolon, .rightBrace]
      return parameters) :=
    .behind_look (fun _ _ => rfl) fun _ => .ite
      (.behind forward_skipBalanced fun _ => (quiet_skipBy _).bind fun _ => quiet_pure _)
      ((quiet_skipBy _).bind fun _ => quiet_pure _)
  exact .behind_look (fun _ _ => rfl) fun _ =>
    .ite (quiet_typeParameters.bind ends) ((quiet_pure _).bind ends)

end Methods

end Traced

end ErrorAccessors.Parser
