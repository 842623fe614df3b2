/-
# Every round of members moves on

Whatever the tokens are and whatever goes wrong among them, a round of members that does
not leave its loop ends with fewer tokens than it begins with, although types that cannot
be read are gone back over and skipping stops in front of a closing brace.  So the rounds
and the levels that are allowed never run out, and a file is read to its end.

In all there are no more rounds than tokens, the end marker included.  The tokens pay for
the rounds: a loop has one round more than it goes on, and a member whose own members
are read has passed a name and a brace before, one for its own round and one for the last
round within.
-/

import ErrorAccessors.Proofs.ExchangedOutline
import ErrorAccessors.Proofs.PartRounds
import ErrorAccessors.Proofs.TracedMembers

namespace ErrorAccessors.Parser

namespace Traced

/-- How many rounds are spent on members. -/
def memberRounds {α : Type} (traced : Traced α) (file : SourceFile) (here : Cursor) : Nat :=
  (traced.rounds file here).countP (·.kind == .ofMembers)

/-- The rounds of a reading are sound, and the tokens that it passes pay for those of members
with some to spare, if there are such rounds at all. -/
structure AccountsAt {α : Type} (spare : Nat) (traced : Traced α) (file : SourceFile)
    (here : Cursor) : Prop where
  sound : SoundAt Set.univ traced file here
  paid : traced.memberRounds file here ≠ 0 →
    traced.memberRounds file here + (stopOf (traced.parser file here)).remaining.length + spare ≤
      here.remaining.length + 1

/-- A traced parser goes forward, and its rounds are accounted for wherever there are fewer
tokens than a bound. -/
structure Accounts {α : Type} (bound spare : Nat) (traced : Traced α) : Prop where
  forward : Forward traced.parser
  within : ∀ file here, here.remaining.length < bound → AccountsAt spare traced file here

section Counting

variable {α β : Type} {file : SourceFile} {here : Cursor}

theorem memberRounds_bind (first : Traced α) (next : α → Traced β) :
    (first >>= next).memberRounds file here = first.memberRounds file here +
      match first.parser file here with
      | .ok value later => (next value).memberRounds file later
      | .error _ _ => 0 := by
  rw [memberRounds, rounds_bind, List.countP_append]
  cases first.parser file here with
  | ok value later => rfl
  | error diagnostic later => rfl

/-- No round of a part is one of members. -/
theorem SoundAt.memberRounds_eq_zero {traced : Traced α}
    (sound : SoundAt {.ofParts} traced file here) : traced.memberRounds file here = 0 := by
  refine List.countP_eq_zero.mpr fun round member => ?_
  rw [Set.mem_singleton_iff.mp (sound round member).2]
  decide

end Counting

section Rules

variable {α β σ : Type} {bound spare : Nat}

/-- Nothing has to be paid for parts. -/
theorem Quiet.accounts {traced : Traced α} (quiet : Quiet bound traced) :
    Accounts bound spare traced where
  forward := quiet.forward
  within file here below := by
    have sound := quiet.sound file here below
    exact ⟨sound.mono (Set.subset_univ _), fun some => absurd sound.memberRounds_eq_zero some⟩

theorem Accounts.mono {traced : Traced α} {less : Nat} (accounts : Accounts bound spare traced)
    (atMost : less ≤ bound) : Accounts less spare traced :=
  ⟨accounts.forward,
    fun file here below => accounts.within file here (Nat.lt_of_lt_of_le below atMost)⟩

theorem Accounts.ite {condition : Prop} [Decidable condition] {first second : Traced α}
    (holds : Accounts bound spare first) (fails : Accounts bound spare second) :
    Accounts bound spare (if condition then first else second) := by
  split
  · exact holds
  · exact fails

section Behind

variable {first : Traced α} {next : α → Traced β} {file : SourceFile} {here : Cursor}

/-- Behind a part, the rounds of members are those of what follows. -/
private theorem AccountsAt.behind (saved : Nat) (forward : Forward first.parser)
    (sound : SoundAt {.ofParts} first file here)
    (saves : ∀ value later, first.parser file here = .ok value later →
      later.remaining.length + saved ≤ here.remaining.length)
    (accounts : ∀ value later, first.parser file here = .ok value later →
      AccountsAt spare (next value) file later) :
    AccountsAt (spare + saved) (first >>= next) file here := by
  refine ⟨.bind forward (sound.mono (Set.subset_univ _)) fun value later run =>
    (accounts value later run).sound, ?_⟩
  rw [memberRounds_bind, sound.memberRounds_eq_zero, Nat.zero_add, parser_bind, bind_apply]
  cases run : first.parser file here with
  | error diagnostic later => exact fun some => absurd rfl some
  | ok value later =>
      intro some
      have paid := (accounts value later run).paid some
      have saves := saves value later run
      simp only []
      omega

/-- What goes on behind a part. -/
theorem Accounts.behind (quiet : Quiet bound first)
    (accounts : ∀ value, Accounts bound spare (next value)) :
    Accounts bound spare (first >>= next) where
  forward := quiet.forward.bind fun value => (accounts value).forward
  within file here below := by
    refine .behind 0 quiet.forward (quiet.sound file here below) ?_ fun value later run => ?_
    · exact fun value later run => (quiet.forward.of_ok run).length_le
    · have fewer := (quiet.forward.of_ok run).length_le
      exact (accounts value).within file later (Nat.lt_of_le_of_lt fewer below)

/-- A token that is passed in front leaves one more to spare. -/
theorem Accounts.behind_use (quiet : Quiet (bound + 1) first) (uses : Uses first.parser)
    (accounts : ∀ value, Accounts bound spare (next value)) :
    Accounts (bound + 1) (spare + 1) (first >>= next) where
  forward := quiet.forward.bind fun value => (accounts value).forward
  within file here below := by
    refine .behind 1 quiet.forward (quiet.sound file here below) ?_ fun value later run => ?_
    · exact fun value later run => uses file here later value run
    · have less := uses file here later value run
      exact (accounts value).within file later (by omega)

/-- A mark that may stand in front leaves one more to spare where it does. -/
theorem Accounts.behind_eat {mark : Mark} {next : Bool → Traced β}
    (eaten : Accounts bound spare (next true))
    (notEaten : Accounts (bound + 1) (spare + 1) (next false)) :
    Accounts (bound + 1) (spare + 1) (liftM (eat mark) >>= next) where
  forward := (forward_eat mark).bind (Bool.rec notEaten.forward eaten.forward)
  within file here below := by
    have forward := forward_eat mark
    have ran := eat_apply file here mark
    by_cases comes : here.peek? 0 = some (.mark mark)
    · rw [if_pos comes] at ran
      have less := Cursor.length_advance comes
      refine .behind 1 forward (soundAt_of_none rfl) ?_ fun value later run => ?_
      · intro value later run
        cases ran.symm.trans run
        exact Nat.le_of_eq less
      · cases ran.symm.trans run
        exact eaten.within file here.advance (by omega)
    · rw [if_neg comes] at ran
      refine .behind 0 forward (soundAt_of_none rfl) ?_ fun value later run => ?_
      · intro value later run
        cases ran.symm.trans run
        exact Nat.le_refl _
      · cases ran.symm.trans run
        exact notEaten.within file here below

/-- What is done behind a look at the cursor. -/
theorem accounts_get {next : Cursor → Traced β}
    (forward : ∀ here, Forward (next here).parser)
    (accounts : ∀ file here, here.remaining.length < bound →
      AccountsAt spare (next here) file here) :
    Accounts bound spare (get >>= next) where
  forward := Forward.behind_look get_apply forward
  within file here below := by
    refine .behind 0 (.of_look _ get_apply) (soundAt_of_none rfl) ?_ ?_
    · rintro value later ⟨⟩
      exact Nat.le_refl _
    · rintro value later ⟨⟩
      exact accounts file here below

end Behind

variable {traced : Traced α}

/-- Nothing that is done behind the members adds to their rounds. -/
theorem Accounts.before {next : α → Traced β} (accounts : Accounts bound spare traced)
    (quiet : ∀ value, Quiet bound (next value)) : Accounts bound spare (traced >>= next) where
  forward := accounts.forward.bind fun value => (quiet value).forward
  within file here below := by
    obtain ⟨sound, paid⟩ := accounts.within file here below
    have behind (value : α) (later : Cursor) (run : traced.parser file here = .ok value later) :
        SoundAt {.ofParts} (next value) file later :=
      (quiet value).sound file later
        (Nat.lt_of_le_of_lt (accounts.forward.of_ok run).length_le below)
    refine ⟨.bind accounts.forward sound fun value later run =>
      (behind value later run).mono (Set.subset_univ _), ?_⟩
    rw [memberRounds_bind, parser_bind, bind_apply]
    cases run : traced.parser file here with
    | error diagnostic later =>
        rw [run] at paid
        exact paid
    | ok value later =>
        rw [run] at paid
        have stop := ((quiet value).forward.reaches_stopOf file later).length_le
        simp only [(behind value later run).memberRounds_eq_zero, Nat.add_zero, stopOf_ok] at paid ⊢
        intro some
        have paid := paid some
        omega

section Recovering

variable {recover : Diagnostic → Traced α} {file : SourceFile} {here later : Cursor}

/-- What succeeds is not recovered from. -/
private theorem orElse_of_ok {value : α} (run : traced.parser file here = .ok value later) :
    (orElse traced recover).rounds file here = traced.rounds file here ∧
      (orElse traced recover).parser file here = traced.parser file here := by
  constructor
  · simp only [orElse, run, List.append_nil]
  · simp only [orElse, Parser.orElse, run]

/-- What fails is followed by the rounds of recovering from it. -/
private theorem orElse_of_error {diagnostic : Diagnostic}
    (run : traced.parser file here = .error diagnostic later) :
    (orElse traced recover).rounds file here =
        traced.rounds file here ++ (recover diagnostic).rounds file later ∧
      (orElse traced recover).parser file here = (recover diagnostic).parser file later := by
  constructor
  · simp only [orElse, run]
  · simp only [orElse, Parser.orElse, run]

/-- Recovering only passes further tokens. -/
theorem Accounts.orElse (accounts : Accounts bound spare traced)
    (quiet : ∀ diagnostic, diagnostic.isError = true → Quiet bound (recover diagnostic)) :
    Accounts bound spare (orElse traced recover) where
  forward := forward_orElse accounts.forward fun diagnostic isError =>
    (quiet diagnostic isError).forward
  within file here below := by
    obtain ⟨sound, paid⟩ := accounts.within file here below
    cases run : traced.parser file here with
    | ok value later =>
        obtain ⟨areRounds, isStop⟩ := orElse_of_ok run
        refine ⟨?_, ?_⟩
        · rw [SoundAt, areRounds]
          exact sound
        · rw [memberRounds, areRounds, isStop]
          exact paid
    | error diagnostic later =>
        obtain ⟨areRounds, isStop⟩ := orElse_of_error run
        obtain ⟨reached, isError⟩ := accounts.forward.of_error run
        have recovering := quiet diagnostic isError
        have fewer := Nat.lt_of_le_of_lt reached.length_le below
        have behind := recovering.sound file later fewer
        have further := (recovering.forward.reaches_stopOf file later).length_le
        refine ⟨?_, ?_⟩
        · rw [SoundAt, areRounds]
          exact List.forall_mem_append.mpr
            ⟨sound, (behind.mono (Set.subset_univ _)).of_reaches reached⟩
        · have none : (recover diagnostic).memberRounds file later = 0 :=
            behind.memberRounds_eq_zero
          rw [run, stopOf_error] at paid
          rw [memberRounds, areRounds, isStop, List.countP_append]
          show traced.memberRounds file here + (recover diagnostic).memberRounds file later ≠ 0 →
            traced.memberRounds file here + (recover diagnostic).memberRounds file later + _ + _ ≤ _
          rw [none, Nat.add_zero]
          intro some
          have paid := paid some
          omega

end Recovering

end Rules

section Loops

variable {σ : Type} {bound : Nat} {step : σ → Traced (ForInStep σ)} {file : SourceFile}
  {here : Cursor}

/-- A loop over members has at most one round more than tokens that it passes, those within
its rounds included. -/
private theorem paid_loopWithin (progress : Progresses fun state => (step state).parser)
    (accounts : ∀ state, Accounts bound 2 (step state)) {rounds : Nat}
    (enough : here.remaining.length < rounds) (below : here.remaining.length < bound) (state : σ) :
    (loopWithin .ofMembers step rounds state).memberRounds file here +
        (stopOf ((loopWithin .ofMembers step rounds state).parser file here)).remaining.length ≤
      here.remaining.length + 1 := by
  induction rounds generalizing here state with
  | zero => exact absurd enough (Nat.not_lt_zero _)
  | succ rounds ih =>
      have paid := ((accounts state).within file here below).paid
      by_cases goesOn : ∃ next later, (step state).parser file here = .ok (.yield next) later
      · obtain ⟨next, later, run⟩ := goesOn
        have moves := progress file state next here later run
        obtain ⟨areRounds, isRest⟩ := loopWithin_of_yield .ofMembers rounds run
        have rest := @ih later (by omega) (by omega) next
        rw [run] at paid
        simp only [stopOf_ok] at paid
        rw [memberRounds, areRounds, isRest, List.countP_cons, List.countP_append]
        show (step state).memberRounds file here + (loopWithin .ofMembers step rounds
          next).memberRounds file later + 1 + _ ≤ _
        omega
      · have leaves (next : σ) (later : Cursor) :
            (step state).parser file here ≠ .ok (.yield next) later :=
          fun run => goesOn ⟨next, later, run⟩
        obtain ⟨areRounds, isStop⟩ := loopWithin_of_leave .ofMembers rounds leaves
        have fewer := ((accounts state).forward.reaches_stopOf file here).length_le
        rw [memberRounds, areRounds, isStop, List.countP_cons]
        show (step state).memberRounds file here + 1 + _ ≤ _
        omega

/-- The rounds of a loop are paid for by the tokens and one more. -/
theorem accounts_loop (progress : Progresses fun state => (step state).parser)
    (accounts : ∀ state, Accounts bound 2 (step state)) (state : σ) :
    Accounts bound 0 (loop .ofMembers state step) := by
  have forward (state : σ) : Forward (step state).parser := (accounts state).forward
  refine accounts_get (fun here => ?_) fun file here below => ⟨?_, fun _ => ?_⟩
  · rw [parser_loopWithin]
    exact forward_loopWithin forward _ state
  · exact soundAt_loopWithin (Set.mem_univ _) forward progress
      (fun state file here below => ((accounts state).within file here below).sound)
      (Nat.lt_succ_self _) below state
  · exact paid_loopWithin progress accounts (Nat.lt_succ_self _) below state

end Loops

section Members

variable {σ α : Type} {bound spare : Nat} {atStop : Parser Bool} {member : Traced (Option α)}
  {add : σ → α → σ}

theorem accounts_memberOrRecovery (accounts : Accounts bound spare member) (before : Nat) :
    Accounts bound spare (memberOrRecovery member before) :=
  accounts.orElse fun _ isError => .behind (forward_record isError) fun _ =>
    (quiet_recoverFrom before).bind fun _ => quiet_pure _

/-- A round of members has two tokens to spare if its member has. -/
theorem accounts_memberRound (stops : StopsAtEnd atStop) (accounts : Accounts bound 2 member)
    (state : σ) : Accounts bound 2 (memberRound atStop member add state) := by
  have atStopForward : Forward atStop := by
    intro file cursor
    obtain ⟨stop, run, -⟩ := stops file cursor
    rw [run]
    exact .refl cursor
  have read (before : Nat) : Accounts bound 2 (do
      let read ← memberOrRecovery member before
      stepIfStuck before
      return ForInStep.yield (addIfAny add state read)) :=
    (accounts_memberOrRecovery accounts before).before fun _ =>
      .behind (forward_stepIfStuck before) fun _ => quiet_pure _
  refine .behind (.of_forward atStopForward) fun _ => .ite (quiet_pure _).accounts ?_
  refine .behind (.of_forward forward_skipFault) fun _ => .ite (quiet_pure _).accounts ?_
  exact accounts_get (fun here => (read _).forward) fun file here => (read _).within file here

theorem accounts_memberLoop (stops : StopsAtEnd atStop) (accounts : Accounts bound 2 member)
    (state : σ) : Accounts bound 0 (memberLoop atStop member add state) := by
  refine accounts_loop ?_ (accounts_memberRound stops accounts) state
  rw [funext (parser_memberRound atStop member add)]
  exact progresses_memberRound stops accounts.forward

end Members

section Declarations

variable {bound : Nat}

theorem accounts_typeMember
    {nested : Span → List AttributeList → List Modifier → Traced TypeDecl}
    (accounts : ∀ start lists words, Accounts bound 2 (nested start lists words)) :
    Accounts bound 2 (typeMember nested) := by
  refine .behind (.of_look nextSpan_apply) fun start => .behind (.of_forward (forward_eat _))
    fun _ => .ite (quiet_pure _).accounts ?_
  refine .behind quiet_attributeLists fun lists => .behind quiet_modifiers fun words => ?_
  refine .behind (.of_look atTypeKeyword_apply) fun _ => ?_
  refine .ite ((accounts start lists words).before fun _ => quiet_pure _) ?_
  refine .behind (.of_look atSkippedMember_apply) fun _ => Quiet.accounts (.ite ?_ ?_)
  · exact quiet_skipMember.bind fun _ => quiet_pure _
  · exact (quiet_method? start lists words).bind fun _ => quiet_pure _

/-- The opening brace in front of the members leaves a token to spare. -/
theorem accounts_typeBody (kind : TypeKind) (start : Span) {member : Traced (Option TypeMember)}
    (accounts : Accounts bound 2 member) : Accounts bound 1 (typeBody kind start member) := by
  have ends (members : List TypeMember) :
      Quiet bound (liftM (eat .semicolon) >>= fun _ => (pure members : Traced _)) :=
    .behind (forward_eat _) fun _ => quiet_pure members
  have skips : Quiet bound (liftM skipBalanced >>= fun _ => (pure [] : Traced _) >>=
      fun members : List TypeMember => liftM (eat .semicolon) >>= fun _ => pure members) :=
    .behind forward_skipBalanced fun _ => (quiet_pure []).bind ends
  refine .behind (.of_forward (forward_eat _)) fun _ => .ite (quiet_pure _).accounts (.ite ?_ ?_)
  · refine Quiet.accounts (.behind_look (fun file cursor => atMark_apply file cursor _) fun _ => ?_)
    exact .ite skips (.behind (forward_failExpecting _) fun _ => skips)
  · refine (Accounts.behind_use (.of_forward (forward_expect _)) (uses_expect _) fun _ => ?_).mono
      (Nat.le_succ bound)
    refine (accounts_memberLoop stopsAtEnd_atBodyEnd accounts _).before fun members => ?_
    exact .behind (forward_closeDeclaration start) fun _ => ends members

/-- The name in front of the body leaves another token to spare. -/
theorem accounts_typeDeclWithin (depth : Nat) (start : Span) (lists : List AttributeList)
    (words : List Modifier) : Accounts depth 2 (typeDeclWithin depth start lists words) := by
  induction depth generalizing start lists words with
  | zero =>
      exact ⟨forward_failExpecting _, fun file here below => absurd below (Nat.not_lt_zero _)⟩
  | succ depth ih =>
      refine .behind (.of_forward forward_typeKind) fun kind =>
        .behind_use (.of_forward forward_expectIdent) uses_expectIdent ?_
      rintro ⟨name, nameSpan⟩
      refine .behind quiet_typeHead fun parameters => ?_
      refine (accounts_typeBody kind start (accounts_typeMember ih)).before fun members => ?_
      exact .behind_look (spanFrom_apply · · start) fun _ => quiet_pure _

end Declarations

section Namespaces

variable {bound : Nat} {inner : Span → Traced NamespaceDecl}

theorem accounts_namespaceItem (accounts : ∀ start, Accounts bound 2 (inner start)) :
    Accounts bound 2 (namespaceItem inner) := by
  refine .behind (.of_look nextSpan_apply) fun start => ?_
  refine .behind (.of_look fun file cursor => atWord_apply file cursor _) fun _ => ?_
  refine .behind (.of_look peekSecond_apply) fun _ => .ite (Quiet.accounts ?_) ?_
  · exact .behind forward_advance fun _ => (quiet_usingDirective start true).bind fun _ =>
      quiet_pure _
  refine .behind (.of_look atUsingDirective_apply) fun _ => .ite (Quiet.accounts ?_) ?_
  · exact (quiet_usingDirective start false).bind fun _ => quiet_pure _
  refine .behind (.of_forward (forward_eat _)) fun _ => .ite (quiet_pure _).accounts ?_
  refine .behind quiet_attributeLists fun lists => ?_
  refine .behind (.of_look fun file cursor => atWord_apply file cursor _) fun _ => ?_
  refine .ite ((accounts start).before fun _ => quiet_pure _) ?_
  refine .behind quiet_modifiers fun words => .behind (.of_look atTypeKeyword_apply) fun _ => ?_
  refine .ite ?_ (quiet_skipMember.bind fun _ => quiet_pure _).accounts
  have decl (depth : Nat) : Accounts depth 2 (do
      return some (NamespaceItem.member (.type (← typeDeclWithin depth start lists words)))) :=
    (accounts_typeDeclWithin depth start lists words).before fun _ => quiet_pure _
  exact accounts_get (fun here => (decl _).forward) fun file here _ =>
    (decl _).within file here (Nat.lt_succ_self _)

theorem accounts_namespaceBody (isBraced : Bool)
    (accounts : ∀ start, Accounts bound 2 (inner start)) :
    Accounts bound 0 (namespaceBody isBraced inner) := by
  have item := accounts_namespaceItem accounts
  refine .ite (accounts_memberLoop stopsAtEnd_atBodyEnd item _)
    (accounts_memberLoop stopsAtEnd_atEnd ?_ _)
  exact .behind (.of_forward forward_skipStrayBrace) fun _ => .ite (quiet_pure _).accounts item

/-- The name and the mark behind it leave two tokens to spare. -/
theorem accounts_namespaceDeclWithin (depth : Nat) (start : Span) :
    Accounts depth 2 (namespaceDeclWithin depth start) := by
  induction depth generalizing start with
  | zero =>
      exact ⟨forward_failExpecting _, fun file here below => absurd below (Nat.not_lt_zero _)⟩
  | succ depth ih =>
      have body (isBraced : Bool) := accounts_namespaceBody isBraced ih
      have ends (decl : Span → NamespaceDecl) : Quiet depth (do
          return decl (← spanFrom start)) :=
        .behind_look (spanFrom_apply · · start) fun _ => quiet_pure _
      have named : Uses Traced.qualifiedName.parser := by
        rw [parser_qualifiedName]
        exact uses_dottedName.bind fun _ => forward_pure _
      refine .behind (.of_forward forward_advance) fun _ =>
        .behind_use quiet_qualifiedName named fun name => ?_
      refine Accounts.mono (?_ : Accounts (depth + 1) 1 _) (Nat.le_succ depth)
      refine .behind_eat ?_ ?_
      · rw [if_pos rfl]
        exact (body false).before fun _ => ends _
      · rw [if_neg Bool.false_ne_true]
        refine .behind_use (.of_forward (forward_expect _)) (uses_expect _) fun _ =>
          (body true).before fun _ => ?_
        exact .behind (forward_closeDeclaration start) fun _ =>
          .behind (forward_eat _) fun _ => ends _

end Namespaces

/-- A whole file is accounted for, since the levels that are allowed are as many as there are
tokens. -/
theorem accounts_fileBody (bound : Nat) : Accounts bound 0 fileBody := by
  have body (depth : Nat) := accounts_namespaceBody false (accounts_namespaceDeclWithin depth)
  exact accounts_get (fun here => (body _).forward) fun file here _ =>
    (body _).within file here (Nat.lt_succ_self _)

end Traced

section Ends

variable (file : SourceFile)

/-- Recovering never fails. -/
theorem recoverFrom_ok (before : Nat) (cursor : Cursor) :
    ∃ later, recoverFrom before file cursor = .ok () later := by
  simp only [recoverFrom, skipMember_eq, bind_apply, get_apply, ite_run, advance_apply]
  split
  · exact skipBy_ok memberAction file cursor.advance
  · exact skipBy_ok memberAction file cursor

/-- A round of members never fails, whatever its member does. -/
theorem memberRound_ok {σ α : Type} {atStop : Parser Bool} {member : Parser (Option α)}
    {add : σ → α → σ} (stops : StopsAtEnd atStop) (state : σ) (cursor : Cursor) :
    ∃ outcome later, memberRound atStop member add state file cursor = .ok outcome later := by
  have read (before : Nat) (cursor : Cursor) :
      ∃ found later, memberOrRecovery member before file cursor = .ok found later := by
    unfold memberOrRecovery orElse
    cases member file cursor with
    | ok found later => exact ⟨found, later, rfl⟩
    | error diagnostic later =>
        obtain ⟨recovered, run⟩ := recoverFrom_ok file before
          { later with recorded := later.recorded ++ [diagnostic] }
        exact ⟨none, recovered, by simp only [bind_apply, record_apply, run, pure_apply]⟩
  obtain ⟨stop, stopRun, -⟩ := stops file cursor
  rw [memberRound_eq, bind_apply, stopRun]
  cases stop with
  | true => exact ⟨_, _, rfl⟩
  | false =>
      simp only [Bool.false_eq_true, if_false, bind_apply]
      rcases skipFault_apply file cursor with ⟨-, reached, -, skipped, -⟩ | ⟨-, skipped⟩
      · exact ⟨_, _, by rw [skipped]; rfl⟩
      · obtain ⟨found, reached, run⟩ := read cursor.remaining.length cursor
        simp only [skipped, Bool.false_eq_true, if_false, bind_apply, get_apply, run, stepIfStuck,
          ite_run, advance_apply, pure_apply]
        by_cases stuck : reached.remaining.length = cursor.remaining.length
        · rw [if_pos stuck]
          exact ⟨_, _, rfl⟩
        · rw [if_neg stuck]
          exact ⟨_, _, rfl⟩

/-- A file is read to its end without a failure. -/
theorem fileBody_ok (cursor : Cursor) :
    ∃ body later, fileBody file cursor = .ok body later ∧ later.remaining = [] := by
  have forward := forward_namespaceDeclWithin (cursor.remaining.length + 1)
  rw [fileBody_apply]
  obtain ⟨body, later, run⟩ := loop_ok file
    (progresses_memberRound stopsAtEnd_atEnd (forward_openItem forward))
    (memberRound_ok file stopsAtEnd_atEnd) (⟨[], []⟩ : NamespaceBody) cursor
  exact ⟨body, later, run, remaining_of_namespaceBody forward run⟩

end Ends

/-- A file is read to its end.  Each round of a loop in it, over members or over anything
else, moves on or leaves its loop, and none is broken off.  There are no more rounds of
members, theirs included, than tokens, the end marker included. -/
theorem fileBody_in_rounds (file : SourceFile) (cursor : Cursor) :
    Traced.fileBody.parser = fileBody ∧
      (∃ body later, fileBody file cursor = .ok body later ∧ later.remaining = []) ∧
      (∀ round ∈ Traced.fileBody.rounds file cursor, round.IsSound cursor) ∧
      ((Traced.fileBody.rounds file cursor).filter (·.kind = .ofMembers)).length ≤
        cursor.remaining.length + 1 := by
  obtain ⟨sound, paid⟩ :=
    (Traced.accounts_fileBody _).within file cursor (Nat.lt_succ_self _)
  refine ⟨Traced.parser_fileBody, fileBody_ok file cursor, fun round member =>
    (sound round member).1, ?_⟩
  rw [← List.countP_eq_length_filter]
  by_cases none : Traced.fileBody.memberRounds file cursor = 0
  · exact Nat.le_trans (Nat.le_of_eq none) (Nat.zero_le _)
  · have paid := paid none
    show Traced.fileBody.memberRounds file cursor ≤ _
    omega

/-- The rounds of members of a file with an empty type and a brace that closes nothing. -/
example :
    let file := SourceFile.ofText "A.cs" "class A \x7b \x7d \x7d"
    ((Traced.fileBody.rounds file (.start (Token.tokens file))).filter
      (·.kind = .ofMembers)).map (·.ending) = [.goesOn, .leaves, .goesOn, .leaves] := by
  decide +kernel

end ErrorAccessors.Parser
