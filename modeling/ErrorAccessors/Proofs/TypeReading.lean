/-
# Spellings are read

What the reader of types does on a spelling, for every depth that exceeds the
number of tokens.  The statement for a type leaves its suffixes to what comes
behind, because a suffix is read by the same loop whether it belongs to the
spelling or not.
-/

import ErrorAccessors.Proofs.TypeSpelling

namespace ErrorAccessors

open ErrorAccessors.Parser

/-- What reading a piece of a type from one cursor up to another means, when
parts nest less than `depth` levels. -/
def TypePiece.ReadAt (depth : Nat) (file : SourceFile) (cursor later : Cursor) :
    TypePiece → Prop
  | .type written =>
    cursor.remaining.length < depth → later.EndsName →
      ∃ start read, read.unplaced = written ∧
        typeWithin depth file cursor = typeSuffixes start read file later
  | .part written =>
    cursor.remaining.length ≤ depth → later.peek? 0 ≠ some (.mark .less) →
      ∃ name arguments, cursor.peek? 0 = some (.ident name) ∧
        written = ⟨name, arguments.map TypeExpr.unplaced⟩ ∧
        argumentsIfAny (typeWithin depth) file cursor.advance = .ok arguments later
  | .segments written =>
    cursor.remaining.length ≤ depth → later.EndsName → ∀ found,
      ∃ read, read.map NameSegment.unplaced = written ∧
        loop found (segmentRound (typeWithin depth)) file cursor = .ok (found ++ read) later
  | .arguments written =>
    cursor.remaining.length < depth → later.peek? 0 = some (.mark .greater) → ∀ found,
      ∃ read, read.map TypeExpr.unplaced = written ∧
        loop found (argumentRound (typeWithin depth)) file cursor = .ok (found ++ read) later
  | .element written =>
    cursor.remaining.length < depth →
    (later.peek? 0 = some (.mark .comma) ∨ later.peek? 0 = some (.mark .greater) ∨
      later.peek? 0 = some (.mark .rightParen)) →
      ∃ read reached, typeWithin depth file cursor = .ok read reached ∧
        written = ⟨read.unplaced, (reached.peek? 0).bind TokenKind.ident?⟩ ∧
        (if ((reached.peek? 0).bind TokenKind.ident?).isSome then reached.advance else reached) =
          later
  | .elements written =>
    cursor.remaining.length < depth → later.peek? 0 = some (.mark .rightParen) → ∀ found,
      ∃ read, read.map TupleElement.unplaced = written ∧
        loop found (elementRound (typeWithin depth)) file cursor = .ok (found ++ read) later
  | .noType =>
    cursor.remaining.length < depth → later.peek? 0 = some (.mark .greater) →
      ∃ diagnostic, typeWithin depth file cursor = .error diagnostic later
  | .noElements =>
    cursor.remaining.length < depth → later.peek? 0 = some (.mark .greater) → ∀ found,
      (∃ diagnostic, loop found (elementRound (typeWithin depth)) file cursor =
        .error diagnostic later) ∨
      ∃ read, loop found (elementRound (typeWithin depth)) file cursor = .ok read later

/-- Wherever tokens of the given kinds stand, reading a piece passes over just
these. -/
def TypePiece.IsRead (kinds : List TokenKind) (piece : TypePiece) : Prop :=
  ∀ (depth : Nat) (file : SourceFile) (previous : Option Token) (tokens rest : List Token)
    (recorded : List Diagnostic), tokens.map (·.kind) = kinds →
      piece.ReadAt depth file ⟨previous, tokens ++ rest, recorded⟩
        ⟨Token.lastOf previous tokens, rest, recorded⟩

/-- A dotted name begins with its first part, which nothing qualifies. -/
theorem Spells.kinds_of_segments {kinds : List TokenKind} {name : String}
    {arguments : List TypeExpr} {segments : List NameSegment}
    (spelled : Spells kinds (.segments (⟨name, arguments⟩ :: segments))) :
    ∃ more, kinds = .ident name :: more ∧ more.head? ≠ some (.mark .doubleColon) := by
  have ofPart {kinds : List TokenKind} (part : Spells kinds (.part ⟨name, arguments⟩)) :
      ∃ more, kinds = .ident name :: more ∧ more.head? ≠ some (.mark .doubleColon) := by
    cases part with
    | plainPart => exact ⟨[], rfl, by simp⟩
    | genericPart => exact ⟨_, rfl, by simp⟩
  cases spelled with
  | lastPart last => exact ofPart last
  | moreParts first rest =>
      obtain ⟨more, rfl, head⟩ := ofPart first
      refine ⟨_, rfl, ?_⟩
      cases more with
      | nil => simp
      | cons kind rest => simpa using head

/-- A dotted name begins with an identifier. -/
theorem Spells.begins_of_segments {kinds : List TokenKind} {segments : List NameSegment}
    (spelled : Spells kinds (.segments segments)) :
    ∃ name more, kinds = .ident name :: more := by
  obtain ⟨⟨name, arguments⟩, others, rfl⟩ : ∃ segment others, segments = segment :: others := by
    cases spelled with
    | lastPart => exact ⟨_, _, rfl⟩
    | moreParts => exact ⟨_, _, rfl⟩
  obtain ⟨more, begins, _⟩ := spelled.kinds_of_segments
  exact ⟨name, more, begins⟩

/-- Between angle brackets there is at least one type. -/
theorem Spells.arguments_ne_nil {kinds : List TokenKind} {types : List TypeExpr}
    (spelled : Spells kinds (.arguments types)) : types ≠ [] := by
  cases spelled with
  | lastArgument => exact List.cons_ne_nil _ _
  | moreArguments => exact List.cons_ne_nil _ _
  | lastArgumentAndNoType => exact List.cons_ne_nil _ _

section Suffixes

variable (file : SourceFile) (start : Span) (head : TypeExpr)

/-- The suffixes in front of which a type ends are none. -/
theorem typeSuffixes_of_endsType {cursor : Cursor} (ends : cursor.EndsType) :
    typeSuffixes start head file cursor = .ok head cursor := by
  show loop head (suffixRound start) file cursor = _
  rw [loop_apply file (progresses_suffixRound start), suffixRound_apply, if_neg ends.question,
    if_neg ends.star, if_neg fun h => ends.leftBracket h.1]

theorem typeSuffixes_question (previous : Option Token) {token : Token} (rest : List Token)
    (recorded : List Diagnostic) (kind : token.kind = .mark .question) :
    ∃ span, typeSuffixes start head file ⟨previous, token :: rest, recorded⟩ =
      typeSuffixes start (.nullable head span) file ⟨some token, rest, recorded⟩ := by
  show ∃ span, loop head (suffixRound start) file _ = _
  rw [loop_apply file (progresses_suffixRound start), suffixRound_apply, Cursor.peek?_zero_cons,
    kind, if_pos rfl]
  exact ⟨_, rfl⟩

theorem typeSuffixes_star (previous : Option Token) {token : Token} (rest : List Token)
    (recorded : List Diagnostic) (kind : token.kind = .mark .star) :
    ∃ span, typeSuffixes start head file ⟨previous, token :: rest, recorded⟩ =
      typeSuffixes start (.pointer head span) file ⟨some token, rest, recorded⟩ := by
  show ∃ span, loop head (suffixRound start) file _ = _
  rw [loop_apply file (progresses_suffixRound start), suffixRound_apply, Cursor.peek?_zero_cons,
    kind, if_neg (by simp), if_pos rfl]
  exact ⟨_, rfl⟩

/-- The dimensions of an array are counted by the commas. -/
theorem loop_rankRound (rank count : Nat) (previous : Option Token) {commas rest : List Token}
    (recorded : List Diagnostic)
    (kinds : commas.map (·.kind) = List.replicate count (.mark .comma))
    (ends : (Cursor.mk (Token.lastOf previous commas) rest recorded).peek? 0 ≠
      some (.mark .comma)) :
    loop rank rankRound file ⟨previous, commas ++ rest, recorded⟩ =
      .ok (rank + count) ⟨Token.lastOf previous commas, rest, recorded⟩ := by
  induction count generalizing rank previous commas with
  | zero =>
      obtain rfl : commas = [] := List.map_eq_nil_iff.mp kinds
      rw [Token.lastOf_nil] at ends
      rw [loop_apply file progresses_rankRound, rankRound_apply, List.nil_append, if_neg ends]
      rfl
  | succ count ih =>
      rw [List.replicate_succ, List.map_eq_cons_iff] at kinds
      obtain ⟨comma, others, rfl, kind, kinds⟩ := kinds
      rw [loop_apply file progresses_rankRound, rankRound_apply, List.cons_append,
        Cursor.peek?_zero_cons, kind, if_pos rfl]
      simp only [Cursor.advance_cons]
      rw [ih (rank + 1) (some comma) kinds ends, Nat.add_right_comm, Nat.add_assoc]
      rfl

/-- Behind an opening bracket that begins a suffix the dimensions are counted. -/
theorem suffixRound_bracket (count : Nat) (previous : Option Token) {opening : Token}
    {commas rest : List Token} (recorded : List Diagnostic)
    (kind : opening.kind = .mark .leftBracket)
    (kinds : commas.map (·.kind) = List.replicate count (.mark .comma))
    (begins : 0 < count ∨
      (Cursor.mk (some opening) rest recorded).peek? 0 = some (.mark .rightBracket))
    (ends : (Cursor.mk (Token.lastOf (some opening) commas) rest recorded).peek? 0 ≠
      some (.mark .comma)) :
    suffixRound start head file ⟨previous, opening :: (commas ++ rest), recorded⟩ =
      let later : Cursor := ⟨Token.lastOf (some opening) commas, rest, recorded⟩
      if later.peek? 0 = some (.mark .rightBracket) then
        .ok (.yield (.array head (1 + count) (later.advance.spanFrom start))) later.advance
      else .error (later.unexpected file "`]`") later := by
  have second : (Cursor.mk previous (opening :: (commas ++ rest)) recorded).peek? 1 =
        some (.mark .rightBracket) ∨
      (Cursor.mk previous (opening :: (commas ++ rest)) recorded).peek? 1 =
        some (.mark .comma) := by
    cases count with
    | zero =>
        obtain rfl : commas = [] := List.map_eq_nil_iff.mp kinds
        exact .inl (begins.resolve_left (Nat.lt_irrefl 0))
    | succ count =>
        rw [List.replicate_succ, List.map_eq_cons_iff] at kinds
        obtain ⟨comma, others, rfl, kind, -⟩ := kinds
        exact .inr (congrArg some kind)
  rw [suffixRound_apply, Cursor.peek?_zero_cons, kind, if_neg (by simp), if_neg (by simp),
    if_pos ⟨rfl, second⟩, Cursor.advance_cons, loop_rankRound file 1 count _ recorded kinds ends]

theorem typeSuffixes_array (count : Nat) (previous : Option Token) {opening closing : Token}
    {commas : List Token} (rest : List Token) (recorded : List Diagnostic)
    (kind : opening.kind = .mark .leftBracket)
    (kinds : commas.map (·.kind) = List.replicate count (.mark .comma))
    (closes : closing.kind = .mark .rightBracket) :
    ∃ span,
      typeSuffixes start head file
          ⟨previous, opening :: (commas ++ closing :: rest), recorded⟩ =
        typeSuffixes start (.array head (1 + count) span) file ⟨some closing, rest, recorded⟩ := by
  have begins : 0 < count ∨ (Cursor.mk (some opening) (closing :: rest) recorded).peek? 0 =
      some (.mark .rightBracket) := .inr (congrArg some closes)
  show ∃ span, loop head (suffixRound start) file _ = _
  rw [loop_apply file (progresses_suffixRound start),
    suffixRound_bracket file start head count previous recorded kind kinds begins
      (by simp [closes])]
  simp only [Cursor.peek?_zero_cons, closes, if_true]
  exact ⟨_, rfl⟩

theorem typeSuffixes_openArray (count : Nat) (previous : Option Token) {opening : Token}
    {commas rest : List Token} (recorded : List Diagnostic)
    (kind : opening.kind = .mark .leftBracket)
    (kinds : commas.map (·.kind) = List.replicate (count + 1) (.mark .comma))
    (next : (Cursor.mk (Token.lastOf (some opening) commas) rest recorded).peek? 0 =
      some (.mark .greater)) :
    ∃ diagnostic,
      typeSuffixes start head file ⟨previous, opening :: (commas ++ rest), recorded⟩ =
        .error diagnostic ⟨Token.lastOf (some opening) commas, rest, recorded⟩ := by
  show ∃ diagnostic, loop head (suffixRound start) file _ = _
  rw [loop_apply file (progresses_suffixRound start),
    suffixRound_bracket file start head (count + 1) previous recorded kind kinds
      (.inl (Nat.succ_pos _)) (by simp [next])]
  simp only [next, Option.some.injEq, TokenKind.mark.injEq, reduceCtorEq, if_false]
  exact ⟨_, rfl⟩

end Suffixes

namespace TypePiece

variable {kinds more : List TokenKind}

/-- A type is read as a whole where nothing continues it. -/
theorem ReadAt.ok {depth : Nat} {file : SourceFile} {cursor later : Cursor} {written : TypeExpr}
    (isRead : (type written).ReadAt depth file cursor later)
    (enough : cursor.remaining.length < depth) (ends : later.EndsType) :
    ∃ read, read.unplaced = written ∧ typeWithin depth file cursor = .ok read later := by
  obtain ⟨start, read, same, run⟩ := isRead enough ends.toEndsName
  exact ⟨read, same, by rw [run, typeSuffixes_of_endsType file start read ends]⟩

private theorem isRead_keyword {name : String} (known : name ∈ TypeExpr.keywords) :
    IsRead [.ident name] (.type (.predefined name .nowhere)) := by
  intro depth file previous tokens rest recorded spelled enough _
  obtain ⟨token, others, rfl, kind, spelled⟩ := List.map_eq_cons_iff.mp spelled
  obtain rfl := List.map_eq_nil_iff.mp spelled
  obtain ⟨depth, rfl⟩ : ∃ less, depth = less + 1 := ⟨depth - 1, by omega⟩
  refine ⟨token.span, .predefined name token.span, by simp, ?_⟩
  rw [typeWithin_apply]
  simp [kind, TokenKind.ident?, known, Cursor.nextSpan]

private theorem isRead_named {name : String} {arguments : List TypeExpr}
    {segments : List NameSegment} (isName : name ∉ TypeExpr.keywords)
    (spells : Spells kinds (.segments (⟨name, arguments⟩ :: segments)))
    (isRead : IsRead kinds (.segments (⟨name, arguments⟩ :: segments))) :
    IsRead kinds (.type (.named none (⟨name, arguments⟩ :: segments) .nowhere)) := by
  intro depth file previous tokens rest recorded spelled enough ends
  obtain ⟨depth, rfl⟩ : ∃ less, depth = less + 1 := ⟨depth - 1, by omega⟩
  obtain ⟨behind, rfl, unqualified⟩ := spells.kinds_of_segments
  obtain ⟨read, same, run⟩ := isRead depth file previous tokens rest recorded spelled
    (Nat.le_of_lt_succ enough) ends []
  obtain ⟨token, others, rfl, kind, spelled⟩ := List.map_eq_cons_iff.mp spelled
  have second : (Cursor.mk previous (token :: (others ++ rest)) recorded).peek? 1 ≠
      some (.mark .doubleColon) := by
    cases others with
    | nil => exact ends.doubleColon
    | cons other others =>
        rw [← spelled] at unqualified
        simpa using unqualified
  let later : Cursor := ⟨Token.lastOf previous (token :: others), rest, recorded⟩
  refine ⟨token.span, .named none read (later.spanFrom token.span),
    by rw [TypeExpr.unplaced_named, same], ?_⟩
  have segmentsRead : nameSegments (typeWithin depth) file
      ⟨previous, token :: (others ++ rest), recorded⟩ = .ok ([] ++ read) later := run
  rw [List.cons_append, typeWithin_apply, namedType_apply, if_neg second, segmentsRead]
  simp [kind, TokenKind.ident?, isName, Cursor.nextSpan, later]

private theorem isRead_qualified {qualifier : String} {segments : List NameSegment}
    (isName : qualifier ∉ TypeExpr.keywords)
    (isRead : IsRead kinds (.segments segments)) :
    IsRead (.ident qualifier :: .mark .doubleColon :: kinds)
      (.type (.named (some qualifier) segments .nowhere)) := by
  intro depth file previous tokens rest recorded spelled enough ends
  obtain ⟨depth, rfl⟩ : ∃ less, depth = less + 1 := ⟨depth - 1, by omega⟩
  obtain ⟨token, others, rfl, kind, spelled⟩ := List.map_eq_cons_iff.mp spelled
  obtain ⟨colons, others, rfl, colonsKind, spelled⟩ := List.map_eq_cons_iff.mp spelled
  have lessTokens : (others ++ rest).length ≤ depth := by
    simp only [List.length_append, List.length_cons] at enough ⊢
    omega
  obtain ⟨read, same, run⟩ := isRead depth file (some colons) others rest recorded spelled
    lessTokens ends []
  let later : Cursor := ⟨Token.lastOf (some colons) others, rest, recorded⟩
  refine ⟨token.span, .named (some qualifier) read (later.spanFrom token.span),
    by rw [TypeExpr.unplaced_named, same], ?_⟩
  have segmentsRead : nameSegments (typeWithin depth) file
      ⟨some colons, others ++ rest, recorded⟩ = .ok ([] ++ read) later := run
  rw [List.cons_append, List.cons_append, typeWithin_apply, namedType_apply]
  simp [kind, colonsKind, TokenKind.ident?, isName, Cursor.nextSpan, segmentsRead, later]

private theorem isRead_tuple {elements : List TupleElement}
    (isRead : IsRead kinds (.elements elements)) :
    IsRead (.mark .leftParen :: (kinds ++ [.mark .rightParen]))
      (.type (.tuple elements .nowhere)) := by
  intro depth file previous tokens rest recorded spelled enough _
  obtain ⟨depth, rfl⟩ : ∃ less, depth = less + 1 := ⟨depth - 1, by omega⟩
  obtain ⟨opening, others, rfl, kind, spelled⟩ := List.map_eq_cons_iff.mp spelled
  obtain ⟨inner, others, rfl, within, closed⟩ := List.map_eq_append_iff.mp spelled
  obtain ⟨closing, others, rfl, closes, closed⟩ := List.map_eq_cons_iff.mp closed
  obtain rfl := List.map_eq_nil_iff.mp closed
  have lessTokens : (inner ++ closing :: rest).length < depth := by
    simp only [List.length_append, List.length_cons, List.length_nil] at enough ⊢
    omega
  obtain ⟨read, same, run⟩ := isRead depth file (some opening) inner (closing :: rest) recorded
    within lessTokens (congrArg some closes) []
  let later : Cursor := ⟨some closing, rest, recorded⟩
  refine ⟨opening.span, .tuple read (later.spanFrom opening.span),
    by rw [TypeExpr.unplaced_tuple, same], ?_⟩
  have tokensAre :
      opening :: (inner ++ [closing]) ++ rest = opening :: (inner ++ closing :: rest) := by
    simp
  rw [tokensAre, typeWithin_apply, tupleType_apply, Cursor.advance_cons, run]
  simp [kind, closes, Cursor.nextSpan, later]

private theorem isRead_nullable {written : TypeExpr} (isRead : IsRead kinds (.type written)) :
    IsRead (kinds ++ [.mark .question]) (.type (.nullable written .nowhere)) := by
  intro depth file previous tokens rest recorded spelled enough _
  obtain ⟨inner, others, rfl, within, suffix⟩ := List.map_eq_append_iff.mp spelled
  obtain ⟨mark, others, rfl, kind, suffix⟩ := List.map_eq_cons_iff.mp suffix
  obtain rfl := List.map_eq_nil_iff.mp suffix
  rw [List.append_assoc] at enough ⊢
  have ends : (Cursor.mk (Token.lastOf previous inner) (mark :: rest) recorded).EndsName :=
    ⟨by simp [kind], by simp [kind], by simp [kind]⟩
  obtain ⟨start, read, same, run⟩ :=
    isRead depth file previous inner (mark :: rest) recorded within enough ends
  obtain ⟨span, suffixed⟩ := typeSuffixes_question file start read (Token.lastOf previous inner)
    rest recorded kind
  refine ⟨start, .nullable read span, by rw [TypeExpr.unplaced_nullable, same], ?_⟩
  rw [List.singleton_append, run, suffixed, Token.lastOf_append]
  rfl

private theorem isRead_pointer {written : TypeExpr} (isRead : IsRead kinds (.type written)) :
    IsRead (kinds ++ [.mark .star]) (.type (.pointer written .nowhere)) := by
  intro depth file previous tokens rest recorded spelled enough _
  obtain ⟨inner, others, rfl, within, suffix⟩ := List.map_eq_append_iff.mp spelled
  obtain ⟨mark, others, rfl, kind, suffix⟩ := List.map_eq_cons_iff.mp suffix
  obtain rfl := List.map_eq_nil_iff.mp suffix
  rw [List.append_assoc] at enough ⊢
  have ends : (Cursor.mk (Token.lastOf previous inner) (mark :: rest) recorded).EndsName :=
    ⟨by simp [kind], by simp [kind], by simp [kind]⟩
  obtain ⟨start, read, same, run⟩ :=
    isRead depth file previous inner (mark :: rest) recorded within enough ends
  obtain ⟨span, suffixed⟩ := typeSuffixes_star file start read (Token.lastOf previous inner)
    rest recorded kind
  refine ⟨start, .pointer read span, by rw [TypeExpr.unplaced_pointer, same], ?_⟩
  rw [List.singleton_append, run, suffixed, Token.lastOf_append]
  rfl

private theorem isRead_array {written : TypeExpr} (commas : Nat)
    (isRead : IsRead kinds (.type written)) :
    IsRead (kinds ++ .mark .leftBracket ::
        (List.replicate commas (.mark .comma) ++ [.mark .rightBracket]))
      (.type (.array written (1 + commas) .nowhere)) := by
  intro depth file previous tokens rest recorded spelled enough _
  obtain ⟨inner, others, rfl, within, suffix⟩ := List.map_eq_append_iff.mp spelled
  obtain ⟨opening, others, rfl, kind, suffix⟩ := List.map_eq_cons_iff.mp suffix
  obtain ⟨between, others, rfl, counted, closed⟩ := List.map_eq_append_iff.mp suffix
  obtain ⟨closing, others, rfl, closes, closed⟩ := List.map_eq_cons_iff.mp closed
  obtain rfl := List.map_eq_nil_iff.mp closed
  have tokensAre : inner ++ opening :: (between ++ [closing]) ++ rest =
      inner ++ opening :: (between ++ closing :: rest) := by
    simp
  rw [tokensAre] at enough ⊢
  have ends : (Cursor.mk (Token.lastOf previous inner) (opening :: (between ++ closing :: rest))
      recorded).EndsName := ⟨by simp [kind], by simp [kind], by simp [kind]⟩
  obtain ⟨start, read, same, run⟩ := isRead depth file previous inner _ recorded within enough ends
  obtain ⟨span, suffixed⟩ := typeSuffixes_array file start read commas
    (Token.lastOf previous inner) rest recorded kind counted closes
  refine ⟨start, .array read (1 + commas) span, by rw [TypeExpr.unplaced_array, same], ?_⟩
  rw [run, suffixed]
  simp

private theorem isRead_plainPart (name : String) : IsRead [.ident name] (.part ⟨name, []⟩) := by
  intro depth file previous tokens rest recorded spelled _ ends
  obtain ⟨token, others, rfl, kind, spelled⟩ := List.map_eq_cons_iff.mp spelled
  obtain rfl := List.map_eq_nil_iff.mp spelled
  refine ⟨name, [], congrArg some kind, rfl, ?_⟩
  exact (argumentsIfAny_apply _ file _).trans (if_neg ends)

private theorem isRead_genericPart (name : String) {arguments : List TypeExpr}
    (spells : Spells kinds (.arguments arguments)) (isRead : IsRead kinds (.arguments arguments)) :
    IsRead (.ident name :: .mark .less :: (kinds ++ [.mark .greater]))
      (.part ⟨name, arguments⟩) := by
  intro depth file previous tokens rest recorded spelled enough _
  obtain ⟨token, others, rfl, kind, spelled⟩ := List.map_eq_cons_iff.mp spelled
  obtain ⟨opening, others, rfl, opens, spelled⟩ := List.map_eq_cons_iff.mp spelled
  obtain ⟨inner, others, rfl, within, closed⟩ := List.map_eq_append_iff.mp spelled
  obtain ⟨closing, others, rfl, closes, closed⟩ := List.map_eq_cons_iff.mp closed
  obtain rfl := List.map_eq_nil_iff.mp closed
  have lessTokens : (inner ++ closing :: rest).length < depth := by
    simp only [List.length_append, List.length_cons, List.length_nil] at enough ⊢
    omega
  obtain ⟨read, same, run⟩ := isRead depth file (some opening) inner (closing :: rest) recorded
    within lessTokens (congrArg some closes) []
  refine ⟨name, read, congrArg some kind, by rw [same], ?_⟩
  have nonempty : read ≠ [] := by
    rintro rfl
    exact spells.arguments_ne_nil same.symm
  have tokensAre : token :: opening :: (inner ++ [closing]) ++ rest =
      token :: opening :: (inner ++ closing :: rest) := by
    simp
  rw [tokensAre, Cursor.advance_cons, argumentsIfAny_apply, Cursor.peek?_zero_cons,
    if_pos (congrArg some opens), typeArguments_apply, Cursor.advance_cons, run]
  simp [nonempty, closes]

private theorem isRead_lastPart {segment : NameSegment} (isRead : IsRead kinds (.part segment)) :
    IsRead kinds (.segments [segment]) := by
  intro depth file previous tokens rest recorded spelled enough ends found
  obtain ⟨name, arguments, begins, rfl, run⟩ :=
    isRead depth file previous tokens rest recorded spelled enough ends.less
  refine ⟨[⟨name, arguments⟩], rfl,
    loop_of_done file (progresses_segmentRound (forward_typeWithin depth)) ?_⟩
  rw [segmentRound_apply, begins]
  simp only [Option.bind_some, TokenKind.ident?, run]
  exact if_neg fun h => ends.dot h.1

private theorem isRead_moreParts {segment : NameSegment} {segments : List NameSegment}
    (first : IsRead kinds (.part segment)) (spells : Spells more (.segments segments))
    (behind : IsRead more (.segments segments)) :
    IsRead (kinds ++ .mark .dot :: more) (.segments (segment :: segments)) := by
  intro depth file previous tokens rest recorded spelled enough ends found
  obtain ⟨part, others, rfl, within, behindPart⟩ := List.map_eq_append_iff.mp spelled
  obtain ⟨dot, others, rfl, kind, spelled⟩ := List.map_eq_cons_iff.mp behindPart
  rw [List.append_assoc, List.cons_append] at enough ⊢
  let atDot : Cursor := ⟨Token.lastOf previous part, dot :: (others ++ rest), recorded⟩
  have notLess : atDot.peek? 0 ≠ some (.mark .less) := by simp [atDot, kind]
  obtain ⟨name, arguments, begins, rfl, run⟩ :=
    first depth file previous part (dot :: (others ++ rest)) recorded within enough notLess
  have lessTokens : (others ++ rest).length ≤ depth := by
    simp only [List.length_append, List.length_cons] at enough ⊢
    omega
  rw [Token.lastOf_append, Token.lastOf_cons] at ends ⊢
  obtain ⟨read, same, rounds⟩ := behind depth file (some dot) others rest recorded spelled
    lessTokens ends (found ++ [⟨name, arguments⟩])
  refine ⟨⟨name, arguments⟩ :: read, by rw [List.map_cons, same]; rfl, ?_⟩
  have goesOn : atDot.peek? 0 = some (.mark .dot) ∧
      (atDot.peek? 1).any TokenKind.isIdent = true := by
    obtain ⟨word, kindsBehind, rfl⟩ := spells.begins_of_segments
    obtain ⟨token, others, rfl, named, _⟩ := List.map_eq_cons_iff.mp spelled
    simp [atDot, kind, named, TokenKind.isIdent, TokenKind.ident?]
  have round : segmentRound (typeWithin depth) found file
      ⟨previous, part ++ dot :: (others ++ rest), recorded⟩ =
        .ok (.yield (found ++ [⟨name, arguments⟩])) ⟨some dot, others ++ rest, recorded⟩ := by
    rw [segmentRound_apply, begins]
    simp only [Option.bind_some, TokenKind.ident?, run]
    exact if_pos goesOn
  rw [loop_of_yield file (progresses_segmentRound (forward_typeWithin depth)) round, rounds,
    List.append_assoc]
  rfl

private theorem isRead_lastArgument {written : TypeExpr} (isRead : IsRead kinds (.type written)) :
    IsRead kinds (.arguments [written]) := by
  intro depth file previous tokens rest recorded spelled enough next found
  obtain ⟨read, same, run⟩ := (isRead depth file previous tokens rest recorded spelled).ok enough
    (.of_kind next (.inr (.inl rfl)))
  refine ⟨[read], by rw [List.map_singleton, same],
    loop_of_done file (progresses_argumentRound (forward_typeWithin depth)) ?_⟩
  rw [argumentRound_apply, run]
  exact if_neg (by simp [next])

/-- A type in front of a comma is one of several arguments. -/
private theorem argumentRound_comma {written : TypeExpr} {depth : Nat} (file : SourceFile)
    (previous : Option Token) {tokens rest : List Token} {comma : Token}
    (recorded : List Diagnostic) (isRead : IsRead kinds (.type written))
    (spelled : tokens.map (·.kind) = kinds) (kind : comma.kind = .mark .comma)
    (enough : (tokens ++ comma :: rest).length < depth) (found : List TypeExpr) :
    ∃ read, read.unplaced = written ∧
      loop found (argumentRound (typeWithin depth)) file
          ⟨previous, tokens ++ comma :: rest, recorded⟩ =
        loop (found ++ [read]) (argumentRound (typeWithin depth)) file
          ⟨some comma, rest, recorded⟩ := by
  have next : (Cursor.mk (Token.lastOf previous tokens) (comma :: rest) recorded).peek? 0 =
      some (.mark .comma) := congrArg some kind
  obtain ⟨read, same, run⟩ :=
    (isRead depth file previous tokens (comma :: rest) recorded spelled).ok enough
      (.of_kind next (.inl rfl))
  refine ⟨read, same,
    loop_of_yield file (progresses_argumentRound (forward_typeWithin depth)) ?_⟩
  rw [argumentRound_apply, run]
  exact if_pos next

private theorem isRead_moreArguments {written : TypeExpr} {types : List TypeExpr}
    (first : IsRead kinds (.type written)) (behind : IsRead more (.arguments types)) :
    IsRead (kinds ++ .mark .comma :: more) (.arguments (written :: types)) := by
  intro depth file previous tokens rest recorded spelled enough next found
  obtain ⟨before, others, rfl, within, spelled⟩ := List.map_eq_append_iff.mp spelled
  obtain ⟨comma, others, rfl, kind, behindComma⟩ := List.map_eq_cons_iff.mp spelled
  rw [List.append_assoc, List.cons_append] at enough ⊢
  rw [Token.lastOf_append, Token.lastOf_cons] at next ⊢
  obtain ⟨one, sameOne, round⟩ := argumentRound_comma file previous recorded first within
    kind enough found
  have lessTokens : (others ++ rest).length < depth := by
    simp only [List.length_append, List.length_cons] at enough ⊢
    omega
  obtain ⟨read, same, rounds⟩ := behind depth file (some comma) others rest recorded behindComma
    lessTokens next (found ++ [one])
  refine ⟨one :: read, by rw [List.map_cons, sameOne, same], ?_⟩
  rw [round, rounds, List.append_assoc]
  rfl

private theorem isRead_lastArgumentAndNoType {written : TypeExpr}
    (first : IsRead kinds (.type written)) (behind : IsRead more .noType) :
    IsRead (kinds ++ .mark .comma :: more) (.arguments [written]) := by
  intro depth file previous tokens rest recorded spelled enough next found
  obtain ⟨before, others, rfl, within, spelled⟩ := List.map_eq_append_iff.mp spelled
  obtain ⟨comma, others, rfl, kind, behindComma⟩ := List.map_eq_cons_iff.mp spelled
  rw [List.append_assoc, List.cons_append] at enough ⊢
  rw [Token.lastOf_append, Token.lastOf_cons] at next ⊢
  obtain ⟨one, sameOne, round⟩ := argumentRound_comma file previous recorded first within
    kind enough found
  have lessTokens : (others ++ rest).length < depth := by
    simp only [List.length_append, List.length_cons] at enough ⊢
    omega
  obtain ⟨diagnostic, failed⟩ :=
    behind depth file (some comma) others rest recorded behindComma lessTokens next
  refine ⟨[one], by rw [List.map_singleton, sameOne], ?_⟩
  rw [round]
  refine loop_of_done file (progresses_argumentRound (forward_typeWithin depth)) ?_
  rw [argumentRound_apply, failed]

private theorem isRead_element {written : TypeExpr} (name : Option String)
    (isRead : IsRead kinds (.type written)) :
    IsRead (kinds ++ name.toList.map .ident) (.element ⟨written, name⟩) := by
  intro depth file previous tokens rest recorded spelled enough next
  obtain ⟨before, others, rfl, within, named⟩ := List.map_eq_append_iff.mp spelled
  rw [List.append_assoc] at enough ⊢
  rw [Token.lastOf_append] at next ⊢
  cases name with
  | none =>
      obtain rfl := List.map_eq_nil_iff.mp named
      let later : Cursor := ⟨Token.lastOf previous before, rest, recorded⟩
      have ends : later.EndsType := by
        rcases next with comma | greater | paren
        · exact .of_kind comma (.inl rfl)
        · exact .of_kind greater (.inr (.inl rfl))
        · exact .of_kind paren (.inr (.inr (.inl rfl)))
      have unnamed : (later.peek? 0).bind TokenKind.ident? = none := by
        rcases next with comma | greater | paren
        · exact congrArg (Option.bind · TokenKind.ident?) comma
        · exact congrArg (Option.bind · TokenKind.ident?) greater
        · exact congrArg (Option.bind · TokenKind.ident?) paren
      obtain ⟨read, same, run⟩ :=
        (isRead depth file previous before rest recorded within).ok enough ends
      refine ⟨read, later, run, ?_, ?_⟩
      · rw [unnamed, same]
      · rw [unnamed]
        rfl
  | some word =>
      obtain ⟨token, others, rfl, kind, named⟩ := List.map_eq_cons_iff.mp named
      obtain rfl := List.map_eq_nil_iff.mp named
      let reached : Cursor := ⟨Token.lastOf previous before, token :: rest, recorded⟩
      have nextKind : reached.peek? 0 = some (.ident word) := congrArg some kind
      obtain ⟨read, same, run⟩ :=
        (isRead depth file previous before (token :: rest) recorded within).ok enough
          (.of_kind nextKind (.inr (.inr (.inr rfl))))
      refine ⟨read, reached, run, ?_, ?_⟩
      · rw [nextKind, same]
        rfl
      · rw [nextKind]
        rfl

/-- An element in front of a comma is one of several. -/
private theorem elementRound_comma {written : TupleElement} {depth : Nat} (file : SourceFile)
    (previous : Option Token) {tokens rest : List Token} {comma : Token}
    (recorded : List Diagnostic) (isRead : IsRead kinds (.element written))
    (spelled : tokens.map (·.kind) = kinds) (kind : comma.kind = .mark .comma)
    (enough : (tokens ++ comma :: rest).length < depth) (found : List TupleElement) :
    ∃ read : TupleElement, read.unplaced = written ∧
      loop found (elementRound (typeWithin depth)) file
          ⟨previous, tokens ++ comma :: rest, recorded⟩ =
        loop (found ++ [read]) (elementRound (typeWithin depth)) file
          ⟨some comma, rest, recorded⟩ := by
  have next : (Cursor.mk (Token.lastOf previous tokens) (comma :: rest) recorded).peek? 0 =
      some (.mark .comma) := congrArg some kind
  obtain ⟨read, reached, run, rfl, behind⟩ :=
    isRead depth file previous tokens (comma :: rest) recorded spelled enough (.inl next)
  refine ⟨⟨read, (reached.peek? 0).bind TokenKind.ident?⟩, rfl,
    loop_of_yield file (progresses_elementRound (forward_typeWithin depth)) ?_⟩
  rw [elementRound_apply, run]
  simp only [behind]
  exact if_pos next

/-- An element in front of a closing bracket is the last one. -/
private theorem elementRound_last {written : TupleElement} {depth : Nat} (file : SourceFile)
    (previous : Option Token) {tokens rest : List Token} (recorded : List Diagnostic)
    (isRead : IsRead kinds (.element written)) (spelled : tokens.map (·.kind) = kinds)
    (next : (Cursor.mk (Token.lastOf previous tokens) rest recorded).peek? 0 =
        some (.mark .greater) ∨
      (Cursor.mk (Token.lastOf previous tokens) rest recorded).peek? 0 =
        some (.mark .rightParen))
    (enough : (tokens ++ rest).length < depth) (found : List TupleElement) :
    ∃ read : TupleElement, read.unplaced = written ∧
      loop found (elementRound (typeWithin depth)) file ⟨previous, tokens ++ rest, recorded⟩ =
        .ok (found ++ [read]) ⟨Token.lastOf previous tokens, rest, recorded⟩ := by
  obtain ⟨read, reached, run, rfl, behind⟩ :=
    isRead depth file previous tokens rest recorded spelled enough (.inr next)
  refine ⟨⟨read, (reached.peek? 0).bind TokenKind.ident?⟩, rfl,
    loop_of_done file (progresses_elementRound (forward_typeWithin depth)) ?_⟩
  rw [elementRound_apply, run]
  simp only [behind]
  refine if_neg ?_
  rcases next with greater | paren
  · simp [greater]
  · simp [paren]

private theorem isRead_lastElement {written : TupleElement}
    (isRead : IsRead kinds (.element written)) : IsRead kinds (.elements [written]) := by
  intro depth file previous tokens rest recorded spelled enough next found
  obtain ⟨read, same, run⟩ :=
    elementRound_last file previous recorded isRead spelled (.inr next) enough found
  exact ⟨[read], by rw [List.map_singleton, same], run⟩

private theorem isRead_moreElements {written : TupleElement} {elements : List TupleElement}
    (first : IsRead kinds (.element written)) (behind : IsRead more (.elements elements)) :
    IsRead (kinds ++ .mark .comma :: more) (.elements (written :: elements)) := by
  intro depth file previous tokens rest recorded spelled enough next found
  obtain ⟨before, others, rfl, within, spelled⟩ := List.map_eq_append_iff.mp spelled
  obtain ⟨comma, others, rfl, kind, behindComma⟩ := List.map_eq_cons_iff.mp spelled
  rw [List.append_assoc, List.cons_append] at enough ⊢
  rw [Token.lastOf_append, Token.lastOf_cons] at next ⊢
  obtain ⟨one, sameOne, round⟩ := elementRound_comma file previous recorded first within
    kind enough found
  have lessTokens : (others ++ rest).length < depth := by
    simp only [List.length_append, List.length_cons] at enough ⊢
    omega
  obtain ⟨read, same, rounds⟩ := behind depth file (some comma) others rest recorded behindComma
    lessTokens next (found ++ [one])
  refine ⟨one :: read, by rw [List.map_cons, sameOne, same], ?_⟩
  rw [round, rounds, List.append_assoc]
  rfl

private theorem isRead_nothing : IsRead [] .noType := by
  intro depth file previous tokens rest recorded spelled enough next
  obtain rfl := List.map_eq_nil_iff.mp spelled
  obtain ⟨depth, rfl⟩ : ∃ less, depth = less + 1 := ⟨depth - 1, by omega⟩
  rw [Token.lastOf_nil] at next ⊢
  rw [List.nil_append, typeWithin_apply, next]
  exact ⟨_, rfl⟩

private theorem isRead_qualifierOnly {qualifier : String}
    (isName : qualifier ∉ TypeExpr.keywords) :
    IsRead [.ident qualifier, .mark .doubleColon] .noType := by
  intro depth file previous tokens rest recorded spelled enough next
  obtain ⟨depth, rfl⟩ : ∃ less, depth = less + 1 := ⟨depth - 1, by omega⟩
  obtain ⟨token, others, rfl, kind, spelled⟩ := List.map_eq_cons_iff.mp spelled
  obtain ⟨colons, others, rfl, colonsKind, spelled⟩ := List.map_eq_cons_iff.mp spelled
  obtain rfl := List.map_eq_nil_iff.mp spelled
  let atMark : Cursor := ⟨some colons, rest, recorded⟩
  have segmentsFail : nameSegments (typeWithin depth) file atMark =
      .error (atMark.unexpected file "identifier") atMark := by
    refine loop_of_error file (progresses_segmentRound (forward_typeWithin depth)) ?_
    have noName : atMark.peek? 0 = some (.mark .greater) := next
    rw [segmentRound_apply, noName]
    rfl
  refine ⟨atMark.unexpected file "identifier", ?_⟩
  rw [List.cons_append, List.cons_append, typeWithin_apply, namedType_apply]
  simp [kind, colonsKind, TokenKind.ident?, isName, segmentsFail, atMark]

private theorem isRead_openTuple (isRead : IsRead kinds .noElements) :
    IsRead (.mark .leftParen :: kinds) .noType := by
  intro depth file previous tokens rest recorded spelled enough next
  obtain ⟨depth, rfl⟩ : ∃ less, depth = less + 1 := ⟨depth - 1, by omega⟩
  obtain ⟨opening, others, rfl, kind, spelled⟩ := List.map_eq_cons_iff.mp spelled
  rw [Token.lastOf_cons] at next ⊢
  have rounds := isRead depth file (some opening) others rest recorded spelled
    (Nat.lt_of_succ_lt_succ enough) next []
  rw [List.cons_append, typeWithin_apply, tupleType_apply, Cursor.peek?_zero_cons, kind,
    if_pos rfl, Cursor.advance_cons]
  rcases rounds with ⟨diagnostic, failed⟩ | ⟨read, done⟩
  · rw [failed]
    exact ⟨diagnostic, rfl⟩
  · rw [done]
    simp only [next, Option.some.injEq, TokenKind.mark.injEq, reduceCtorEq, if_false]
    exact ⟨_, rfl⟩

private theorem isRead_openArray {written : TypeExpr} (commas : Nat)
    (isRead : IsRead kinds (.type written)) :
    IsRead (kinds ++ .mark .leftBracket :: List.replicate (commas + 1) (.mark .comma))
      .noType := by
  intro depth file previous tokens rest recorded spelled enough next
  obtain ⟨inner, others, rfl, within, suffix⟩ := List.map_eq_append_iff.mp spelled
  obtain ⟨opening, others, rfl, kind, counted⟩ := List.map_eq_cons_iff.mp suffix
  rw [List.append_assoc, List.cons_append] at enough ⊢
  rw [Token.lastOf_append, Token.lastOf_cons] at next ⊢
  have ends : (Cursor.mk (Token.lastOf previous inner) (opening :: (others ++ rest))
      recorded).EndsName := ⟨by simp [kind], by simp [kind], by simp [kind]⟩
  obtain ⟨start, read, -, run⟩ := isRead depth file previous inner _ recorded within enough ends
  obtain ⟨diagnostic, failed⟩ := typeSuffixes_openArray file start read commas
    (Token.lastOf previous inner) recorded kind counted next
  exact ⟨diagnostic, by rw [run, failed]⟩

private theorem isRead_unclosedElement {written : TupleElement}
    (isRead : IsRead kinds (.element written)) : IsRead kinds .noElements := by
  intro depth file previous tokens rest recorded spelled enough next found
  obtain ⟨read, -, run⟩ :=
    elementRound_last file previous recorded isRead spelled (.inl next) enough found
  exact .inr ⟨found ++ [read], run⟩

private theorem isRead_noElement (isRead : IsRead kinds .noType) : IsRead kinds .noElements := by
  intro depth file previous tokens rest recorded spelled enough next found
  obtain ⟨diagnostic, failed⟩ := isRead depth file previous tokens rest recorded spelled enough next
  refine .inl ⟨diagnostic,
    loop_of_error file (progresses_elementRound (forward_typeWithin depth)) ?_⟩
  rw [elementRound_apply, failed]

private theorem isRead_moreNoElements {written : TupleElement}
    (first : IsRead kinds (.element written)) (behind : IsRead more .noElements) :
    IsRead (kinds ++ .mark .comma :: more) .noElements := by
  intro depth file previous tokens rest recorded spelled enough next found
  obtain ⟨before, others, rfl, within, spelled⟩ := List.map_eq_append_iff.mp spelled
  obtain ⟨comma, others, rfl, kind, behindComma⟩ := List.map_eq_cons_iff.mp spelled
  rw [List.append_assoc, List.cons_append] at enough ⊢
  rw [Token.lastOf_append, Token.lastOf_cons] at next ⊢
  obtain ⟨one, -, round⟩ := elementRound_comma file previous recorded first within
    kind enough found
  have lessTokens : (others ++ rest).length < depth := by
    simp only [List.length_append, List.length_cons] at enough ⊢
    omega
  rw [round]
  exact behind depth file (some comma) others rest recorded behindComma lessTokens next
    (found ++ [one])

end TypePiece

/-- What tokens spell is read from them, in front of whatever does not continue
it. -/
theorem Spells.isRead {kinds : List TokenKind} {piece : TypePiece} (spelled : Spells kinds piece) :
    piece.IsRead kinds := by
  induction spelled with
  | keyword known => exact TypePiece.isRead_keyword known
  | named isName parts ih => exact TypePiece.isRead_named isName parts ih
  | qualified isName parts ih => exact TypePiece.isRead_qualified isName ih
  | tuple inner ih => exact TypePiece.isRead_tuple ih
  | nullable inner ih => exact TypePiece.isRead_nullable ih
  | pointer inner ih => exact TypePiece.isRead_pointer ih
  | array commas inner ih => exact TypePiece.isRead_array commas ih
  | plainPart name => exact TypePiece.isRead_plainPart name
  | genericPart name inner ih => exact TypePiece.isRead_genericPart name inner ih
  | lastPart last ih => exact TypePiece.isRead_lastPart ih
  | moreParts first rest ihFirst ihRest => exact TypePiece.isRead_moreParts ihFirst rest ihRest
  | lastArgument last ih => exact TypePiece.isRead_lastArgument ih
  | moreArguments first rest ihFirst ihRest => exact TypePiece.isRead_moreArguments ihFirst ihRest
  | lastArgumentAndNoType first rest ihFirst ihRest =>
      exact TypePiece.isRead_lastArgumentAndNoType ihFirst ihRest
  | element name inner ih => exact TypePiece.isRead_element name ih
  | lastElement last ih => exact TypePiece.isRead_lastElement ih
  | moreElements first rest ihFirst ihRest => exact TypePiece.isRead_moreElements ihFirst ihRest
  | nothing => exact TypePiece.isRead_nothing
  | qualifierOnly isName => exact TypePiece.isRead_qualifierOnly isName
  | openTuple inner ih => exact TypePiece.isRead_openTuple ih
  | openArray commas inner ih => exact TypePiece.isRead_openArray commas ih
  | unclosedElement last ih => exact TypePiece.isRead_unclosedElement ih
  | noElement last ih => exact TypePiece.isRead_noElement ih
  | moreNoElements first rest ihFirst ihRest => exact TypePiece.isRead_moreNoElements ihFirst ihRest

end ErrorAccessors
