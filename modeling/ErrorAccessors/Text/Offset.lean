/-
# Byte offsets into text

Positions in source files are counted in bytes of the UTF-8 encoding, whereas
text is worked on as a list of characters.  This module relates the two: the
byte length of a text, the cut at a byte offset, and the slices and
replacements built from cuts.  A cut is only possible between two characters,
so every operation that takes offsets answers with an `Option`.
-/

namespace ErrorAccessors.Text

/-- The number of bytes that the UTF-8 encoding of a text takes. -/
def byteLength : List Char → Nat
  | [] => 0
  | c :: rest => c.utf8Size + byteLength rest

@[simp]
theorem byteLength_nil : byteLength [] = 0 := rfl

@[simp]
theorem byteLength_cons (c : Char) (rest : List Char) :
    byteLength (c :: rest) = c.utf8Size + byteLength rest := rfl

@[simp]
theorem byteLength_append (first second : List Char) :
    byteLength (first ++ second) = byteLength first + byteLength second := by
  induction first with
  | nil => simp
  | cons c rest ih => simp [ih, Nat.add_assoc]

/-- Cut a text at a byte offset.  There is no cut inside a character or beyond
the end. -/
def cutAt? : Nat → List Char → Option (List Char × List Char)
  | 0, text => some ([], text)
  | _ + 1, [] => none
  | offset + 1, c :: rest =>
    if c.utf8Size ≤ offset + 1 then
      (cutAt? (offset + 1 - c.utf8Size) rest).map fun (before, after) => (c :: before, after)
    else none

/-- A cut splits the text into two parts and the first has the asked length. -/
theorem cutAt?_eq_some {offset : Nat} {text before after : List Char}
    (h : cutAt? offset text = some (before, after)) :
    text = before ++ after ∧ byteLength before = offset := by
  induction text generalizing offset before with
  | nil =>
    cases offset with
    | zero => simp_all [cutAt?]
    | succ offset => simp [cutAt?] at h
  | cons c rest ih =>
    cases offset with
    | zero =>
      simp only [cutAt?, Option.some.injEq, Prod.mk.injEq] at h
      obtain ⟨rfl, rfl⟩ := h
      simp
    | succ offset =>
      simp only [cutAt?] at h
      split at h
      · next hsize =>
        obtain ⟨⟨before', after'⟩, hcut, heq⟩ := Option.map_eq_some_iff.mp h
        simp only [Prod.mk.injEq] at heq
        obtain ⟨rfl, rfl⟩ := heq
        obtain ⟨hrest, hlength⟩ := ih hcut
        refine ⟨by simp [hrest], ?_⟩
        simp only [byteLength_cons, hlength]
        omega
      · simp at h

/-- Every split of a text is the cut at the byte length of its first part. -/
theorem cutAt?_append (before after : List Char) :
    cutAt? (byteLength before) (before ++ after) = some (before, after) := by
  induction before with
  | nil => cases after <;> rfl
  | cons c rest ih =>
    have hpos : 0 < c.utf8Size := c.utf8Size_pos
    obtain ⟨size, hsize⟩ : ∃ size, c.utf8Size + byteLength rest = size + 1 :=
      ⟨c.utf8Size + byteLength rest - 1, by omega⟩
    have hle : c.utf8Size ≤ size + 1 := by omega
    have hsub : size + 1 - c.utf8Size = byteLength rest := by omega
    simp only [List.cons_append, byteLength_cons]
    rw [hsize, cutAt?, if_pos hle, hsub, ih]
    rfl

/-- A cut inside the first of two parts is a cut of that part. -/
theorem cutAt?_append_of_le {text : List Char} {offset : Nat} (h : offset ≤ byteLength text)
    (after : List Char) :
    cutAt? offset (text ++ after) =
      (cutAt? offset text).map fun (first, second) => (first, second ++ after) := by
  induction text generalizing offset with
  | nil =>
    obtain rfl : offset = 0 := by simpa using h
    cases after <;> rfl
  | cons c text ih =>
    cases offset with
    | zero => rfl
    | succ offset =>
      rw [byteLength_cons] at h
      rw [List.cons_append, cutAt?, cutAt?]
      by_cases hsize : c.utf8Size ≤ offset + 1
      · rw [if_pos hsize, if_pos hsize, ih (by omega)]
        cases cutAt? (offset + 1 - c.utf8Size) text <;> rfl
      · rw [if_neg hsize, if_neg hsize]
        rfl

/-- The part of a text between two byte offsets.  There is none when the
offsets are reversed, beyond the end or inside a character. -/
def slice? (text : String) (start stop : Nat) : Option String :=
  if start ≤ stop then do
    let (_, after) ← cutAt? start text.toList
    let (middle, _) ← cutAt? (stop - start) after
    return String.ofList middle
  else none

/-- A text with the part between two byte offsets replaced. -/
def replaceRange? (text : String) (start stop : Nat) (replacement : String) : Option String :=
  if start ≤ stop then do
    let (before, rest) ← cutAt? start text.toList
    let (_, after) ← cutAt? (stop - start) rest
    return String.ofList (before ++ replacement.toList ++ after)
  else none

end ErrorAccessors.Text
