/-!
# Quoted parts of an expression

SQL text may carry names in double quotes. Read from the left, a quoted part starts at a quote, has
at least one character, and ends at the nearest quote after that character; its inside holds no line
break. A quote that starts no such part is an ordinary character. So the inside of a part holds a
quote at most as its very first character, and a part of a part is never a part again.

`segments` cuts a text into ordinary characters and parts; `joinSegments` writes them back, and
`joinSegments_segments` says that nothing is lost.
-/

namespace ModelQuery.Text

/-- One step of an expression: a character outside all parts, or the inside of a quoted part. -/
inductive Segment where
  | plain (c : Char)
  | quoted (inside : List Char)
deriving DecidableEq

/-- A character that may stand inside a part after its first character. -/
def isInner (c : Char) : Bool := c ≠ '"' && c ≠ '\n'

/-- The inside of the part opened just before `cs`, and what follows its closing quote. -/
def openedPart? : List Char → Option (List Char × List Char)
  | [] => none
  | c :: rest =>
    if c = '\n' then none
    else match rest.dropWhile isInner with
      | '"' :: after => some (c :: rest.takeWhile isInner, after)
      | _ => none

theorem openedPart?_length {cs inside after : List Char}
    (h : openedPart? cs = some (inside, after)) : after.length < cs.length := by
  cases cs with
  | nil => simp [openedPart?] at h
  | cons c rest =>
    have hle := (List.dropWhile_suffix isInner (l := rest)).length_le
    simp only [openedPart?] at h
    split at h
    · cases h
    · split at h
      · rename_i tail heq
        rw [heq] at hle
        simp only [Option.some.injEq, Prod.mk.injEq] at h
        obtain ⟨-, rfl⟩ := h
        simp only [List.length_cons] at hle ⊢
        omega
      · cases h

/-- The segments of an expression, from the left. -/
def segments (cs : List Char) : List Segment :=
  match cs with
  | [] => []
  | c :: rest =>
    if c = '"' then
      match _hpart : openedPart? rest with
      | some (inside, after) => .quoted inside :: segments after
      | none => .plain c :: segments rest
    else .plain c :: segments rest
termination_by cs.length
decreasing_by
  · have := openedPart?_length _hpart
    simp only [List.length_cons]; omega
  · simp
  · simp

/-- The characters of a segment, a part with its quotes. -/
def Segment.chars : Segment → List Char
  | .plain c => [c]
  | .quoted inside => '"' :: (inside ++ ['"'])

/-- Segments written one after the other. -/
def joinSegments (ss : List Segment) : List Char := ss.flatMap Segment.chars

/-- An expression with the inside of each part replaced. -/
def mapQuoted (f : String → String) (s : String) : String :=
  String.ofList (joinSegments ((segments s.toList).map fun
    | .plain c => .plain c
    | .quoted inside => .quoted (f (String.ofList inside)).toList))

/-- An expression with the quotes around its parts left out. -/
def unquoteParts (s : String) : String :=
  String.ofList ((segments s.toList).flatMap fun
    | .plain c => [c]
    | .quoted inside => inside)

/-! ## Nothing is lost -/

theorem openedPart?_eq {cs inside after : List Char}
    (h : openedPart? cs = some (inside, after)) : cs = inside ++ '"' :: after := by
  cases cs with
  | nil => simp [openedPart?] at h
  | cons c rest =>
    simp only [openedPart?] at h
    split at h
    · cases h
    · split at h
      · rename_i tail heq
        simp only [Option.some.injEq, Prod.mk.injEq] at h
        obtain ⟨rfl, rfl⟩ := h
        rw [List.cons_append, ← heq, List.takeWhile_append_dropWhile]
      · cases h

theorem joinSegments_segments (cs : List Char) : joinSegments (segments cs) = cs := by
  induction cs using segments.induct with
  | case1 => simp [segments, joinSegments]
  | case2 rest inside after h ih =>
    rw [segments]
    simp only [if_true]
    split
    · rename_i i a h'
      rw [h] at h'
      cases h'
      have := openedPart?_eq h
      simp only [joinSegments, List.flatMap_cons, Segment.chars] at ih ⊢
      rw [ih, this]
      simp
    · rename_i h'
      rw [h] at h'
      cases h'
  | case3 rest h ih =>
    rw [segments]
    simp only [if_true]
    split
    · rename_i h'
      rw [h] at h'
      cases h'
    · simp only [joinSegments, List.flatMap_cons, Segment.chars] at ih ⊢
      rw [ih]
      rfl
  | case4 c rest hc ih =>
    rw [segments]
    simp only [hc, if_false]
    simp only [joinSegments, List.flatMap_cons, Segment.chars] at ih ⊢
    rw [ih]
    rfl

end ModelQuery.Text
