/-!
# Cutting texts at a separator

Names in this library are read by cutting them at a single character: everywhere (`pieces`), at its
first place (`cutFirst?`) or at its last (`cutLast?`). The three are defined on lists of characters,
where `pieces` is undone by `List.intercalate`, and lifted to texts.
-/

namespace ModelQuery.Text

/-! ## On characters -/

/-- The stretches between the separators; there is always one more of them than separators. -/
def pieces (sep : Char) : List Char → List (List Char)
  | [] => [[]]
  | c :: rest =>
    if c = sep then [] :: pieces sep rest
    else match pieces sep rest with
      | [] => [[c]]
      | p :: ps => (c :: p) :: ps

/-- The parts before and after the first separator. -/
def cutFirst? (sep : Char) : List Char → Option (List Char × List Char)
  | [] => none
  | c :: rest =>
    if c = sep then some ([], rest)
    else (cutFirst? sep rest).map fun (before, after) => (c :: before, after)

/-- The parts before and after the last separator. -/
def cutLast? (sep : Char) : List Char → Option (List Char × List Char)
  | [] => none
  | c :: rest =>
    match cutLast? sep rest with
    | some (before, after) => some (c :: before, after)
    | none => if c = sep then some ([], rest) else none

theorem pieces_ne_nil (sep : Char) (cs : List Char) : pieces sep cs ≠ [] := by
  cases cs with
  | nil => simp [pieces]
  | cons c rest =>
    simp only [pieces]
    split
    · simp
    · split <;> simp

@[simp] theorem pieces_nil (sep : Char) : pieces sep [] = [[]] := rfl

@[simp] theorem pieces_sep_cons (sep : Char) (rest : List Char) :
    pieces sep (sep :: rest) = [] :: pieces sep rest := by simp [pieces]

theorem pieces_of_not_mem {sep : Char} {cs : List Char} (h : sep ∉ cs) :
    pieces sep cs = [cs] := by
  induction cs with
  | nil => rfl
  | cons c rest ih =>
    rw [List.mem_cons, not_or] at h
    rw [pieces, if_neg (Ne.symm h.1), ih h.2]

/-- A stretch without separators ends at the first one. -/
theorem pieces_append {sep : Char} {cs : List Char} (h : sep ∉ cs) (rest : List Char) :
    pieces sep (cs ++ sep :: rest) = cs :: pieces sep rest := by
  induction cs with
  | nil => exact pieces_sep_cons sep rest
  | cons c cs ih =>
    rw [List.mem_cons, not_or] at h
    rw [List.cons_append, pieces, if_neg (Ne.symm h.1), ih h.2]

theorem not_mem_of_mem_pieces {sep : Char} {cs piece : List Char} (h : piece ∈ pieces sep cs) :
    sep ∉ piece := by
  induction cs generalizing piece with
  | nil =>
    rw [pieces_nil, List.mem_singleton] at h
    subst h
    exact List.not_mem_nil
  | cons c rest ih =>
    rw [pieces] at h
    split at h
    · rcases List.mem_cons.mp h with rfl | h
      · exact List.not_mem_nil
      · exact ih h
    · rename_i hc
      cases hrest : pieces sep rest with
      | nil => exact absurd hrest (pieces_ne_nil sep rest)
      | cons first more =>
        rw [hrest] at h ih
        rcases List.mem_cons.mp h with rfl | h
        · rw [List.mem_cons, not_or]
          exact ⟨Ne.symm hc, ih List.mem_cons_self⟩
        · exact ih (List.mem_cons_of_mem _ h)

/-! ## On texts -/

/-- The stretches of a text between the separators. -/
def splitAt (sep : Char) (s : String) : List String := (pieces sep s.toList).map String.ofList

/-- A text cut at its first separator. -/
def splitFirst? (sep : Char) (s : String) : Option (String × String) :=
  (cutFirst? sep s.toList).map fun (a, b) => (String.ofList a, String.ofList b)

/-- A text cut at its last separator. -/
def splitLast? (sep : Char) (s : String) : Option (String × String) :=
  (cutLast? sep s.toList).map fun (a, b) => (String.ofList a, String.ofList b)

/-- A text holds a character. -/
def holds (s : String) (c : Char) : Bool := s.toList.contains c

/-- What follows `start` in a text that begins with it. -/
def afterStart? (start s : String) : Option String :=
  if start.toList.isPrefixOf s.toList then some (String.ofList (s.toList.drop start.toList.length))
  else none

end ModelQuery.Text
