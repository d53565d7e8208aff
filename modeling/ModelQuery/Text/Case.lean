import ModelQuery.Text.CaseTable

/-!
# Capital and small letters

Full case mapping of texts. A small letter is looked up character by character, except for the
capital sigma, whose small form depends on its place: at the end of a word it is the final sigma.
A capital form may be longer than the letter it comes from (the sharp s becomes two letters).
-/

namespace ModelQuery.Text

/-- Membership of a code point in a list of ranges. -/
def inRanges (ranges : List (Nat × Nat)) (n : Nat) : Bool :=
  ranges.any fun r => r.1 ≤ n && n ≤ r.2

/-- The image of a code point under a list of runs. -/
def shiftBy (runs : List CaseRun) (n : Nat) : Nat :=
  match runs.find? (fun r => r.first ≤ n && n ≤ r.last && (n - r.first) % r.stride == 0) with
  | some r => (n + r.shift).toNat
  | none => n

/-! ## Small letters -/

/-- The small form of a single character, whatever stands beside it. -/
def smallChars (c : Char) : List Char :=
  if c.toNat < 128 then [c.toLower]
  else if c.toNat = 0x130 then ['i', Char.ofNat 0x307]
  else [Char.ofNat (shiftBy smallRuns c.toNat)]

/-- Case is visible on this character. -/
def isCased (c : Char) : Bool := inRanges casedRanges c.toNat

/-- Case looks through this character. -/
def isCaseIgnorable (c : Char) : Bool := inRanges ignorableRanges c.toNat

/-- A sigma between `before` (read backwards) and `after` stands at the end of a word: a cased
character precedes it, none follows, and ignorable characters do not count. -/
def endsWord (before after : List Char) : Bool :=
  (match before.dropWhile isCaseIgnorable with
    | c :: _ => isCased c
    | [] => false) &&
  (match after.dropWhile isCaseIgnorable with
    | c :: _ => !isCased c
    | [] => true)

/-- Small letters for the rest of a text whose earlier part, read backwards, is `before`. -/
def lowerAfter (before : List Char) : List Char → List Char
  | [] => []
  | c :: rest =>
    (if c.toNat = 0x3a3 then [Char.ofNat (if endsWord before rest then 0x3c2 else 0x3c3)]
     else smallChars c) ++ lowerAfter (c :: before) rest

/-- A text in small letters. -/
def lower (s : String) : String := String.ofList (lowerAfter [] s.toList)

/-! ## Capital letters -/

/-- The capital form of a single character. -/
def capitalChars (c : Char) : List Char :=
  if c.toNat < 128 then [c.toUpper]
  else match capitalExpansions.lookup c.toNat with
    | some ns => ns.map Char.ofNat
    | none => [Char.ofNat (shiftBy capitalRuns c.toNat)]

/-- A text in capital letters. -/
def upper (s : String) : String := String.ofList (s.toList.flatMap capitalChars)

end ModelQuery.Text
