/-!
# Blank characters

Which characters count as blank around a name, and the removal of blanks at both ends of a text.
The set is the full one: the controls from tab to carriage return, the four information separators,
the next-line mark, the no-break space and the typographic spaces.
-/

namespace ModelQuery.Text

/-- The characters that `strip` removes. -/
def isBlank (c : Char) : Bool :=
  let n := c.toNat
  (0x9 ≤ n && n ≤ 0xd) || (0x1c ≤ n && n ≤ 0x20) || n == 0x85 || n == 0xa0 || n == 0x1680 ||
  (0x2000 ≤ n && n ≤ 0x200a) || n == 0x2028 || n == 0x2029 || n == 0x202f || n == 0x205f ||
  n == 0x3000

/-- A list of characters without the blanks at both ends. -/
def stripChars (cs : List Char) : List Char :=
  ((cs.dropWhile isBlank).reverse.dropWhile isBlank).reverse

/-- A text without the blanks at both ends. -/
def strip (s : String) : String := String.ofList (stripChars s.toList)

end ModelQuery.Text
