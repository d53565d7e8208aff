import ModelQuery.Decimal.Whole

/-!
# Numbers with a point

What a text has to look like to be read as a number that need not be whole: an optional sign, digits
with at most one point among them, perhaps an exponent, single underscores between digits, blanks
around it. The words for infinity and for no number count as well.
-/

namespace ModelQuery.Decimal

open ModelQuery.Text

/-- The characters behind an optional sign. -/
def unsigned : List Char → List Char
  | '-' :: cs | '+' :: cs => cs
  | cs => cs

/-- A run of digits, which may be empty. -/
def isDigits (cs : List Char) : Bool := cs.isEmpty || (natOfChars? cs).isSome

/-- Digits with at most one point before, among or behind them. -/
def isPointed (cs : List Char) : Bool :=
  let (whole, behind) := cs.span (· != '.')
  let fraction := behind.drop 1
  isDigits whole && isDigits fraction && !(whole.isEmpty && fraction.isEmpty)

/-- A mark of an exponent. -/
def isExponentMark (c : Char) : Bool := c == 'e' || c == 'E'

/-- An exponent, or nothing. -/
def isExponent : List Char → Bool
  | [] => true
  | _ :: cs => (natOfChars? (unsigned cs)).isSome

/-- The words for what is no finite number. -/
def endlessWords : List String := ["inf", "infinity", "nan"]

/-- A text that stands for a number. -/
def isNumberText (s : String) : Bool :=
  let cs := unsigned (stripNumber s.toList)
  let (mantissa, exponent) := cs.span fun c => !isExponentMark c
  endlessWords.contains (String.ofList (cs.map Char.toLower)) ||
    (isPointed mantissa && isExponent exponent)

end ModelQuery.Decimal
