import ModelQuery.Text.Blank
import ModelQuery.Text.Digit

/-!
# Whole numbers read from text

A whole number is written with an optional sign and decimal digits of any script, single underscores
between digits, and blanks around it. The information separators are no blanks here. A text of very
many digits is not read at all.
-/

namespace ModelQuery.Decimal

open ModelQuery.Text

/-- The value of a run of digits continuing `acc`; an underscore must stand between two digits. -/
def digitsFrom (acc : Nat) : List Char → Option Nat
  | [] => some acc
  | '_' :: c :: rest => do
    let d ← digitValue? c
    digitsFrom (acc * 10 + d) rest
  | c :: rest => do
    let d ← digitValue? c
    digitsFrom (acc * 10 + d) rest

/-- A nonempty run of digits. -/
def natOfChars? : List Char → Option Nat
  | [] => none
  | c :: rest => do
    let d ← digitValue? c
    digitsFrom d rest

/-- A character that may stand around a number. -/
def isNumberBlank (c : Char) : Bool := isBlank c && !(0x1c ≤ c.toNat && c.toNat ≤ 0x1f)

/-- A list of characters without the blanks around a number. -/
def stripNumber (cs : List Char) : List Char :=
  ((cs.dropWhile isNumberBlank).reverse.dropWhile isNumberBlank).reverse

/-- The number of digits up to which a text is read. -/
def mostDigits : Nat := 4300

/-- A run of digits that is short enough to be read. -/
def shortNat? (cs : List Char) : Option Nat :=
  if cs.countP (· != '_') ≤ mostDigits then natOfChars? cs else none

/-- The whole number a text stands for. -/
def intOfText? (s : String) : Option Int :=
  match stripNumber s.toList with
  | '-' :: cs => (shortNat? cs).map fun n => -(n : Int)
  | '+' :: cs => (shortNat? cs).map fun n => (n : Int)
  | cs => (shortNat? cs).map fun n => (n : Int)

end ModelQuery.Decimal
