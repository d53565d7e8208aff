import ModelQuery.Text.Case
import ModelQuery.Text.PrintTable

/-!
# Texts shown in messages

A text inside a message stands in quotes: single ones, unless it holds a single quote and no double
one. The quote in use and the backslash are escaped, a line break, a carriage return and a tab have
their letters, and every other character without a printed form is written by number.
-/

namespace ModelQuery.Text

/-- The last `width` digits of `n` in base sixteen. -/
def hexDigits : (width : Nat) → (n : Nat) → List Char
  | 0, _ => []
  | w + 1, n => hexDigits w (n / 16) ++ [Nat.digitChar (n % 16)]

/-- A character as it stands between the quotes `quote`. -/
def shownChar (quote c : Char) : List Char :=
  let n := c.toNat
  if c = quote || c = '\\' then ['\\', c]
  else if c = '\n' then ['\\', 'n']
  else if c = '\r' then ['\\', 'r']
  else if c = '\t' then ['\\', 't']
  else if 0x20 ≤ n && n < 0x7f then [c]
  else if inRanges unprintableRanges n then
    if n < 0x100 then ['\\', 'x'] ++ hexDigits 2 n
    else if n < 0x10000 then ['\\', 'u'] ++ hexDigits 4 n
    else ['\\', 'U'] ++ hexDigits 8 n
  else [c]

/-- The quote a text is shown in. -/
def quoteFor (s : String) : Char :=
  if s.toList.contains '\'' && !s.toList.contains '"' then '"' else '\''

/-- A text as messages show it. -/
def shown (s : String) : String :=
  let q := quoteFor s
  String.ofList ([q] ++ s.toList.flatMap (shownChar q) ++ [q])

/-- A list of texts as messages show it. -/
def shownList (ss : List String) : String := "[" ++ ", ".intercalate (ss.map shown) ++ "]"

end ModelQuery.Text
