import ModelQuery.Decimal.Binary

/-!
# The shortest decimal of a floating-point number

A finite number is written with the fewest significant digits that read back as the same number,
and among those with the digits nearest to its exact value. The real numbers that read back as
`m · 2 ^ q` form an interval around it, ends included exactly when `m` is even. For one digit, two
digits and so on up to seventeen, the two neighbours of the value on that decimal grid are compared
with the interval in exact integer arithmetic; the first grid with a hit wins.

How the digits are laid out is the business of `Layout`, a small record; `textLayout` is the one
that query texts use: positional from a ten-thousandth up to sixteen places before the point, an
exponent of at least two digits elsewhere.
-/

namespace ModelQuery.Decimal

/-- Decimal digits with the place of the point: `0.d₁d₂… · 10 ^ point`. -/
structure Digits where
  digits : List Char
  point : Int
deriving DecidableEq, Repr

/-- The decimal digits of a number. -/
def natDigits (n : Nat) : List Char := Nat.toDigits 10 n

/-! ## The place of the point -/

/-- How often `num` can be multiplied by ten and still stay below `den`; counts at most `fuel`. -/
def leadingZeros : (fuel num den : Nat) → Nat
  | 0, _, _ => 0
  | fuel + 1, num, den => if num * 10 < den then leadingZeros fuel (num * 10) den + 1 else 0

/-- The `k` with `10 ^ (k - 1) ≤ num / den < 10 ^ k`. -/
def pointOf (num den : Nat) : Int :=
  if den ≤ num then (natDigits (num / den)).length
  else -((leadingZeros 400 num den : Nat) : Int)

/-! ## The interval of numbers that read back -/

/-- The interval around a number, all ends over the common denominator `den`. -/
structure Interval where
  low : Nat
  mid : Nat
  high : Nat
  den : Nat
  closed : Bool

/-- The numbers that read back as `b`: half a step to each side, only a quarter step down where the
steps below are half as long. -/
def Binary.interval (b : Binary) : Interval :=
  let m := b.significand
  let down := if m = Nat.pow 2 52 ∧ b.exponent ≠ -1074 then 1 else 2
  let scale := match b.exponent with
    | .ofNat k => Nat.pow 2 k
    | .negSucc _ => 1
  let den := match b.exponent with
    | .ofNat _ => 4
    | .negSucc k => 4 * Nat.pow 2 (k + 1)
  ⟨(4 * m - down) * scale, 4 * m * scale, (4 * m + 2) * scale, den, m % 2 == 0⟩

/-- The decimal `d · num / den` lies in the interval. -/
def Interval.has (i : Interval) (d num den : Nat) : Bool :=
  let x := d * num * i.den
  let lo := i.low * den
  let hi := i.high * den
  if i.closed then lo ≤ x && x ≤ hi else lo < x && x < hi

/-- Twice the place of a grid point, measured from the middle of the interval. -/
def Interval.distance (i : Interval) (d num den : Nat) : Nat :=
  let x := d * num * i.den
  let m := i.mid * den
  if x ≤ m then m - x else x - m

/-! ## Trying the grids -/

/-- The grid step `10 ^ e` as a fraction. -/
def tenPower (e : Int) : Nat × Nat :=
  match e with
  | .ofNat k => (Nat.pow 10 k, 1)
  | .negSucc k => (1, Nat.pow 10 (k + 1))

/-- The better of the two neighbours of the value on the grid with step `10 ^ e`, if one reads back;
an exact tie goes to the even one. -/
def Interval.onGrid? (i : Interval) (e : Int) : Option Nat :=
  let (num, den) := tenPower e
  let d := i.mid * den / (i.den * num)
  match i.has d num den && d ≠ 0, i.has (d + 1) num den with
  | false, false => none
  | true, false => some d
  | false, true => some (d + 1)
  | true, true =>
    let below := i.distance d num den
    let above := i.distance (d + 1) num den
    if below < above || (below == above && d % 2 == 0) then some d else some (d + 1)

/-- Digits `d` on the grid `10 ^ e`, trailing zeros dropped. -/
def Digits.ofGrid (d : Nat) (e : Int) : Digits :=
  let ds := natDigits d
  let kept := (ds.reverse.dropWhile (· == '0')).reverse
  ⟨kept, e + ds.length⟩

/-- The first grid with a hit, from `n` digits on; tries at most `fuel` grids. -/
def Interval.shortest (i : Interval) (point : Int) : (fuel n : Nat) → Digits
  | 0, _ => ⟨[], point⟩
  | fuel + 1, n =>
    match i.onGrid? (point - n) with
    | some d => .ofGrid d (point - n)
    | none => i.shortest point fuel (n + 1)

/-- The shortest digits of a nonzero finite number. -/
def Binary.digits (b : Binary) : Digits :=
  let (num, den) := b.fraction
  b.interval.shortest (pointOf num den) 18 1

/-! ## Laying the digits out -/

/-- How digits become text: the places of the point that are written positionally, the least number
of digits in an exponent, and the texts of what has no digits. -/
structure Layout where
  leastPoint : Int
  greatestPoint : Int
  exponentDigits : Nat
  infinity : String
  notANumber : String

/-- The layout of numbers in query texts and messages. -/
def textLayout : Layout := ⟨-3, 16, 2, "inf", "nan"⟩

/-- An exponent with its sign. -/
def Layout.exponentText (l : Layout) (e : Int) : List Char :=
  let ds := natDigits e.natAbs
  [if e < 0 then '-' else '+'] ++ List.replicate (l.exponentDigits - ds.length) '0' ++ ds

/-- Digits written with a point, or with an exponent outside the positional range. -/
def Layout.body (l : Layout) (d : Digits) : List Char :=
  if l.leastPoint ≤ d.point ∧ d.point ≤ l.greatestPoint then
    if d.point ≤ 0 then
      ['0', '.'] ++ List.replicate d.point.natAbs '0' ++ d.digits
    else
      let k := d.point.toNat
      let whole := d.digits.take k ++ List.replicate (k - d.digits.length) '0'
      let part := d.digits.drop k
      whole ++ ['.'] ++ (if part.isEmpty then ['0'] else part)
  else
    match d.digits with
    | [] => []
    | c :: rest =>
      c :: (if rest.isEmpty then [] else '.' :: rest) ++ 'e' :: l.exponentText (d.point - 1)

/-- A floating-point number in a layout. -/
def Layout.text (l : Layout) (x : Float) : String :=
  match Pattern.ofFloat x with
  | .notANumber => l.notANumber
  | .infinite negative => (if negative then "-" else "") ++ l.infinity
  | .finite b =>
    (if b.negative then "-" else "") ++
      (if b.significand = 0 then "0.0" else String.ofList (l.body b.digits))

/-- A floating-point number as query texts and messages show it. -/
def floatText (x : Float) : String := textLayout.text x

end ModelQuery.Decimal
