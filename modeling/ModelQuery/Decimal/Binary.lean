/-!
# Binary floating-point numbers as exact fractions

A finite 64-bit number is `significand · 2 ^ exponent` with a sign. Everything this library says
about such a number (its shortest decimal, its whole part, its equality with an integer) is worked
out on these integers, never on the floating-point operations themselves.
-/

namespace ModelQuery.Decimal

/-- The exact parts of a 64-bit number. -/
structure Binary where
  negative : Bool
  significand : Nat
  exponent : Int
deriving DecidableEq, Repr

/-- What a 64-bit pattern stands for. -/
inductive Pattern where
  | finite (b : Binary)
  | infinite (negative : Bool)
  | notANumber
deriving DecidableEq, Repr

/-- The meaning of a 64-bit pattern: one sign bit, eleven exponent bits, fifty-two fraction bits. -/
def Pattern.ofBits (bits : Nat) : Pattern :=
  let negative := bits / Nat.pow 2 63 % 2 == 1
  let e : Nat := bits / Nat.pow 2 52 % Nat.pow 2 11
  let f := bits % Nat.pow 2 52
  if e = 2047 then (if f = 0 then .infinite negative else .notANumber)
  else if e = 0 then .finite ⟨negative, f, -1074⟩
  else .finite ⟨negative, Nat.pow 2 52 + f, (e : Int) - 1075⟩

/-- The meaning of a floating-point number. -/
def Pattern.ofFloat (x : Float) : Pattern := .ofBits x.toBits.toNat

/-- The size of a finite number as a fraction, numerator and denominator. -/
def Binary.fraction (b : Binary) : Nat × Nat :=
  match b.exponent with
  | .ofNat k => (b.significand * Nat.pow 2 k, 1)
  | .negSucc k => (b.significand, Nat.pow 2 (k + 1))

/-- The whole part, cut toward zero. -/
def Binary.whole (b : Binary) : Int :=
  let (num, den) := b.fraction
  let n : Int := (num / den : Nat)
  if b.negative then -n else n

/-- The number is the integer `n`. -/
def Binary.isInt (b : Binary) (n : Int) : Bool :=
  let (num, den) := b.fraction
  num % den == 0 && b.whole == n

end ModelQuery.Decimal
