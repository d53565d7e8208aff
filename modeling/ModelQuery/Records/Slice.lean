import ModelQuery.Value.Conversion

/-!
# Positions in a list

Positions may count from the end: -1 is the last. A slice takes every `step`-th item from a start up
to, but without, a stop; bounds beyond the list are drawn in to its ends, and a negative step walks
backwards.
-/

namespace ModelQuery

/-- The place of a position that may count from the end, if there is an item. -/
def placeOf? (length : Nat) (i : Int) : Option Nat :=
  let k := if i < 0 then i + length else i
  if 0 ≤ k ∧ k < length then some k.toNat else none

/-- A slice; what is left open goes to an end of the list. -/
structure Slice where
  start : Option Int
  stop : Option Int
  step : Int
deriving DecidableEq, Repr

namespace Slice

/-- A bound drawn in between `low` and `high`, counted from the end if it is negative. -/
def drawn (length low high : Int) (i : Int) : Int :=
  max low (min high (if i < 0 then i + length else i))

/-- The places that are left: `n` more at most, from `i` on. -/
def walk (step stop : Int) : (n : Nat) → (i : Int) → List Nat
  | 0, _ => []
  | n + 1, i =>
    if (0 < step ∧ i < stop) ∨ (step < 0 ∧ stop < i) then i.toNat :: walk step stop n (i + step)
    else []

/-- The places a slice takes, in its order. -/
def places (s : Slice) (length : Nat) : List Nat :=
  if 0 < s.step then
    let start := (s.start.map (drawn length 0 length)).getD 0
    let stop := (s.stop.map (drawn length 0 length)).getD length
    walk s.step stop length start
  else
    let start := (s.start.map (drawn length (-1) (length - 1))).getD (length - 1)
    let stop := (s.stop.map (drawn length (-1) (length - 1))).getD (-1)
    walk s.step stop length start

/-- A bound, where one is given. -/
def boundOf (v : Value) : Except Error (Option Int) :=
  if v.isPresent then v.toIndex.map some else .ok none

/-- The slice of three values; the step is looked at first and cannot be zero. -/
def ofValues (start stop step : Value) : Except Error Slice := do
  let step := (← boundOf step).getD 1
  if step = 0 then throw .badValue
  return { start := ← boundOf start, stop := ← boundOf stop, step }

end Slice

end ModelQuery
