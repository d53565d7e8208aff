import ModelQuery.Decimal.Whole
import ModelQuery.Value.Equality

/-!
# Taking values apart

The items of a value, the pair it holds, the whole number it stands for, whether it counts as true.
Each of these can fail, and the cause tells how.
-/

namespace ModelQuery.Value

open ModelQuery.Decimal

/-- The items of a value: the characters of a text, the keys of a mapping. -/
def items : Value → Except Error (List Value)
  | .text s | .declared s => .ok (s.toList.map fun c => .text (String.singleton c))
  | .list xs => .ok xs
  | .tuple xs => .ok xs
  | .mapping entries => .ok (entries.map Prod.fst)
  | .sql (.relation _) => .error .notIterable
  | .sql _ => .error .unsupported
  | _ => .error .notIterable

/-- Whether a value counts as true; a piece of SQL is neither true nor false. -/
def isTrue : Value → Except Error Bool
  | .sql _ => .error .wrongType
  | v => .ok v.truthy

/-- The two items of a value that holds exactly two. -/
def pair (v : Value) : Except Error (Value × Value) := do
  match ← v.items with
  | [a, b] => return (a, b)
  | _ => throw .badValue

/-- The whole number a value stands for: numbers are cut toward zero, texts are read. -/
def toInt : Value → Except Error Int
  | .bool b => .ok (ofBit b)
  | .int n => .ok n
  | .float x =>
    match Pattern.ofFloat x with
    | .finite b => .ok b.whole
    | .infinite _ => .error .tooLarge
    | .notANumber => .error .badValue
  | .text s | .declared s =>
    match intOfText? s with
    | some n => .ok n
    | none => .error .badValue
  | _ => .error .wrongType

/-- The integer a value is, for positions and slices, where only integers and truth values count. -/
def toIndex : Value → Except Error Int
  | .bool b => .ok (ofBit b)
  | .int n => .ok n
  | _ => .error .wrongType

/-- A thing with an optional alias: a tuple holds both, anything else is a thing without one. Only
the first two items of a tuple count. -/
def aliased : Value → Except Error (Value × Value)
  | .tuple (thing :: name :: _) => .ok (thing, name)
  | .tuple _ => .error .outOfRange
  | v => .ok (v, .null)

end ModelQuery.Value
