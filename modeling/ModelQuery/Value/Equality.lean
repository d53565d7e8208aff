import ModelQuery.Decimal.Binary
import ModelQuery.Value.Basic

/-!
# Equality of values

Two values are the same key when they compare equal: numbers by their exact value, whatever their
sort (so `true`, `1` and `1.0` are one key), lists and tuples item by item and never across the two
sorts, mappings regardless of order. Pieces of SQL, queries, classes and instances are equal to
nothing, for each of them is an object of its own.

Lists and mappings can be no keys; a tuple can if all its items can.
-/

namespace ModelQuery.Value

open ModelQuery.Decimal

/-- The integer a truth value counts as. -/
def ofBit (b : Bool) : Int := if b then 1 else 0

/-- A floating-point number is the integer `n`. -/
def floatIs (x : Float) (n : Int) : Bool :=
  match Pattern.ofFloat x with
  | .finite b => b.isInt n
  | _ => false

mutual

/-- The two values compare equal. -/
def same : Value → Value → Bool
  | .null, .null => true
  | .bool a, .bool b => a == b
  | .bool a, .int n => ofBit a == n
  | .bool a, .float x => floatIs x (ofBit a)
  | .int m, .bool b => m == ofBit b
  | .int m, .int n => m == n
  | .int m, .float x => floatIs x m
  | .float x, .bool b => floatIs x (ofBit b)
  | .float x, .int n => floatIs x n
  | .float x, .float y => x == y
  | .text s, .text t | .text s, .declared t | .declared s, .text t | .declared s, .declared t =>
    s == t
  | .list xs, .list ys => sameAll xs ys
  | .tuple xs, .tuple ys => sameAll xs ys
  | .mapping xs, .mapping ys => xs.length == ys.length && sameEntries xs ys
  | .identifier i, .identifier j => i == j
  | _, _ => false

/-- The two lists are equal item by item. -/
def sameAll : List Value → List Value → Bool
  | [], [] => true
  | x :: xs, y :: ys => same x y && sameAll xs ys
  | _, _ => false

/-- Every entry of the second list is in the first. -/
def sameEntries (xs : List (Value × Value)) : List (Value × Value) → Bool
  | [] => true
  | (k, v) :: rest => (xs.any fun (k', v') => same k' k && same v' v) && sameEntries xs rest

end

instance : BEq Value := ⟨same⟩

mutual

/-- The value can be a key. -/
def hashable : Value → Bool
  | .list _ => false
  | .mapping _ => false
  | .tuple items => hashableAll items
  | _ => true

/-- All items can be keys. -/
def hashableAll : List Value → Bool
  | [] => true
  | v :: rest => v.hashable && hashableAll rest

end

/-- The value, if it can be a key. -/
def asKey (v : Value) : Except Error Value :=
  if v.hashable then .ok v else .error .unhashable

@[simp] theorem same_text (s t : String) : same (.text s) (.text t) = (s == t) := rfl

@[simp] theorem hashable_text (s : String) : hashable (.text s) = true := rfl

end ModelQuery.Value
