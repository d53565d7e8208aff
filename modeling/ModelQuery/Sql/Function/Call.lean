import ModelQuery.Sql.Operand
import ModelQuery.Value.Shown

/-!
# Calls of functions

A call of a function by name with values as its arguments. Most functions take anything; a few say
how many arguments they take, and that is looked at before the arguments are.
-/

namespace ModelQuery.Sql.Function

/-- The arguments of a function may be so many. -/
def takes (function : String) (count : Nat) : Bool :=
  if function = "count" then count ≤ 1
  else if function = "char_length" ∨ function = "next_value" then count = 1
  else if function = "aggregate_strings" ∨ function = "cast" ∨ function = partName then count = 2
  else true

/-- A name no function can be called by, and why. -/
def refusedName? (name : String) : Option Error :=
  if name.toList.take 2 = ['_', '_'] then some .noSuchOperation
  else if name = "opts" then some .wrongType
  else none

/-- A function that plain values cannot be arguments of: one asks for a sequence, one for a type. -/
def refusedCall? (function : String) : Option Error :=
  if function = "next_value" then some .conflict
  else if function = "cast" then some .noSuchOperation
  else none

/-- What is counted: the rows themselves where nothing is named. -/
def counted : List Value → List Value
  | [] | [.null] => [.sql (.verbatim "*")]
  | args => args

/-- The name of a part of a time. -/
def fieldName (v : Value) : String := v.text?.getD v.shown

/-- A call of a function. -/
def call (name : String) (args : List Value) : Except Error Expr := do
  if let some cause := refusedName? name then throw cause
  let function := keptName name
  let small := Text.lower function
  if !takes small args.length then throw .wrongType
  if let some cause := refusedCall? small then throw cause
  match small, args with
  | "extract", [field, time] => return .part (fieldName field) (← valueExpr time)
  | "count", args => return .call function (← (counted args).mapM valueExpr)
  | _, args => return .call function (← args.mapM valueExpr)

end ModelQuery.Sql.Function
