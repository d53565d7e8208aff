import ModelQuery.Value.Conversion

/-!
# Operands

A value takes its place in an expression in two steps. First a query is read as the one value it
stands for, which is the only thing that can fail there; then SQL stands for itself and all else is
a value. A whole table is no operand.
-/

namespace ModelQuery.Sql

/-- The value that is put to use: a query becomes the SELECT of one value. -/
def valueOf : Value → Except Error Value
  | .query _ _ scalar => scalar.map fun ts => .sql (.subselect ts)
  | v => .ok v

/-- What is put to use, as an expression. -/
def exprOf : Value → Expr
  | .null => .null
  | .sql e => e
  | v => .literal v

/-- What is put to use, as an operand. -/
def operandOf : Value → Except Error Expr
  | .sql (.relation _) => .error .invalidOperand
  | v => .ok (exprOf v)

/-- A value as an operand. -/
def valueExpr (v : Value) : Except Error Expr := do operandOf (← valueOf v)

/-- The operand as the subject of a test, which must be an SQL expression. -/
def subject : Value → Except Error Expr
  | .sql (.relation _) => .error .noSuchOperation
  | .sql e => .ok e
  | _ => .error .noSuchOperation

end ModelQuery.Sql
