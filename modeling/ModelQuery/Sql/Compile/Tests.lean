import ModelQuery.Sql.Catalog
import ModelQuery.Sql.Operand
import ModelQuery.Sql.Wording.Select

/-!
# Reading conditions

A condition names a column, an operator and a value. The column is a reference and becomes an
expression; the value never does: it stays a value, unless it is SQL or a query already.

Equality with null is a test for null. Other comparisons with null are refused, and an operator that
is not known is taken as it is.

A reference that is no expression knows no tests. It can still be equal to an expression, or less or
greater, and such a test is read from the side of the expression.
-/

namespace ModelQuery.Sql

/-! ## Tests -/

/-- A comparison that is written in any case, even with null. -/
def comparatorOf? (op : String) : Option Comparator :=
  if op = "=" ∨ op = "==" then some .eq
  else if op = "!=" ∨ op = "<>" then some .ne
  else if op = "<" then some .lt
  else if op = "<=" then some .le
  else if op = ">" then some .gt
  else if op = ">=" then some .ge
  else if op = "IS" then some .is
  else if op = "IS NOT" then some .isNot
  else if op = "LIKE" then some .like
  else if op = "NOT LIKE" then some .notLike
  else none

/-- A comparison with null, which only equality and identity allow. -/
def compareNull (c : Comparator) (x : Expr) : Except Error Comparison :=
  match c with
  | .eq | .is => .ok (.compare .is x .null)
  | .ne | .isNot => .ok (.compare .isNot x .null)
  | _ => .error .invalidOperand

/-- A comparison of an expression with a value. -/
def compareWith (c : Comparator) (x : Expr) (v : Value) : Except Error Comparison := do
  match ← valueExpr v with
  | .null => compareNull c x
  | e => return .compare c x e

/-- A SELECT of one expression as one value. -/
def selectOf (e : Expr) : Except Error (List Token) :=
  Select.scalarTokens { items := [⟨e, none⟩] }

/-- A test for membership. The set is a query, what a function answers, or the items of a value. -/
def memberOf (negated : Bool) (x : Expr) : Value → Except Error Comparison
  | .query _ _ scalar => scalar.map (.inQuery negated x)
  | .sql (.call f args) => (selectOf (.call f args)).map (.inQuery negated x)
  | .sql (.relation name) => (selectOf (.relation name)).map (.inQuery negated x)
  | .sql _ => .error .invalidOperand
  | v => do
    let items ← (← v.items).mapM valueOf
    return .inList negated x (← items.mapM operandOf)

/-- A test for a place between two bounds. -/
def betweenOf (x : Expr) (v : Value) : Except Error Comparison := do
  let (low, high) ← v.pair
  let low ← valueOf low
  let high ← valueOf high
  return .between x (← operandOf low) (← operandOf high)

/-- A test of an operand by the operator a text names; an operator that is not known is taken as it
is. -/
def compareBy (op : String) (x : Expr) (v : Value) : Except Error Comparison :=
  match comparatorOf? op with
  | some c => compareWith c x v
  | none =>
    if op = "IN" then memberOf false x v
    else if op = "NOT IN" then memberOf true x v
    else if op = "BETWEEN" then betweenOf x v
    else do return .custom op x (← valueExpr v)

/-- The text of an operator, blanks around it and case apart. -/
def operatorText (op : Value) : Except Error String :=
  match op.text? with
  | some s => .ok (Text.upper (Text.strip s))
  | none => .error .noSuchOperation

/-- The comparison that holds from the other side. -/
def turned? : Comparator → Option Comparator
  | .eq => some .eq
  | .ne => some .ne
  | .lt => some .gt
  | .le => some .ge
  | .gt => some .lt
  | .ge => some .le
  | _ => none

/-- Equality and its denial, which are the tests that a truth value or null can be used in. -/
def isEquality (c : Comparator) : Bool := c == .eq || c == .ne

/-- A comparison of what is put to use with an operand that is no expression. -/
def compareTurned (c : Comparator) (x v : Value) : Except Error Comparison := do
  let left ← operandOf (← valueOf v)
  match x with
  | .null => compareNull c left
  | .bool b => if isEquality c then return .compare c left (.truth b) else throw .invalidOperand
  | .query _ _ scalar => return .compare c left (.subselect (← scalar))
  | .sql _ => throw .invalidOperand
  | x => return .compareValue c left x

/-- What is wrong with the value of a test for membership or for a place between two bounds, which
is looked at before the operand is. -/
def checkValue (op : String) (v : Value) : Except Error Unit :=
  if op = "IN" ∨ op = "NOT IN" then
    match v with
    | .query _ plain _ => plain.map fun _ => ()
    | .sql _ => .ok ()
    | v => do let _ ← (← v.items).mapM valueOf
  else if op = "BETWEEN" then v.pair.map fun _ => ()
  else .ok ()

/-- A test of an operand that is no expression. -/
def comparePlain (op : String) (x v : Value) : Except Error Comparison := do
  checkValue op v
  match (comparatorOf? op).bind turned? with
  | some c =>
    if isEquality c && !v.isPresent then throw .noSuchOperation
    compareTurned c x v
  | none => throw .noSuchOperation

/-- A test of an operand. -/
def compare (x op v : Value) : Except Error Comparison := do
  let op ← operatorText op
  match x with
  | .sql (.relation _) => comparePlain op x v
  | .sql e => compareBy op e v
  | _ => comparePlain op x v

/-- A condition's test: its column is a reference, its value is none. -/
def readTest (c : Catalog) (column op v : Value) : Except Error Comparison := do
  compare (← c.operand column) op v

/-- A list of conditions as the condition of a statement. -/
def readFilter (c : Catalog) (conditions : List Condition) : Except Error (Option Filter) :=
  Formula.ofConditions (readTest c) conditions

end ModelQuery.Sql
