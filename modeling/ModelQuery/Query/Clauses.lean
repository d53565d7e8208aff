import ModelQuery.Query.Conditions

/-!
# The clauses of a query

Everything that has been said about a query, whatever statement it becomes: columns, tables, joins,
conditions, order, limits, the values to insert and the values to assign. The record is written over
the type of its two condition clauses, because they are a tree in a finished query and a tree with
open groups in a query in the making; nothing else differs.
-/

namespace ModelQuery

/-- One test of a join. -/
structure JoinTest where
  left : Value
  op : Value
  right : Value

/-- A joined table with its tests. -/
structure Join where
  table : Value
  asName : Value
  type : Value
  on : List JoinTest

/-- The clauses of a query, over its condition clauses. -/
structure Clauses (κ : Type) where
  /-- Selected columns with their aliases. -/
  select : List (Value × Value) := []
  distinct : Value := .bool false
  /-- Tables with their aliases. -/
  tables : List (Value × Value) := []
  joins : List Join := []
  filter : κ
  having : κ
  groupBy : List Value := []
  /-- Columns with their directions. -/
  orderBy : List (Value × Value) := []
  limit : Value := .null
  offset : Value := .null
  /-- The columns of rows to insert. -/
  columns : List Value := []
  rows : List (List Value) := []
  /-- Columns with the values assigned to them. -/
  assignments : List (Value × Value) := []

/-- The clauses of a finished query. -/
abbrev Query := Clauses (List Condition)

/-- The clauses of a query in the making. -/
abbrev Draft := Clauses OpenConditions

/-- The query in the making that says nothing yet. -/
def Draft.empty : Draft := { filter := .empty, having := .empty }

/-- The query with all its condition groups closed. -/
def Draft.finish (d : Draft) : Query :=
  { d with filter := d.filter.conditions, having := d.having.conditions }

end ModelQuery
