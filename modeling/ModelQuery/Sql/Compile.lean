import ModelQuery.Query.Builder
import ModelQuery.Sql.Compile.Mentions
import ModelQuery.Sql.Compile.Mutation
import ModelQuery.Sql.Compile.Select

/-!
# Compiling a query

The clauses of a query become a statement of a kind. Only the clauses that make sense for the kind
are carried over: a SELECT uses everything, an UPDATE its assignments and its conditions, an INSERT
its columns and rows, a DELETE its conditions. But all references of all clauses are mentions for
the catalog.
-/

namespace ModelQuery.Sql

/-- A query as a statement of a kind. -/
def readStatement (q : Query) (kind : Kind) : Except Error Statement := do
  let f ← readFrame q kind
  match kind with
  | .select => return .select (← readSelect f q)
  | .update =>
    let into ← readTarget f kind
    let filter ← readFilter f.catalog q.filter
    if q.assignments.isEmpty then return .update into none filter
    return .update into (some (← readAssignments f.catalog into q.assignments)) filter
  | .insert =>
    let into ← readTarget f kind
    if q.columns.isEmpty || q.rows.isEmpty then return .insert into none
    return .insert into (some (← readRows f.catalog into q.columns q.rows))
  | .delete =>
    let into ← readTarget f kind
    return .delete into (← readFilter f.catalog q.filter)

/-- The count of the rows that a SELECT of the query starts from. -/
def readCount (q : Query) : Except Error Statement := do
  let f ← readFrame q .select
  return .count (← readTables f q) (← readFilter f.catalog q.filter)

end ModelQuery.Sql
