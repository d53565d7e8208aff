import ModelQuery.Text.Case

/-!
# Statement kinds

The same accumulated clauses become one of four statements. A kind is written as its word, in any
case.
-/

namespace ModelQuery

/-- What a query is turned into. -/
inductive Kind where
  | select
  | insert
  | update
  | delete
deriving DecidableEq, Repr

namespace Kind

/-- The word of a kind. -/
def word : Kind → String
  | .select => "select"
  | .insert => "insert"
  | .update => "update"
  | .delete => "delete"

/-- The kind a text names, in any case. -/
def ofText? (s : String) : Option Kind :=
  let w := Text.lower s
  if w = "select" then some .select
  else if w = "insert" then some .insert
  else if w = "update" then some .update
  else if w = "delete" then some .delete
  else none

end Kind

end ModelQuery
