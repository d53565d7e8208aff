import ModelQuery.Sql.Compile
import ModelQuery.Sql.Rendering
import ModelQuery.Sql.Wording.Mutation

/-!
# Statements as text

The whole way from the clauses of a query to the text of a statement, and a query as a value of
another one: there it stands for its SELECT.
-/

namespace ModelQuery

namespace Sql.Statement

/-- The text of a statement in a dialect. -/
def render (d : Dialect) (mode : Values) (s : Statement) : Except Error Rendered :=
  Sql.render d mode (s.tokens d)

end Sql.Statement

namespace Builder

/-- The statement of a kind. -/
def statementOf (kind : Kind) (b : Builder) : Except Error Sql.Statement :=
  Sql.readStatement b.query kind

/-- The statement of the builder's own kind. -/
def statement (b : Builder) : Except Error Sql.Statement := b.statementOf b.kind

/-- The statement that counts the rows a SELECT starts from. -/
def countStatement (b : Builder) : Except Error Sql.Statement := Sql.readCount b.query

/-- The builder's SELECT. -/
def selection (b : Builder) : Except Error Sql.Select := do
  Sql.readSelect (← Sql.readFrame b.query .select) b.query

/-- The builder as a value in another query. -/
def toValue (b : Builder) : Value :=
  .query b.shown (b.selection.map Sql.Select.tokens) (do (← b.selection).scalarTokens)

end Builder

end ModelQuery
