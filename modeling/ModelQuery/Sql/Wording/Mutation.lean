import ModelQuery.Sql.Dialect
import ModelQuery.Sql.Wording.Select

/-!
# The wording of statements that change rows

UPDATE, INSERT and DELETE. Columns are always written in the order in which the changed table has
them, whatever order they were assigned in; an expression without a name stands before them. What is
assigned to an expression with a name goes to the column so called. Of several values for one column
the first is written, but in the later rows of an INSERT the last.

A value for something that is no column of the table has no text, nor has a later row without a
value for a column of the first. A statement that is given no values at all names every known column
with a placeholder.

`Statement.tokens` puts all statements together; only here does a dialect decide about words.
-/

namespace ModelQuery.Sql

/-! ## Assignments -/

/-- The values assigned to a column, in order. -/
def valuesFor (column : String) (as : List Assignment) : List Expr :=
  as.filterMap fun a => if a.target.name? = some column then some a.value else none

/-- The columns that are assigned to, in the order of the table, each with its first value. -/
def columnValues (columns : List String) (as : List Assignment) : List (String × Expr) :=
  columns.filterMap fun c => (valuesFor c as).head?.map fun e => (c, e)

/-- The expressions without a name that are assigned to, with their values. -/
def namelessValues (as : List Assignment) : List (Expr × Expr) :=
  as.filterMap fun a => match a.target with
    | .nameless e => some (e, a.value)
    | _ => none

/-- Something is assigned to that nothing can be assigned to. -/
def hasInvalid (as : List Assignment) : Bool :=
  as.any fun a => match a.target with
    | .invalid => true
    | _ => false

/-- A fault where something is assigned to that nothing can be assigned to. -/
def invalidFault (as : List Assignment) : List Token :=
  if hasInvalid as then [.fault .invalidOperand] else []

/-- A fault where a value is left for a column that the table does not have. -/
def leftoverFault (columns : List String) (as : List Assignment) : List Token :=
  if as.all fun a => (a.target.name?.map fun c => columns.contains c).getD true then []
  else [.fault .unrenderable]

/-- A value, bound under a given name where it is one. -/
def namedTokens (name : String) : Expr → List Token
  | .literal v => [.bind (.exact name) v]
  | e => operandTokens e

/-- The place of a value that is not there, bound in any case. -/
def unsetTokens (column : String) : List Token :=
  let name : BindName := if column = "" then .numbered valueStem else .exact column
  [.bound [.bind name .null]]

/-- An expression that is assigned to; the values in it are bound in any case. -/
def targetTokens (e : Expr) : List Token := [.bound (operandTokens e)]

/-! ## UPDATE -/

/-- A target with what it is set to. -/
def equated (target value : List Token) : List Token := target ++ [.word "="] ++ value

/-- The assignments of an UPDATE. -/
def setTokens (into : Changed) : Option (List Assignment) → List Token
  | none => listed (into.columns.map fun c => equated [.name c] (unsetTokens c))
  | some as =>
    invalidFault as ++
      listed ((namelessValues as).map (fun (t, e) => equated (targetTokens t) (operandTokens e)) ++
        (columnValues into.columns as).map fun (c, e) => equated [.name c] (namedTokens c e)) ++
      leftoverFault into.columns as

/-- The sources a changing statement reads beside the one it changes. -/
def furtherSources (into : Changed) (filter : Option Filter) : List Source :=
  listNew [into.source] (filterSources filter)

/-- An UPDATE. -/
def updateTokens (into : Changed) (assignments : Option (List Assignment))
    (filter : Option Filter) : List Token :=
  [.word "UPDATE "] ++ sourceTokens into.source ++ [.word " SET "] ++
    setTokens into assignments ++
    listClause " FROM " ((furtherSources into filter).map sourceTokens) ++
    clauseTokens " WHERE " filter

/-! ## DELETE -/

/-- The word before the sources a DELETE reads; one dialect has no such DELETE. -/
def deleteWord? : Dialect → Option String
  | .standard => some " , "
  | .postgresql => some " USING "
  | .sqlite => none

/-- The sources a DELETE reads, where it reads any. -/
def deleteSources (d : Dialect) : List (List Token) → List Token
  | [] => []
  | entries =>
    match deleteWord? d with
    | some word => listClause word entries
    | none => [.fault .unsupported]

/-- A DELETE. -/
def deleteTokens (d : Dialect) (into : Changed) (filter : Option Filter) : List Token :=
  [.word "DELETE FROM "] ++ sourceTokens into.source ++
    deleteSources d ((furtherSources into filter).map sourceTokens) ++ clauseTokens " WHERE " filter

/-! ## INSERT -/

/-- A row of values in parentheses. -/
def rowTokens (values : List (List Token)) : List Token := Formula.parenthesized (listed values)

/-- The name of a value of the first row. -/
def firstRowName (column : String) : String := column ++ "_m0"

/-- The columns and the rows of an INSERT in words. -/
structure Inserted where
  columns : List (List Token)
  rows : List (List Token)

/-- A value of a later row, or a fault where there is none. -/
def laterValue (cause : Error) (values : List Expr) : List Token :=
  match values.getLast? with
  | some e => operandTokens e
  | none => [.fault cause]

/-- A later row, which has a value for each of the columns. Expressions without a name cannot be
told apart in it. -/
def laterRow (nameless : Nat) (columns : List String) (as : List Assignment) : List Token :=
  let first := laterValue .noSuchOperation ((namelessValues as).map Prod.snd)
  invalidFault as ++ rowTokens (List.replicate nameless first ++
    columns.map fun c => laterValue .unrenderable (valuesFor c as))

/-- The columns and the rows of an INSERT: the first row decides the columns. -/
def insertRows (into : Changed) : Option (List (List Assignment)) → Inserted
  | none => ⟨into.columns.map fun c => [.name c], [rowTokens (into.columns.map unsetTokens)]⟩
  | some [] => ⟨[], [rowTokens []]⟩
  | some (first :: later) =>
    let nameless := namelessValues first
    let cells := columnValues into.columns first
    let values := nameless.map (fun (_, e) => operandTokens e) ++
      cells.map fun (c, e) => namedTokens (firstRowName c) e
    { columns := nameless.map (fun (t, _) => targetTokens t) ++ cells.map fun (c, _) => [.name c]
      rows := (invalidFault first ++ rowTokens values ++ leftoverFault into.columns first) ::
        later.map (laterRow nameless.length (cells.map Prod.fst)) }

/-- What of some tokens cannot be written. -/
def faultsIn (ts : List Token) : List Token :=
  ts.filter fun t => match t with
    | .fault _ => true
    | _ => false

/-- The table to insert into, and the fault of one that cannot be written. That shows last. -/
def insertTarget : SourceName → List Token × List Token
  | .text s => ([.name s], [])
  | .other _ cause => ([], [.fault cause])

/-- An INSERT. A row without columns has a wording of its own in some dialects. -/
def insertTokens (d : Dialect) (into : Changed) (rows : Option (List (List Assignment))) :
    List Token :=
  let (name, fault) := insertTarget into.source.name
  let opening := [.word "INSERT INTO "] ++ name
  let inserted := insertRows into rows
  let body :=
    if inserted.columns.isEmpty && d != .standard then
      [.word " DEFAULT VALUES"] ++ faultsIn inserted.rows.flatten
    else
      [.word " "] ++ rowTokens inserted.columns ++ [.word " VALUES "] ++ listed inserted.rows
  opening ++ body ++ fault

/-! ## All statements -/

namespace Statement

/-- A statement as tokens. -/
def tokens (d : Dialect) : Statement → List Token
  | .select s => s.tokens
  | .count tables filter => countTokens tables filter
  | .update into assignments filter => updateTokens into assignments filter
  | .insert into rows => insertTokens d into rows
  | .delete into filter => deleteTokens d into filter

end Statement

end ModelQuery.Sql
