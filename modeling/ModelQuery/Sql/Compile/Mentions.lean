import ModelQuery.Sql.Catalog

/-!
# The catalog of a query

What a query mentions: its tables with their aliases, then the columns of all its references, from
whatever clause they come. A statement that writes columns mentions those as columns of the first
table.

A name is a key of the catalog, so a table or an alias that can be no key is refused here. One that
is no text is told from the others by the first that equals it, if its sort can be equal to
anything.
-/

namespace ModelQuery.Sql

/-! ## Names of tables -/

/-- All table entries with their aliases, the joined ones last. -/
def tableValues (q : Query) : List (Value × Value) :=
  q.tables ++ q.joins.map fun j => (j.table, j.asName)

/-- The number of a name among the names before it. -/
def numberOf (earlier : List Value) (v : Value) : Nat :=
  (earlier.findIdx? (· == v)).getD earlier.length

/-- What happens when a name that is no text is written. -/
def nameFault : Value → Error
  | .sql _ => .wrongType
  | _ => .noSuchOperation

/-- The name a value is, after other names; it must be able to be a key. -/
def sourceName (earlier : List Value) (v : Value) : Except Error SourceName := do
  match (← v.asKey).text? with
  | some s => return .text s
  | none => return .other (numberOf earlier v) (nameFault v)

/-- The alias a value gives; a value that counts as false gives none. -/
def givenAlias (v : Value) : Except Error (Option Value) := do
  return if ← v.isTrue then some v else none

/-- An entry after other names, and the names after it. -/
def readEntry (earlier : List Value) (entry : Value × Value) :
    Except Error (TableEntry × List Value) := do
  let (table, asName) := entry
  let name ← sourceName earlier table
  let earlier := earlier ++ [table]
  match ← givenAlias asName with
  | none => return (⟨name, none⟩, earlier)
  | some asName =>
    let visible ← sourceName earlier asName
    return (⟨name, some visible⟩, earlier ++ [asName])

/-- Entries after other names. -/
def readEntries (earlier : List Value) : List (Value × Value) → Except Error (List TableEntry)
  | [] => .ok []
  | entry :: rest => do
    let (e, earlier) ← readEntry earlier entry
    return e :: (← readEntries earlier rest)

/-! ## What is mentioned -/

/-- All references that may mention a column, in order. -/
def references (q : Query) : List Value :=
  q.select.map Prod.fst ++ q.orderBy.map Prod.fst ++ q.groupBy ++
    Condition.columnsAll q.filter ++ Condition.columnsAll q.having ++
    q.joins.flatMap fun j => j.on.flatMap fun t => [t.left, t.right]

/-- The columns that an INSERT or UPDATE writes. -/
def writtenColumns (q : Query) : Kind → List Value
  | .insert | .update => q.columns ++ q.assignments.map Prod.fst
  | _ => []

/-- Written columns mentioned as columns of a table, whatever table they are written with. -/
def mentionWritten (target : Option TableEntry) (written : List Value) (m : Mentions) : Mentions :=
  match target with
  | some entry => written.foldl (Mentions.addTo entry.table) m
  | none => m

/-- What a query mentions with its table entries when it becomes a statement of a kind. -/
def mentions (q : Query) (kind : Kind) (entries : List TableEntry) : Mentions :=
  let target := if q.tables.isEmpty then none else entries.head?
  mentionWritten target (writtenColumns q kind)
    ((references q).foldl Mentions.addReference (entries.foldl Mentions.addEntry .empty))

/-- A query's catalog, with its table entries and its joined entries by name. -/
structure Frame where
  catalog : Catalog
  tables : List TableEntry
  joined : List TableEntry
deriving DecidableEq, Repr

/-- What a query is read in when it becomes a statement of a kind. -/
def readFrame (q : Query) (kind : Kind) : Except Error Frame := do
  let entries ← readEntries [] (tableValues q)
  return {
    catalog := .ofMentions (mentions q kind entries)
    tables := entries.take q.tables.length
    joined := entries.drop q.tables.length }

end ModelQuery.Sql
