import ModelQuery.Assoc
import ModelQuery.Query.Clauses
import ModelQuery.Text.QuotedParts
import ModelQuery.Value.Conversion

/-!
# Catalogs

A statement is compiled without a schema: the tables it names exist for it, each with exactly the
columns it mentions. The catalog collects both. A mention `table.column` through an alias is a
mention of a column of the table behind it.

A resolved text is read in one of three ways: as raw SQL, as a relationship label, or as a plain
column with or without a table.
-/

namespace ModelQuery.Sql

/-! ## References -/

/-- The text is SQL of its own: it holds a quote, a parenthesis, a blank or a star. -/
def isRaw (s : String) : Bool :=
  s.toList.any fun c => c == '"' || c == '(' || c == ' ' || c == '*'

/-- A column by its name and, where one is written, its table. -/
structure PlainColumn where
  table : Option String
  column : String
deriving DecidableEq, Repr

/-- A text cut at its last point. -/
def PlainColumn.ofText (s : String) : PlainColumn :=
  match Text.splitLast? '.' s with
  | some (table, column) => ⟨some table, column⟩
  | none => ⟨none, s⟩

/-- The plain column a text refers to, if it is neither raw nor a relationship label. -/
def plainText? (s : String) : Option PlainColumn :=
  if isRaw s || Text.holds s ':' then none else some (.ofText s)

/-- The plain column a value refers to. -/
def plainColumn? (v : Value) : Option PlainColumn := v.text?.bind plainText?

/-! ## Collecting -/

/-- A table entry by its names. -/
structure TableEntry where
  table : SourceName
  asName : Option SourceName
deriving DecidableEq, Repr

/-- The name an entry is visible under. -/
def TableEntry.visible (e : TableEntry) : SourceName := e.asName.getD e.table

/-- Tables with their columns, and aliases with the tables behind them, in order of mention. -/
structure Mentions where
  columns : List (SourceName × List String)
  aliases : List (SourceName × SourceName)
deriving DecidableEq, Repr

namespace Mentions

/-- Nothing is mentioned. -/
def empty : Mentions := ⟨[], []⟩

/-- A table entry, which may have an alias. -/
def addEntry (m : Mentions) (e : TableEntry) : Mentions :=
  { columns := Assoc.putNew e.table [] m.columns
    aliases := match e.asName with
      | some a => Assoc.put a e.table m.aliases
      | none => m.aliases }

/-- The table a name stands for. -/
def behind (m : Mentions) (name : SourceName) : SourceName := (m.aliases.lookup name).getD name

/-- A column of the table a name stands for. -/
def addColumn (table : SourceName) (column : String) (m : Mentions) : Mentions :=
  let name := m.behind table
  let known := (m.columns.lookup name).getD []
  let columns := if column ∈ known then known else known ++ [column]
  { m with columns := Assoc.put name columns m.columns }

/-- A reference; only a plain column with a table is a mention. -/
def addReference (m : Mentions) (v : Value) : Mentions :=
  match plainColumn? v with
  | some ⟨some table, column⟩ => m.addColumn (.text table) column
  | _ => m

/-- A reference to a column of a given table, whatever table it writes. -/
def addTo (table : SourceName) (m : Mentions) (v : Value) : Mentions :=
  match plainColumn? v with
  | some c => m.addColumn table c.column
  | none => m

end Mentions

/-! ## The catalog -/

/-- A source with the columns it has. -/
structure CatalogEntry where
  source : Source
  columns : List String
deriving DecidableEq, Repr

/-- The sources of a statement by their visible names. -/
structure Catalog where
  entries : List (SourceName × CatalogEntry)
deriving DecidableEq, Repr

namespace Catalog

/-- The name of the table at the end of a chain of aliases. -/
def root (s : Source) : SourceName := s.aliasOf.getD s.name

/-- An alias of whatever its table's name stands for so far. -/
def addAlias (entries : List (SourceName × CatalogEntry)) (asName table : SourceName) :
    List (SourceName × CatalogEntry) :=
  match entries.lookup table with
  | some e =>
    let source : Source := { name := asName, aliasOf := some (root e.source) }
    Assoc.put asName ⟨source, e.columns⟩ entries
  | none => entries

/-- A table of no known columns. -/
def bareTable (name : SourceName) : CatalogEntry := ⟨{ name, aliasOf := none }, []⟩

/-- The catalog of what was mentioned: all tables first, then the aliases in order. -/
def ofMentions (m : Mentions) : Catalog :=
  ⟨m.aliases.foldl (fun es (asName, table) => addAlias es asName table)
    (m.columns.map fun (name, columns) => (name, { bareTable name with columns }))⟩

/-- The entry with a visible name. -/
def entry? (c : Catalog) (name : SourceName) : Option CatalogEntry := c.entries.lookup name

/-- The entry of a name; one that nothing is known about is a table without columns. -/
def entry (c : Catalog) (name : SourceName) : CatalogEntry := (c.entry? name).getD (bareTable name)

/-- A column of an entry, which must have it. -/
def columnOf (e : CatalogEntry) (column : String) : Except Error Expr :=
  if column ∈ e.columns then .ok (.column (some e.source) column) else .error .unknownKey

/-- A resolved text as an expression. -/
def textExpr (c : Catalog) (s : String) : Except Error Expr :=
  if s = "*" ∨ s.toList.reverse.take 2 = ['*', '.'] then .ok (.verbatim s)
  else if isRaw s then .ok (.verbatim (Text.unquoteParts s))
  -- a relationship label is a name of its own, points and all
  else if Text.holds s ':' then .ok (.column none s)
  else
    let p := PlainColumn.ofText s
    match p.table.bind fun t => if t = "" then none else c.entry? (.text t) with
    | some e => columnOf e p.column
    | none => .ok (.column none p.column)

/-- A resolved reference as an operand: a text becomes an expression, a query must be one, anything
else stays what it is. -/
def operand (c : Catalog) (v : Value) : Except Error Value :=
  match v with
  | .query _ (.error e) _ => .error e
  | _ =>
    match v.text? with
    | some s => (c.textExpr s).map .sql
    | none => .ok v

end Catalog

end ModelQuery.Sql
