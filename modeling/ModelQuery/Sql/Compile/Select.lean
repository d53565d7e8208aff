import ModelQuery.Sql.Compile.Mentions
import ModelQuery.Sql.Compile.Tests
import ModelQuery.Value.Shown

/-!
# Reading SELECT

The clauses of a query as the parts of a SELECT. Of every clause all references are read before any
of their operands is refused, so a reference that cannot be read is what is reported.
-/

namespace ModelQuery.Sql

/-! ## Tables and joins -/

/-- The kind of join a value names. -/
def joinKind (type : Value) : Except Error JoinKind := do
  if !(← type.isTrue) then return .inner
  match type.text? with
  | none => throw .noSuchOperation
  | some s =>
    let word := Text.upper s
    if word = "INNER" then return .inner
    else if word = "LEFT" ∨ word = "LEFT OUTER" then return .left
    else if word = "FULL" ∨ word = "FULL OUTER" then return .full
    else throw (.unsupportedJoin type.shown)

/-- A test of a join: both of its sides are references. -/
def readJoinTest (c : Catalog) (t : JoinTest) : Except Error Filter := do
  let left ← c.operand t.left
  let right ← c.operand t.right
  return .test (← compare left t.op right)

/-- A joined source. -/
def readJoin (c : Catalog) (j : Join) (entry : TableEntry) : Except Error JoinItem := do
  let kind ← joinKind j.type
  let on ← j.on.mapM (readJoinTest c)
  return ⟨kind, (c.entry entry.visible).source, Formula.all? on⟩

/-- The sources of a statement. Joins need a table to be joined to. -/
def readTables (f : Frame) (q : Query) : Except Error (Option Tables) := do
  match f.tables.map fun e => (f.catalog.entry e.visible).source with
  | [] => return none
  | first :: others =>
    let joins ← (q.joins.zip f.joined).mapM fun (j, entry) => readJoin f.catalog j entry
    return some ⟨first, joins, others⟩

/-! ## SELECT -/

/-- The operand as an item under an alias. -/
def aliasedItem (asName : Value) (v : Value) : Except Error SelectItem := do
  return ⟨← subject (← valueOf v), some asName⟩

/-- The operand as an item without an alias. A number stands for its text, and a query for nothing
that could be an item. -/
def plainItem : Value → Except Error SelectItem
  | .null => .ok ⟨.null, none⟩
  | .bool b => .ok ⟨.truth b, none⟩
  | .int n => .ok ⟨.verbatim (toString n), none⟩
  | .float x => .ok ⟨.verbatim (Decimal.floatText x), none⟩
  | .sql e => .ok ⟨e, none⟩
  | _ => .error .invalidOperand

/-- An item as far as its own reference decides. -/
def readItem (c : Catalog) (item : Value × Value) : Except Error (Value ⊕ SelectItem) := do
  let asName ← givenAlias item.2
  let v ← c.operand item.1
  match asName with
  | some asName => return .inr (← aliasedItem asName v)
  | none => return .inl v

/-- The items of a SELECT. Every reference is read before any operand is refused. -/
def readItems (c : Catalog) (items : List (Value × Value)) : Except Error (List SelectItem) := do
  let read ← items.mapM (readItem c)
  if read.isEmpty then return [⟨.verbatim "*", none⟩]
  read.mapM fun
    | .inl v => plainItem v
    | .inr item => .ok item

/-! ## Keys -/

/-- The direction a value names. -/
def direction (v : Value) : Except Error Direction := do
  if !(← v.isTrue) then return .unspecified
  match v.text? with
  | none => throw .noSuchOperation
  | some s =>
    let word := Text.upper (Text.strip s)
    if word = "" then return .unspecified
    else if word = "ASC" then return .ascending
    else if word = "DESC" then return .descending
    else throw (.unknownDirection word)

/-- A sort key as far as its own reference decides: only an expression has a direction. -/
def readSort (c : Catalog) (entry : Value × Value) : Except Error (Value × Direction) := do
  let v ← c.operand entry.1
  let d ← direction entry.2
  if d ≠ .unspecified then
    let _ ← subject v
  return (v, d)

/-- The operand as a key to sort by. -/
def sortKey : Value → Except Error Expr
  | .null => .ok .null
  | .bool b => .ok (.truth b)
  | .query _ _ scalar => scalar.map .subselect
  | .sql (.relation _) => .error .invalidOperand
  | .sql e => .ok e
  | _ => .error .invalidOperand

/-- The operand as a key to group by; a whole table is none. -/
def groupKey : Value → Except Error (Option GroupKey)
  | .null => .ok (some (.expr .null))
  | .bool b => .ok (some (.expr (.truth b)))
  | .query _ plain _ => plain.map fun ts => some (.query ts)
  | .sql (.relation _) => .ok none
  | .sql e => .ok (some (.expr e))
  | _ => .error .invalidOperand

/-- The keys to group by. A single null asks for no keys. -/
def readGroups (c : Catalog) (columns : List Value) : Except Error (List GroupKey) := do
  match ← columns.mapM c.operand with
  | [.null] => return []
  | vs => return (← vs.mapM groupKey).filterMap id

/-- The keys to sort by. A single null asks for no keys. -/
def readSorting (c : Catalog) (entries : List (Value × Value)) :
    Except Error (List (Expr × Direction)) := do
  match ← entries.mapM (readSort c) with
  | [(.null, _)] => return []
  | vs => vs.mapM fun (v, d) => do return (← sortKey v, d)

/-! ## The statement -/

/-- A limit or an offset, where one is given: SQL, or a whole number. -/
def readLimit (v : Value) : Except Error (Option Expr) :=
  match v with
  | .null => .ok none
  | .query _ plain _ => plain.bind fun _ => .error .invalidOperand
  | .sql (.relation _) => .error .invalidOperand
  | .sql e => .ok (some e)
  | v => v.toInt.map fun n => some (.literal (.int n))

/-- A SELECT. -/
def readSelect (f : Frame) (q : Query) : Except Error Select := do
  let items ← readItems f.catalog q.select
  let tables ← readTables f q
  let filter ← readFilter f.catalog q.filter
  let groupBy ← readGroups f.catalog q.groupBy
  let having ← readFilter f.catalog q.having
  let orderBy ← readSorting f.catalog q.orderBy
  let distinct ← q.distinct.isTrue
  let limit ← readLimit q.limit
  let offset ← readLimit q.offset
  return { distinct, items, tables, filter, groupBy, having, orderBy, limit, offset }

end ModelQuery.Sql
