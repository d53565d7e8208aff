import ModelQuery.Query.Clauses
import ModelQuery.Resolve
import ModelQuery.Value.Shown

/-!
# Builders

A builder gathers the clauses of a query about a model. Names are resolved as they come in, against
the registry and the canonical model: the first registered model among the builder's own and the
tables it is told about.

The functions here say what each piece of a query adds; none of them can fail. Taking the arguments
of a call apart, which can, is left to `Call`.
-/

namespace ModelQuery

/-- A query in the making, for a model, to become a statement of a kind. -/
structure Builder where
  registry : Registry
  /-- What the builder was made for, as it was given. -/
  model : Value
  kind : Kind
  canonical : Option Model
  draft : Draft

/-- The two clauses that hold conditions. -/
inductive Clause where
  | filter
  | having
deriving DecidableEq, Repr

/-- The conditions of a clause changed. -/
def Draft.onClause (clause : Clause) (f : OpenConditions → OpenConditions) (d : Draft) : Draft :=
  match clause with
  | .filter => { d with filter := f d.filter }
  | .having => { d with having := f d.having }

/-- The conditions of a clause. -/
def Draft.clause (clause : Clause) (d : Draft) : OpenConditions :=
  match clause with
  | .filter => d.filter
  | .having => d.having

namespace Builder

/-! ## Names -/

/-- What names are resolved against. -/
def scope (b : Builder) : Scope := ⟨b.registry, b.canonical⟩

/-- The builder as messages show it. -/
def shown (b : Builder) : String := "<Builder " ++ b.kind.word ++ " model=" ++ b.model.shown ++ ">"

/-- The query so far, its open groups closed. -/
def query (b : Builder) : Query := b.draft.finish

/-- The builder with its clauses changed. -/
def withDraft (f : Draft → Draft) (b : Builder) : Builder := { b with draft := f b.draft }

/-! ## Clauses -/

/-- A selected column with its alias. -/
def select (column asName : Value) (b : Builder) : Builder :=
  let item := (b.scope.column (some true) column, asName)
  b.withDraft fun d => { d with select := d.select ++ [item] }

/-- Equal rows told to be answered once, or not. -/
def distinct (v : Value) (b : Builder) : Builder := b.withDraft fun d => { d with distinct := v }

/-- A table with its alias. The first registered one becomes the canonical model. -/
def addTable (table asName : Value) (b : Builder) : Builder :=
  { b with
    canonical := b.canonical.or (b.registry.lookup? table)
    draft := { b.draft with tables := b.draft.tables ++ [(b.scope.table table, asName)] } }

/-- A joined table, without tests yet. -/
def join (table asName type : Value) (b : Builder) : Builder :=
  b.withDraft fun d => { d with joins := d.joins ++ [⟨b.scope.table table, asName, type, []⟩] }

/-- One more test for a join. -/
def addTest (t : JoinTest) (j : Join) : Join := { j with on := j.on ++ [t] }

/-- The joins with one more test for the last. -/
def addToLast (t : JoinTest) : List Join → List Join
  | [] => []
  | [j] => [addTest t j]
  | j :: rest => j :: addToLast t rest

/-- A test of the last join. -/
def on (left op right : Value) (b : Builder) : Builder :=
  let t : JoinTest := ⟨b.scope.column (some true) left, op, b.scope.column (some true) right⟩
  b.withDraft fun d => { d with joins := addToLast t d.joins }

/-- Columns of a filter are always qualified, those of HAVING only if they were. -/
def qualified : Clause → Option Bool
  | .filter => some true
  | .having => none

/-- A condition in the innermost open group of a clause. -/
def condition (clause : Clause) (logic : Logic) (column op value : Value) (b : Builder) : Builder :=
  let c := Condition.test logic (b.scope.column (qualified clause) column) op value
  b.withDraft (Draft.onClause clause (OpenConditions.push c))

/-- A group opened in a clause. -/
def openGroup (clause : Clause) (logic : Logic) (b : Builder) : Builder :=
  b.withDraft (Draft.onClause clause (OpenConditions.openGroup logic))

/-- The innermost group of a clause closed, if one is open. -/
def closeGroup? (clause : Clause) (b : Builder) : Option Builder :=
  ((b.draft.clause clause).close?).map fun o => b.withDraft (Draft.onClause clause fun _ => o)

/-- A column to group by; it is looked up as a model. -/
def groupBy (column : Value) (b : Builder) : Builder :=
  b.withDraft fun d => { d with groupBy := d.groupBy ++ [b.scope.table column] }

/-- A column to sort by, with its direction. -/
def orderBy (column direction : Value) (b : Builder) : Builder :=
  b.withDraft fun d =>
    { d with orderBy := d.orderBy ++ [(b.scope.column none column, direction)] }

/-- The number of rows to answer at most. -/
def limit (v : Value) (b : Builder) : Builder := b.withDraft fun d => { d with limit := v }

/-- The number of rows to leave out first. -/
def offset (v : Value) (b : Builder) : Builder := b.withDraft fun d => { d with offset := v }

/-- The key a column is assigned under, resolved if asked for. -/
def assignmentKey (resolve : Bool) (column : Value) (b : Builder) : Value :=
  if resolve then b.scope.column none column else column

/-- A value assigned under a key; the last value of a key stays. -/
def assign (key value : Value) (b : Builder) : Builder :=
  b.withDraft fun d => { d with assignments := Assoc.put key value d.assignments }

/-- The columns of the rows to insert, in place of earlier ones. -/
def columns (resolve : Bool) (columns : List Value) (b : Builder) : Builder :=
  b.withDraft fun d => { d with columns := columns.map fun c => b.assignmentKey resolve c }

/-- A row to insert. -/
def row (values : List Value) (b : Builder) : Builder :=
  b.withDraft fun d => { d with rows := d.rows ++ [values] }

/-! ## Beginning -/

/-- A builder that only knows what it is about: the table of its model, or what was given if that is
no registered model. -/
def opened (registry : Registry) (model : Value) (kind : Kind) : Except Error Builder := do
  let b : Builder :=
    { registry, model, kind, canonical := registry.lookup? model, draft := .empty }
  match b.canonical with
  | some m => return b.addTable m.tableName.toValue .null
  | none =>
    let (table, asName) ← model.aliased
    return b.addTable table asName

/-- The kind a value names. -/
def kindOf (v : Value) : Except Error Kind :=
  match v.text?.bind Kind.ofText? with
  | some k => .ok k
  | none => .error (.unknownKind v.shown)

/-- A new builder. It needs a model and a kind. -/
def create (registry : Registry) (model kind : Value) : Except Error Builder := do
  if !(← model.isTrue) || !kind.isPresent then throw .missingModelOrKind
  opened registry model (← kindOf kind)

/-- The builder as it began, but for the kind it has now. -/
def reset (b : Builder) : Except Error Builder := opened b.registry b.model b.kind

/-! ## The query as a value -/

@[simp] theorem registry_withDraft (f : Draft → Draft) (b : Builder) :
    (b.withDraft f).registry = b.registry := rfl

@[simp] theorem canonical_withDraft (f : Draft → Draft) (b : Builder) :
    (b.withDraft f).canonical = b.canonical := rfl

@[simp] theorem draft_withDraft (f : Draft → Draft) (b : Builder) :
    (b.withDraft f).draft = f b.draft := rfl

end Builder

end ModelQuery
