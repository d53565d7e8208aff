import ModelQuery.Query.Eager
import ModelQuery.Value.Conversion

/-!
# Calls on a builder

The operations a caller has, with their arguments as they were given. A call that fails keeps what
it did before: of several columns, tables or rows those before the bad one are there.
-/

namespace ModelQuery

/-- An operation on a builder with its arguments. -/
inductive Call where
  | select (columns : List Value)
  | selectArray (columns : Value)
  | distinct (value : Value)
  | addTables (tables : List Value)
  | join (table type : Value)
  | on (left op right : Value)
  | condition (clause : Clause) (logic : Logic) (column op value : Value)
  | openGroup (clause : Clause) (logic : Logic)
  | closeGroup (clause : Clause)
  | groupBy (columns : List Value)
  | orderBy (column direction : Value)
  | limit (number : Value)
  | offset (number : Value)
  /-- A mapping from columns to values. -/
  | set (pairs resolve : Value)
  | assign (column value resolve : Value)
  | columns (columns resolve : Value)
  | rows (rows : List Value)
  /-- A relationship path to load along. -/
  | eager (path : Value)
  /-- Another kind, or null to ask for the present one. -/
  | kind (kind : Value)
  | reset

/-- What a call answers. -/
inductive Reply where
  | done
  | kind (k : Kind)
  /-- The call was ignored, for the reason given. -/
  | ignored (warning : String)
deriving DecidableEq, Repr

/-- A step that works on a builder; where it fails, the builder stays as far as it came. -/
abbrev Step := EStateM Error Builder

namespace Step

/-- A result that does not depend on what is worked on. -/
def lift {σ α : Type} : Except Error α → EStateM Error σ α
  | .ok a => pure a
  | .error e => throw e

/-- The builder changed. -/
def change (f : Builder → Builder) : Step Reply := fun b => .ok .done (f b)

/-- The builder changed by a function that may refuse. -/
def tryChange (f : Builder → Except Error Builder) : Step Reply := fun b =>
  match f b with
  | .ok b' => .ok .done b'
  | .error e => .error e b

/-- A step for each item, up to the first that fails. -/
def each {α : Type} (f : α → Step Reply) : List α → Step Reply
  | [] => pure .done
  | a :: rest => do
    let _ ← f a
    each f rest

end Step

namespace Call

open Step

/-- A selected column, which may be a pair with an alias. -/
def selectOne (v : Value) : Step Reply := do
  let (column, asName) ← lift v.aliased
  change (·.select column asName)

/-- A table, which may be a pair with an alias. -/
def addOne (v : Value) : Step Reply := do
  let (table, asName) ← lift v.aliased
  change (·.addTable table asName)

/-- A test of the last join, which must be there. -/
def onLast (left op right : Value) (b : Builder) : Except Error Builder :=
  if b.draft.joins.isEmpty then .error .onWithoutJoin else .ok (b.on left op right)

/-- The innermost group of a clause closed, which must be open. -/
def closeOne (clause : Clause) (b : Builder) : Except Error Builder :=
  match b.closeGroup? clause with
  | some b' => .ok b'
  | none => .error .noOpenGroup

/-- A value assigned to a column, which must be able to be a key. -/
def assignOne (resolve column value : Value) (b : Builder) : Except Error Builder := do
  let key ← (b.assignmentKey (← resolve.isTrue) column).asKey
  return b.assign key value

/-- The columns of the rows to insert. Whether they are resolved is asked only if there is one. -/
def setColumns (resolve : Value) (columns : List Value) (b : Builder) : Except Error Builder := do
  if columns.isEmpty then return b.columns false []
  return b.columns (← resolve.isTrue) columns

/-- The entries of a mapping. -/
def entriesOf : Value → Except Error (List (Value × Value))
  | .mapping entries => .ok entries
  | _ => .error .noSuchOperation

/-- A row to insert, from anything that holds items. -/
def addRow (v : Value) : Step Reply := do
  let values ← lift v.items
  change (·.row values)

/-- A path loaded along. Only a canonical model has paths; without one the call is ignored. -/
def eagerOn (path : Value) : Step Reply := fun b =>
  match b.canonical, path.text? with
  | none, _ => .ok (.ignored (b.ignoredPath path)) b
  | some m, some p => .ok .done (b.eager m p)
  | some _, none => .error .noSuchOperation b.selectOwn

/-- The kind asked for or set. -/
def kindStep (v : Value) : Step Reply := fun b =>
  if v.isPresent then
    match Builder.kindOf v with
    | .ok k => .ok .done { b with kind := k }
    | .error e => .error e b
  else .ok (.kind b.kind) b

/-- What a call does. -/
def run : Call → Step Reply
  | .select cs => each selectOne cs
  | .selectArray cs => do each selectOne (← lift cs.items)
  | .distinct v => change (·.distinct v)
  | .addTables ts => each addOne ts
  | .join table type => do
    let (t, asName) ← lift table.aliased
    change (·.join t asName type)
  | .on left op right => tryChange (onLast left op right)
  | .condition clause logic column op v => change (·.condition clause logic column op v)
  | .openGroup clause logic => change (·.openGroup clause logic)
  | .closeGroup clause => tryChange (closeOne clause)
  | .groupBy cs => each (fun c => change (·.groupBy c)) cs
  | .orderBy column direction => change (·.orderBy column direction)
  | .limit number => change (·.limit number)
  | .offset number => change (·.offset number)
  | .set pairs resolve => do
    each (fun (column, v) => tryChange (assignOne resolve column v)) (← lift (entriesOf pairs))
  | .assign column v resolve => tryChange (assignOne resolve column v)
  | .columns cs resolve => do
    let cs ← lift cs.items
    tryChange (setColumns resolve cs)
  | .rows vs => each addRow vs
  | .eager path => eagerOn path
  | .kind v => kindStep v
  | .reset => tryChange Builder.reset

end Call

end ModelQuery
