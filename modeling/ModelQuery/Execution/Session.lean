import ModelQuery.Execution.Database
import ModelQuery.Query.Call
import ModelQuery.Records.Collection

/-!
# Sessions

A session is a builder with a database to run against and with the answer it has already had. A
builder is executed once: after that it answers what it answered, whatever is changed about it,
until it is reset. Counting runs at once and leaves the answer alone.

The SELECT of a registered model starts from the model's own sort order and relationships. They are
added to the builder for the statement that is sent, and taken back before it is sent.
-/

namespace ModelQuery

/-- What an execution comes to. -/
inductive Outcome where
  | collection (c : Collection)
  /-- One record, or nothing. -/
  | record (r : Record)
  | mutation (m : Mutation)

/-- Whose object an answer is. -/
inductive Origin where
  /-- Nobody's: it is nothing. -/
  | nothing
  /-- The database's own row. -/
  | row
  /-- The database's own report. -/
  | report
  /-- It was made when so many statements had been sent. -/
  | made (statements : Nat)
deriving DecidableEq, Repr

/-- The answer of an execution. -/
structure Answer where
  outcome : Outcome
  origin : Origin

/-- A builder that can be executed. -/
structure Session where
  builder : Builder
  database : Option Database
  /-- The answer it has had. -/
  answered : Option Answer := none

/-- A step that works on a session. -/
abbrev Run := EStateM Error Session

/-! ## Defaults of the model -/

namespace Builder

/-- A default sort key; its column is always qualified, for relationships may bring in columns of
the same name. -/
def sortDefault (entry : Value) (b : Builder) : Except Error Builder := do
  let (column, direction) ← entry.pair
  return b.withDraft fun d =>
    { d with orderBy := d.orderBy ++ [(b.scope.column (some true) column, direction)] }

/-- What a model adds to every SELECT: its sort keys, then the paths it loads along, as a caller
would have them loaded. -/
def addDefaults (m : Model) : Step Reply := do
  let _ ← Step.each (fun entry => Step.tryChange (sortDefault entry)) m.sorting
  Step.each Call.eagerOn m.loadWith

/-- A step whose changes to the clauses are taken back, whatever comes of it. -/
def takingBack {α : Type} (step : EStateM Error Builder α) : EStateM Error Builder α := fun b =>
  match step b with
  | .ok a b' => .ok a { b' with draft := b.draft }
  | .error e b' => .error e { b' with draft := b.draft }

/-- The statement of a SELECT with what its model adds. -/
def buildWithDefaults (m : Model) : EStateM Error Builder Sql.Statement :=
  takingBack do
    let _ ← addDefaults m
    Step.lift (← get).statement

/-- The statement an execution sends. -/
def executed : EStateM Error Builder Sql.Statement := do
  let b ← get
  match b.canonical, b.kind with
  | some m, .select => buildWithDefaults m
  | _, _ => Step.lift b.statement

/-- The group a statement runs in: that of the model, else the one asked for. -/
def groupOr (group : Value) (b : Builder) : Value :=
  match b.canonical with
  | some m => .text m.group
  | none => group

/-- The builder asks for one row, and so for a record. -/
def asksForOne (b : Builder) : Bool := b.draft.limit == .int 1

end Builder

/-! ## Execution -/

namespace Session

/-- A session that has not run yet. -/
def ofBuilder (b : Builder) (database : Option Database) : Session := { builder := b, database }

/-- The database, which must be there. -/
def databaseOf (s : Session) : Except Error Database :=
  match s.database with
  | some db => .ok db
  | none => .error .noDatabase

/-- A step on the builder. -/
def onBuilder {α : Type} (step : EStateM Error Builder α) : Run α := fun s =>
  match step s.builder with
  | .ok a b => .ok a { s with builder := b }
  | .error e b => .error e { s with builder := b }

/-- A statement sent to the database. -/
def send (group : Value) (statement : Sql.Statement) : Run DatabaseAnswer := fun s =>
  match s.database with
  | none => .error .noDatabase s
  | some db =>
    let (answer, db) := db.run group statement
    match answer with
    | .ok a => .ok a { s with database := some db }
    | .error e => .error e { s with database := some db }

/-- The outcome a builder makes of what the database answered. -/
def outcomeOf (b : Builder) : DatabaseAnswer → Except Error Outcome
  | .mutation m => .ok (.mutation m)
  | .rows rows =>
    let c : Collection := { model := b.canonical, rows, registry := some b.registry }
    if b.asksForOne then c.current.map .record else .ok (.collection c)

/-- Whose object an outcome is: without a model a row is handed on as it is. -/
def originOf (db : Database) (b : Builder) : Outcome → Origin
  | .collection _ => .made db.calls.length
  | .mutation _ => if db.lends then .report else .made db.calls.length
  | .record r =>
    if !r.isPresent then .nothing
    else if db.lends && b.canonical.isNone then .row
    else .made db.calls.length

/-- The answer to a statement that was answered. -/
def answerOf (s : Session) (a : DatabaseAnswer) : Except Error Answer := do
  let outcome ← outcomeOf s.builder a
  return ⟨outcome, originOf (← s.databaseOf) s.builder outcome⟩

/-- The builder executed, unless it was. -/
def execute (group : Value) : Run Answer := do
  let s ← get
  match s.answered with
  | some a => return a
  | none =>
    let _ ← Step.lift s.databaseOf
    let statement ← onBuilder Builder.executed
    let reply ← send (s.builder.groupOr group) statement
    let answer ← Step.lift ((← get).answerOf reply)
    modify fun s => { s with answered := some answer }
    return answer

/-- The total a count was answered with. -/
def totalOf : DatabaseAnswer → Except Error Int
  | .mutation _ => .error .wrongType
  | .rows [] => .error .outOfRange
  | .rows (row :: _) =>
    match row.lookup (.text Sql.countLabel) with
    | some v => v.toInt
    | none => .error .unknownKey

/-- The rows counted that a SELECT would start from. -/
def count : Run Int := do
  let s ← get
  let _ ← Step.lift s.databaseOf
  let statement ← Step.lift s.builder.countStatement
  let reply ← send (s.builder.groupOr (.text defaultGroup)) statement
  Step.lift (totalOf reply)

/-- A call on the builder. A reset also forgets the answer. -/
def call (c : Call) : Run Reply := fun s =>
  match c.run s.builder with
  | .error e b => .error e { s with builder := b }
  | .ok r b =>
    match c with
    | .reset => .ok r { s with builder := b, answered := none }
    | _ => .ok r { s with builder := b }

/-- What can be done with a session. -/
inductive Action where
  | call (c : Call)
  | execute (group : Value)
  | count

/-- What an action answers. -/
inductive Response where
  | reply (r : Reply)
  | answer (a : Answer)
  | total (n : Int)

/-- An action done. -/
def act : Action → Run Response
  | .call c => return .reply (← call c)
  | .execute group => return .answer (← execute group)
  | .count => return .total (← count)

end Session

end ModelQuery
