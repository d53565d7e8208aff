import ModelQuery.Records.Load
import ModelQuery.Sql.Text

/-!
# Databases

A database takes a statement for a connection group and answers with rows or with what a change came
to. Here it answers from a script, and it keeps every statement it was given.

There are three sorts. A single script answers for every group, and can refuse the first few
statements; what it answers with stays its own. A grouped database has one script a group, knows no
other groups, and makes each answer anew; only an INSERT tells it about a last row. Neither looks at
the text of a statement. A custom database stands for all others: every answer is its own decision,
taken from all it was ever given.
-/

namespace ModelQuery

/-- What a database answers with. -/
structure Script where
  rows : List Row := []
  rowcount : Value := .int 0
  lastrowid : Value := .null

/-- The sorts of databases. -/
inductive Backing where
  /-- One script; so many statements are still to be refused. -/
  | single (script : Script) (failures : Nat)
  | grouped (groups : List (String × Script))
  /-- A script or a refusal for everything given so far, of which the last is to be answered; and
  whether the answers stay the database's own. -/
  | custom (lends : Bool) (respond : List (Value × Sql.Statement) → Except Error Script)

/-- A database with the statements it was given so far, each with its group. -/
structure Database where
  backing : Backing
  calls : List (Value × Sql.Statement) := []

/-- The outcome of a change. -/
structure Mutation where
  rowcount : Value
  lastrowid : Value

/-- What a statement is answered with. -/
inductive DatabaseAnswer where
  | rows (rows : List Row)
  | mutation (m : Mutation)

namespace Database

/-- The answers stay the database's own: the same statement is answered with the same objects. -/
def lends (db : Database) : Bool :=
  match db.backing with
  | .single _ _ => true
  | .grouped _ => false
  | .custom lends _ => lends

/-- The database after one more statement. -/
def record (group : Value) (s : Sql.Statement) (db : Database) : Database :=
  { db with calls := db.calls ++ [(group, s)] }

/-- What a script answers. -/
def answer (script : Script) (lastrowid : Value) (s : Sql.Statement) : DatabaseAnswer :=
  if s.hasRows then .rows script.rows else .mutation ⟨script.rowcount, lastrowid⟩

/-- The script of a group, which must be known. -/
def scriptOf (groups : List (String × Script)) (group : Value) : Except Error Script := do
  let group ← group.asKey
  match group.text?.bind fun name => groups.lookup name with
  | some script => return script
  | none => throw (.unknownGroup group.shown (Assoc.keys groups))

/-- Whether a statement inserts rows. -/
def inserts : Sql.Statement → Bool
  | .insert _ _ => true
  | _ => false

/-- A statement run in a group: the answer, and the database after it. -/
def run (group : Value) (s : Sql.Statement) (db : Database) :
    Except Error DatabaseAnswer × Database :=
  match db.backing with
  | .single script 0 => (.ok (answer script script.lastrowid s), db.record group s)
  | .single script (n + 1) =>
    (.error .databaseFailed, { db.record group s with backing := .single script n })
  | .grouped groups =>
    match scriptOf groups group with
    | .error e => (.error e, db)
    | .ok script =>
      let lastrowid := if inserts s then script.lastrowid else .null
      (.ok (answer script lastrowid s), db.record group s)
  | .custom _ respond =>
    let db := db.record group s
    ((respond db.calls).map fun script => answer script script.lastrowid s, db)

end Database

end ModelQuery
