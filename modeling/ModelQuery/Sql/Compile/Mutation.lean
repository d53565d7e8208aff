import ModelQuery.Sql.Compile.Mentions
import ModelQuery.Sql.Compile.Tests

/-!
# Reading statements that change rows

The first table of a query is the one that is changed. What is assigned to is a plain column of that
table, whatever table it is written with. SQL can be assigned to as well: text and columns without a
table by their name, calls without one. Anything else cannot, which an UPDATE says at once and an
INSERT when it is written.

Values are assigned as they come: a column that is assigned twice keeps its place and takes the
later value. SQL is an object of its own each time, so it keeps each of its values.
-/

namespace ModelQuery.Sql

/-- The table a changing statement is about: the first. -/
def readTarget (f : Frame) (kind : Kind) : Except Error Changed :=
  match f.tables with
  | [] => .error (.noTarget kind)
  | first :: _ =>
    let entry := f.catalog.entry first.table
    .ok ⟨entry.source, entry.columns⟩

/-- What a reference assigns to: a plain column is a column of the changed table. -/
def readKey (c : Catalog) (into : Changed) (v : Value) : Except Error (Target ⊕ Value) :=
  match plainColumn? v with
  | some p => if p.column ∈ into.columns then .ok (.inl (.column p.column)) else .error .unknownKey
  | none => (c.operand v).map .inr

/-- The target that an operand is. -/
def targetOf : Target ⊕ Value → Target
  | .inl t => t
  | .inr (.sql (.column _ name)) => .named name
  | .inr (.sql (.verbatim text)) => .named text
  | .inr (.sql (.call function args)) => .nameless (.call function args)
  | .inr (.sql (.part field time)) => .nameless (.part field time)
  | .inr _ => .invalid

/-- The same column is assigned to. -/
def sameColumn (name : String) (a : Assignment) : Bool :=
  match a.target with
  | .column c => c == name
  | _ => false

/-- An assignment written over the earlier ones: a column keeps its place and takes the later
value. -/
def assign (as : List Assignment) (a : Assignment) : List Assignment :=
  match a.target with
  | .column name =>
    if as.any (sameColumn name) then
      as.map fun b => if sameColumn name b then { b with value := a.value } else b
    else as ++ [a]
  | _ => as ++ [a]

/-- Assignments written one over the other. -/
def assignAll (as : List Assignment) : List Assignment := as.foldl assign []

/-- A target that something can be assigned to. -/
def usable (t : Target) : Except Error Target :=
  match t with
  | .invalid => .error .invalidOperand
  | t => .ok t

/-- The assignments of an UPDATE. All references and queries are read before anything is refused. -/
def readAssignments (c : Catalog) (into : Changed) (pairs : List (Value × Value)) :
    Except Error (List Assignment) := do
  let read ← pairs.mapM fun (column, v) => do return (← readKey c into column, ← valueOf v)
  let as ← read.mapM fun (key, v) => do
    return (⟨← usable (targetOf key), ← operandOf v⟩ : Assignment)
  return assignAll as

/-- One cell of a row to insert: its column must be able to be a key. -/
def readCell (cell : (Target ⊕ Value) × Value) : Except Error Assignment := do
  let (key, v) := cell
  let v ← valueOf v
  match key with
  | .inl t => return ⟨t, exprOf v⟩
  | .inr k => return ⟨targetOf (.inr (← k.asKey)), exprOf v⟩

/-- The rows of an INSERT: each pairs the columns with its values, as far as both go. -/
def readRows (c : Catalog) (into : Changed) (columns : List Value) (rows : List (List Value)) :
    Except Error (List (List Assignment)) := do
  let keys ← columns.mapM (readKey c into)
  let read ← rows.mapM fun row => (keys.zip row).mapM readCell
  return read.map assignAll

end ModelQuery.Sql
