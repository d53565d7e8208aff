import ModelQuery.Records.Load
import ModelQuery.Records.Slice
import ModelQuery.Value.Shown

/-!
# Collections

The answer of a SELECT: its rows, read-only, each loaded as a record of the model when it is looked
at. Without a model the rows are answered as they are.

A collection has a cursor for reading one record after the other. Walking over the records moves the
cursor along; looking at a record by its index does not.
-/

namespace ModelQuery

/-- Where the cursor stands. A caller may also have sent it to a truth value or to a number that is
no integer; only at an integer or a truth value there can be a row. -/
inductive Position where
  | index (n : Nat)
  | flag (b : Bool)
  | real (x : Float)

namespace Position

/-- The position as a value. -/
def toValue : Position → Value
  | .index n => .int n
  | .flag b => .bool b
  | .real x => .float x

/-- The position lies before the end of so many rows. -/
def isBefore (length : Nat) : Position → Bool
  | .index n => n < length
  | .flag b => Value.ofBit b < length
  | .real x => x < Float.ofNat length

/-- One further. -/
def next : Position → Position
  | .index n => .index (n + 1)
  | .flag b => .index ((Value.ofBit b).toNat + 1)
  | .real x => .real (x + 1)

/-- The index of the row, which has to be no fraction. -/
def toIndex : Position → Except Error Nat
  | .index n => .ok n
  | .flag b => .ok (Value.ofBit b).toNat
  | .real _ => .error .wrongType

/-- The position a number names; a negative one names none. -/
def ofValue? : Value → Except Error (Option Position)
  | .int n => .ok (if 0 ≤ n then some (.index n.toNat) else none)
  | .bool b => .ok (some (.flag b))
  | .float x => .ok (if 0 ≤ x then some (.real x) else none)
  | _ => .error .wrongType

end Position

/-- The answer of a SELECT. -/
structure Collection where
  model : Option Model
  rows : List Row
  registry : Option Registry
  position : Position := .index 0

/-- A look at a collection that may move its cursor. -/
abbrev Visit := EStateM Error Collection

namespace Collection

/-- The number of rows. -/
def size (c : Collection) : Nat := c.rows.length

/-- The collection as messages show it. -/
def shown (c : Collection) : String :=
  let name := match c.model with
    | some m => Text.shown m.name
    | none => Value.shown .null
  "<Collection model=" ++ name ++ " rows=" ++ toString c.size ++ ">"

/-- A row as a record. -/
def load (c : Collection) (row : Row) : Except Error Record :=
  match c.model with
  | some m => loadRecord m c.registry row
  | none => .ok (.cell row.toValue)

/-! ## By index -/

/-- The record at a place. -/
def recordAt (c : Collection) (place : Nat) : Except Error Record :=
  match c.rows[place]? with
  | some row => c.load row
  | none => .error .outOfRange

/-- The record at an index, which may count from the end. -/
def get (c : Collection) (index : Value) : Except Error Record := do
  match placeOf? c.size (← index.toIndex) with
  | some place => c.recordAt place
  | none => throw .outOfRange

/-- The records of a slice. -/
def slice (c : Collection) (s : Slice) : Except Error (List Record) :=
  (s.places c.size).mapM c.recordAt

/-- The records from the last to the first. -/
def reversed (c : Collection) : Except Error (List Record) := c.rows.reverse.mapM c.load

/-! ## The cursor -/

/-- The cursor stands at a row. -/
def valid (c : Collection) : Bool := c.position.isBefore c.size

/-- The row at the cursor; there is none at the end. -/
def currentRow? (c : Collection) : Except Error (Option Row) := do
  if !c.valid then return none
  return c.rows[← c.position.toIndex]?

/-- The record at the cursor, or nothing. -/
def current (c : Collection) : Except Error Record := do
  match ← c.currentRow? with
  | some row => c.load row
  | none => return Record.absent

/-- The cursor one further, wherever it stands. -/
def next (c : Collection) : Collection := { c with position := c.position.next }

/-- The cursor at the first row. -/
def rewind (c : Collection) : Collection := { c with position := .index 0 }

/-- The cursor sent to a position, if a row is there; and whether one is. -/
def seek (c : Collection) (v : Value) : Except Error (Bool × Collection) := do
  match ← Position.ofValue? v with
  | some p => return if p.isBefore c.size then (true, { c with position := p }) else (false, c)
  | none => return (false, c)

/-! ## Columns -/

/-- The column a name means: that of the field so called, else the name itself. -/
def columnOf (c : Collection) (name : Value) : Except Error Value :=
  match c.model, name with
  | none, _ | _, .null => .ok name
  | some m, _ => do
    let name ← name.asKey
    match name.text?.bind m.field? with
    | some f => return f.columnName.toValue
    | none => return name

/-- The value of a column in a row, where the row has it. -/
def cell? (row : Row) (column : Value) : Except Error (Option Value) := do
  return row.lookup (← column.asKey)

/-- The value of a column in a row, which must have it. -/
def cell (row : Row) (column : Value) : Except Error Value := do
  match ← cell? row column with
  | some v => return v
  | none => throw .unknownKey

/-- The value of a column at the cursor, else a default. -/
def cellAtCursor (c : Collection) (name default : Value) : Except Error Value := do
  match ← c.currentRow? with
  | some row => return (← cell? row (← c.columnOf name)).getD default
  | none => return default

/-! ## Export -/

/-- An entry written into a mapping whose keys are values. -/
def putKeyed (m : List (Value × Value)) (key v : Value) : Except Error (List (Value × Value)) := do
  return Assoc.put (← key.asKey) v m

/-- The rows as they are: a list of them, or of one column, or either by the values of a column. -/
def asList (c : Collection) (key value : Value) : Except Error Value := do
  let key ← c.columnOf key
  let value ← c.columnOf value
  match key, value with
  | .null, .null => return .list (c.rows.map Row.toValue)
  | .null, _ => return .list (← c.rows.mapM fun row => cell row value)
  | _, .null =>
    return .mapping (← c.rows.foldlM (fun m row => do putKeyed m (← cell row key) row.toValue) [])
  | _, _ =>
    return .mapping (← c.rows.foldlM
      (fun m row => do putKeyed m (← cell row key) (← cell row value)) [])

/-! ## Walking over the records -/

/-- The record of a row, with the cursor moved there. -/
def visit (place : Nat) (row : Row) : Visit Record := fun c =>
  let c := { c with position := .index place }
  match c.load row with
  | .ok r => .ok r c
  | .error e => .error e c

/-- The records of the rows from a place on. -/
def visitAll (place : Nat) : List Row → Visit (List Record)
  | [] => return []
  | row :: rest => do
    let r ← visit place row
    return r :: (← visitAll (place + 1) rest)

/-- Some of the records from a place on. That there are enough shows only at the next record, which
is looked at and dropped. -/
def visitSome (place : Nat) : (count : Nat) → List Row → Visit (List Record)
  | _, [] => return []
  | 0, row :: _ => do
    let _ ← visit place row
    return []
  | n + 1, row :: rest => do
    let r ← visit place row
    return r :: (← visitSome (place + 1) n rest)

/-- Whether one of the rows from a place on becomes a record equal to a value. -/
def visitUntil (v : Value) (place : Nat) : List Row → Visit Bool
  | [] => return false
  | row :: rest => do
    let r ← visit place row
    if r.isValue v then return true
    visitUntil v (place + 1) rest

/-- All records in order. -/
def records : Visit (List Record) := fun c => visitAll 0 c.rows c

/-- The first records. -/
def take (count : Nat) : Visit (List Record) := fun c => visitSome 0 count c.rows c

/-- Whether a record equals a value; the walk stops at the first that does. -/
def contains (v : Value) : Visit Bool := fun c => visitUntil v 0 c.rows c

/-- The number of records equal to a value. -/
def count (v : Value) : Visit Nat := do
  return (← records).countP (·.isValue v)

/-! ## Searching -/

/-- The place a search starts from; a negative one counts from the end, but not beyond the first. -/
def searchStart (length : Nat) : Value → Except Error Value
  | .int n => .ok (.int (if n < 0 then max (n + length) 0 else n))
  | .bool b => .ok (.bool b)
  | .float x =>
    if x < 0 then
      let place := x + Float.ofNat length
      .ok (if place < 0 then .int 0 else .float place)
    else .ok (.float x)
  | _ => .error .wrongType

/-- The place a search ends before, as a value; null for none. -/
def searchStop (length : Nat) : Value → Except Error Value
  | .null => .ok .null
  | .int n => .ok (.int (if n < 0 then n + length else n))
  | .bool b => .ok (.bool b)
  | .float x => .ok (.float (if x < 0 then x + Float.ofNat length else x))
  | _ => .error .wrongType

/-- A place lies before the end of a search. -/
def isBeforeStop (stop : Value) (place : Int) : Bool :=
  match stop with
  | .int n => place < n
  | .bool b => place < Value.ofBit b
  | .float x => Float.ofInt place < x
  | _ => true

/-- A place that is a fraction, or written like one, lies before the end of a search. -/
def isRealBeforeStop (stop : Value) (place : Float) : Bool :=
  match stop with
  | .int n => place < Float.ofInt n
  | .bool b => place < Float.ofInt (Value.ofBit b)
  | .float x => place < x
  | _ => true

/-- The first of the rows from a place on that becomes a record equal to a value. -/
def search (c : Collection) (v stop : Value) (place : Nat) : List Row → Except Error Nat
  | [] => .error .badValue
  | row :: rest => do
    if !isBeforeStop stop place then throw .badValue
    let r ← c.load row
    if r.isValue v then return place
    search c v stop (place + 1) rest

/-- The place of the first record equal to a value. A place that was given as a truth value is
answered as one; a search that begins at a fraction finds no record there. -/
def index (c : Collection) (v start stop : Value) : Except Error Value := do
  let first ← searchStart c.size start
  let stop ← searchStop c.size stop
  if let .float x := first then
    if !isRealBeforeStop stop x then throw .badValue
  let place := (← first.toIndex).toNat
  let found ← search c v stop place (c.rows.drop place)
  return if found = place then first else .int found

end Collection

end ModelQuery
