import ModelQuery.Value.Equality

/-!
# Records

What a row of a result becomes: values by field, with related records nested inside. A relationship
without a record holds the cell null. A factory turns the fields of a model into a record of its
own; without one the fields stay a plain mapping.
-/

namespace ModelQuery

/-- A loaded record, or a part of one. -/
inductive Record where
  /-- A value as the row has it. -/
  | cell (v : Value)
  /-- Values by field. -/
  | fields (entries : List (String × Record))
  /-- A record a factory built, called after its model. -/
  | object (model : String) (entries : List (String × Record))
  /-- The records of a relationship that leads to many. -/
  | many (records : List Record)

/-- What builds a record from the values of its fields. -/
abbrev Factory := List (String × Record) → Except Error Record

namespace Record

/-- The record that is not there. -/
def absent : Record := .cell .null

/-- Anything but the cell null. -/
def isPresent : Record → Bool
  | .cell v => v.isPresent
  | _ => true

/-- The factory that keeps the given fields in the given order. -/
def keeping (model : String) : Factory := fun entries => .ok (.object model entries)

/-! ## Instances of classes -/

/-- What an attribute of a class takes. -/
inductive Slot where
  | anything
  /-- A record that belongs to this one, or nothing. -/
  | owned
  | many
  /-- Records that belong to this one, or nothing in the place of any. -/
  | ownedMany
deriving DecidableEq, Repr

/-- The record is an instance of a class, so that it can belong to another. -/
def isInstance : Record → Bool
  | .object _ _ => true
  | _ => false

/-- The record can be put where one belongs to another: it is an instance, or nothing. -/
def canBelong (r : Record) : Bool := !r.isPresent || r.isInstance

/-- The items of a record that is a list. -/
def listed? : Record → Option (List Record)
  | .many records => some records
  | .cell (.list vs) => some (vs.map .cell)
  | _ => none

/-- A record put into an attribute. -/
def fit (slot : Slot) (r : Record) : Except Error Unit :=
  match slot with
  | .anything => .ok ()
  | .owned => if r.canBelong then .ok () else .error .noSuchOperation
  | .many =>
    match r.listed? with
    | some _ => .ok ()
    | none => .error .wrongType
  | .ownedMany =>
    match r.listed? with
    | some rs => if rs.all canBelong then .ok () else .error .noSuchOperation
    | none => .error .wrongType

/-- The factory that makes an instance of a class. Every attribute has to take what it is given; the
attributes of an instance have no order, so they are kept by name. -/
def instanceOf (className : String) (slot : String → Slot) : Factory := fun entries => do
  entries.forM fun (name, r) => fit (slot name) r
  return .object className (entries.mergeSort fun a b => a.1 ≤ b.1)

/-! ## Records as values -/

mutual

/-- A record as a plain value, where it is one. -/
def toValue? : Record → Option Value
  | .cell v => some v
  | .fields entries => (toEntries? entries).map .mapping
  | .object _ _ => none
  | .many records => (toValues? records).map .list

/-- Fields as the entries of a mapping. -/
def toEntries? : List (String × Record) → Option (List (Value × Value))
  | [] => some []
  | (k, r) :: rest => do
    let v ← toValue? r
    let es ← toEntries? rest
    return (.text k, v) :: es

/-- Records as values. -/
def toValues? : List Record → Option (List Value)
  | [] => some []
  | r :: rest => do
    let v ← toValue? r
    let vs ← toValues? rest
    return v :: vs

end

/-- A record compares equal to a plain value; one that a factory built equals none. -/
def isValue (r : Record) (v : Value) : Bool :=
  match r.toValue? with
  | some w => w == v
  | none => false

@[simp] theorem isPresent_absent : absent.isPresent = false := rfl

end Record

end ModelQuery
