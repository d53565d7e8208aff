import ModelQuery.Assoc
import ModelQuery.Schema.Field

/-!
# Field tables

The fields of a model by name. A table is built from a list of descriptors: a name that is given
again keeps its first place and takes the later descriptor. `inDb` lists the fields that are columns
of the model's own table, `columns` has the first of them by each column, and `byColumn?` leads back
through it from a column to its field (`byColumn?_eq`).
-/

namespace ModelQuery

/-- The fields of a model, in order, by name. -/
@[ext]
structure FieldTable where
  entries : List (String × Field)
  /-- Every field stands under its own name. -/
  named : ∀ e ∈ entries, e.2.name = e.1
  /-- No name stands twice. -/
  nodup : (Assoc.keys entries).Nodup
deriving DecidableEq

namespace FieldTable

/-- The table of a list of descriptors. -/
def ofList (fields : List Field) : FieldTable where
  entries := Assoc.ofList (fields.map fun f => (f.name, f))
  named := fun _ he => (Assoc.mem_ofList_map Field.name he).2
  nodup := Assoc.nodup_keys_putAll _ List.nodup_nil

/-- The names in order. -/
def names (t : FieldTable) : List String := Assoc.keys t.entries

/-- The fields in order. -/
def toList (t : FieldTable) : List Field := Assoc.values t.entries

/-- The number of fields. -/
def size (t : FieldTable) : Nat := t.entries.length

/-- The field called `name`. -/
def get? (t : FieldTable) (name : String) : Option Field := t.entries.lookup name

/-- A field is called `name`. -/
def contains (t : FieldTable) (name : String) : Bool := (t.get? name).isSome

/-- The fields stored in columns of the model's own table. -/
def inDb (t : FieldTable) : List Field := t.toList.filter (·.inDb)

/-- The fields by the columns they are stored in; of several in one column the first. -/
def columns (t : FieldTable) : List (String × Field) :=
  t.inDb.foldl (fun known f => Assoc.putNew f.column f known) []

/-- The field stored in a column of the model's own table. -/
def byColumn? (t : FieldTable) (column : String) : Option Field := t.columns.lookup column

/-- The table with every field owned by a model. -/
def bind (owner : String) (t : FieldTable) : FieldTable :=
  ofList (t.toList.map (Field.bind owner))

/-- The names as a message shows them. -/
def shown (t : FieldTable) : String := "<FieldTable " ++ Text.shownList t.names ++ ">"

/-! ## Reading -/

/-- A field that is found is called as it was asked for. -/
theorem name_of_get? {t : FieldTable} {name : String} {f : Field} (h : t.get? name = some f) :
    f.name = name :=
  t.named (name, f) (Assoc.mem_of_lookup h)

/-- A column leads to the first field that is stored in it. -/
theorem byColumn?_eq (t : FieldTable) (column : String) :
    t.byColumn? column = t.inDb.find? (·.column == column) :=
  Assoc.lookup_foldl_putNew Field.column t.inDb column []

/-! ## Comparing -/

/-- Two entries are the same name and the same descriptor. -/
def sameEntry (a b : String × Field) : Bool := a.1 == b.1 && a.2.sameAs b.2

/-- The tables hold the same descriptors in the same order. -/
def sameAs (t u : FieldTable) : Bool :=
  t.size == u.size && (t.entries.zip u.entries).all fun (a, b) => sameEntry a b

/-- The table holds the same descriptors as a plain mapping, in any order. -/
def sameMapping (t u : FieldTable) : Bool :=
  t.size == u.size && t.entries.all fun a => u.entries.any (sameEntry a)

end FieldTable

end ModelQuery
