import ModelQuery.Record
import ModelQuery.Schema.FieldTable

/-!
# Models

What is registered about a model: its logical name, the table it is stored in, its fields, the sort
order and the relationships every SELECT of it starts from, the connection group its statements run
in, its primary key and the factory of its records.
-/

namespace ModelQuery

/-- The connection group used unless another is named. -/
def defaultGroup : String := "default"

/-- A registered model. -/
structure Model where
  name : String
  table : String
  fields : FieldTable
  /-- Default sort order: pairs of a column and a direction. -/
  sorting : List Value
  /-- Relationship paths loaded with every SELECT. -/
  loadWith : List Value
  group : String
  primaryKey : String
  factory : Option Factory
  /-- The table's name was taken over from a mapped table. -/
  tableDeclared : Bool := false

namespace Model

/-- The table's name. -/
def tableName (m : Model) : Name := ⟨m.table, m.tableDeclared⟩

/-- The field called `name`. -/
def field? (m : Model) (name : String) : Option Field := m.fields.get? name

/-- A relationship of the model: the field of that name, if it leads anywhere. -/
def relationship? (m : Model) (name : String) : Option (Field × Foreign) :=
  match m.field? name with
  | some f => f.link.foreign?.map fun other => (f, other)
  | none => none

/-- A relationship is called as it was asked for. -/
theorem name_of_relationship? {m : Model} {name : String} {f : Field} {other : Foreign}
    (h : m.relationship? name = some (f, other)) : f.name = name := by
  rw [relationship?] at h
  cases hf : m.field? name with
  | none =>
    rw [hf] at h
    cases h
  | some g =>
    rw [hf] at h
    obtain ⟨link, -, heq⟩ := Option.map_eq_some_iff.mp h
    cases heq
    exact FieldTable.name_of_get? hf

/-- A record of the model from the values of its fields. With a factory only the model's own fields
are handed on; without one everything is kept. -/
def build (m : Model) (entries : List (String × Record)) : Except Error Record :=
  match m.factory with
  | none => .ok (.fields entries)
  | some make => make (entries.filter fun e => m.fields.contains e.1)

/-- The models are the same in everything but their factories. -/
def sameAs (m n : Model) : Bool :=
  m.name == n.name && m.table == n.table && m.fields.sameAs n.fields &&
  Value.sameAll m.sorting n.sorting && Value.sameAll m.loadWith n.loadWith &&
  m.group == n.group && m.primaryKey == n.primaryKey

end Model

end ModelQuery
