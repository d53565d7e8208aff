import ModelQuery.Value.Basic

/-!
# Fields of a model

A field has the name queries use, the column it is stored in, and a flag that says whether that
column belongs to the model's own table. Beyond that it is either plain or a relationship: to one
record of another model by a column of its own (`belongsTo`), to one or many records whose column
points back (`hasOne`, `hasMany`), or to many records through an association table (`manyToMany`).

The constructors below fill in the columns that are left empty. The two association columns of a
many-to-many field stay empty until the field is bound to its model, whose name they are built from.
-/

namespace ModelQuery

/-- The other side of a relationship: a model by name, and its column. -/
structure Foreign where
  model : String
  column : String
deriving DecidableEq, Repr

/-- An association table with the columns that point to the two sides. -/
structure Association where
  table : String
  ownColumn : String
  foreignColumn : String
deriving DecidableEq, Repr

/-- What a field leads to. -/
inductive Link where
  | plain
  | belongsTo (foreign : Foreign)
  | hasMany (foreign : Foreign)
  | hasOne (foreign : Foreign)
  | manyToMany (foreign : Foreign) (through : Association)
deriving DecidableEq, Repr

/-- A field of a model. -/
structure Field where
  name : String
  column : String
  inDb : Bool
  /-- The model the field is bound to; empty before that. -/
  owner : String
  link : Link
  /-- The field was read from a mapped class, whose names it carries. -/
  declared : Bool := false
deriving DecidableEq, Repr

/-- `s`, or `default` where `s` is empty. -/
def orElse (s default : String) : String := if s = "" then default else s

theorem orElse_of_ne {s default : String} (h : s ≠ "") : orElse s default = s := if_neg h

theorem orElse_ne {default : String} (h : default ≠ "") (s : String) : orElse s default ≠ "" := by
  rw [orElse]
  split
  · exact h
  · assumption

namespace Link

/-- The other side of a relationship; a plain field has none. -/
def foreign? : Link → Option Foreign
  | .plain => none
  | .belongsTo f | .hasMany f | .hasOne f | .manyToMany f _ => some f

/-- The relationship leads to many records. -/
def leadsToMany : Link → Bool
  | .hasMany _ | .manyToMany _ _ => true
  | _ => false

/-- The link with the columns that are named after the owner filled in. -/
def bind (owner : String) : Link → Link
  | .manyToMany f t =>
    .manyToMany f ⟨t.table, orElse t.ownColumn (owner ++ "_id"),
      orElse t.foreignColumn (f.model ++ "_id")⟩
  | l => l

theorem foreign?_bind (owner : String) (l : Link) : (l.bind owner).foreign? = l.foreign? := by
  cases l with
  | _ => rfl

theorem leadsToMany_bind (owner : String) (l : Link) :
    (l.bind owner).leadsToMany = l.leadsToMany := by
  cases l with
  | _ => rfl

/-- Columns that are filled in stay as they are, whoever the next owner is. -/
theorem bind_bind (owner owner' : String) (l : Link) : (l.bind owner).bind owner' = l.bind owner := by
  cases l with
  | manyToMany f t =>
    have hown : orElse t.ownColumn (owner ++ "_id") ≠ "" := orElse_ne (by simp) _
    have hforeign : orElse t.foreignColumn (f.model ++ "_id") ≠ "" := orElse_ne (by simp) _
    rw [bind, bind, orElse_of_ne hown, orElse_of_ne hforeign]
  | _ => rfl

end Link

namespace Field

/-! ## Building -/

/-- A plain field; its column is called like the field unless given. -/
def plain (name : String) (column : String) (inDb : Bool) (owner : String) : Field :=
  { name, column := orElse column name, inDb, owner, link := .plain }

/-- A reference to one record; its column is the field's name with `_id` unless given. -/
def belongsTo (name column : String) (inDb : Bool) (owner : String) (foreign : Foreign) : Field :=
  { name, column := orElse column (name ++ "_id"), inDb, owner, link := .belongsTo foreign }

/-- The records that point back to this one. -/
def hasMany (name column : String) (inDb : Bool) (owner : String) (foreign : Foreign) : Field :=
  { name, column := orElse column "id", inDb, owner, link := .hasMany foreign }

/-- The one record that points back to this one. -/
def hasOne (name column : String) (inDb : Bool) (owner : String) (foreign : Foreign) : Field :=
  { name, column := orElse column "id", inDb, owner, link := .hasOne foreign }

/-- The records at the other end of an association table, which must be named. -/
def manyToMany (name column : String) (inDb : Bool) (owner : String) (foreign : Foreign)
    (through : Association) : Except Error Field :=
  if through.table = "" then .error (.throughMissing name)
  else .ok { name, column := orElse column "id", inDb, owner, link := .manyToMany foreign through }

/-! ## Reading -/

/-- The field is a relationship. -/
def isRelationship (f : Field) : Bool := f.link.foreign?.isSome

/-- The column's name. -/
def columnName (f : Field) : Name := ⟨f.column, f.declared⟩

/-- The field owned by a model. -/
def bind (owner : String) (f : Field) : Field :=
  { f with owner := owner, link := f.link.bind owner }

/-- Two fields are the same descriptor, whoever owns them. -/
def sameAs (f g : Field) : Bool :=
  f.name == g.name && f.column == g.column && f.inDb == g.inDb && f.link == g.link

@[simp] theorem name_bind (owner : String) (f : Field) : (f.bind owner).name = f.name := rfl

@[simp] theorem column_bind (owner : String) (f : Field) : (f.bind owner).column = f.column := rfl

@[simp] theorem inDb_bind (owner : String) (f : Field) : (f.bind owner).inDb = f.inDb := rfl

@[simp] theorem owner_bind (owner : String) (f : Field) : (f.bind owner).owner = owner := rfl

@[simp] theorem bind_bind (owner : String) (f : Field) :
    (f.bind owner).bind owner = f.bind owner := by
  rw [bind, bind, Link.bind_bind]

end Field

end ModelQuery
