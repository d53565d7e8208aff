import ModelQuery.Schema.Mapping.Basic

/-!
# How relationships join

Two tables are connected by the foreign keys that lead from one to the other. A relationship needs
exactly one such key between its two sides, or between each side and its association table; where
there are several, it says which one is meant. `Mapping.route` finds the way from a class to the
target of a relationship, or says why there is none.
-/

namespace ModelQuery

/-! ## References -/

/-- A column by its table. -/
structure ColumnPlace where
  table : String
  column : String
deriving DecidableEq, Repr

namespace Mapping

/-- The column behind an attribute. -/
def place (m : Mapping) (ref : AttributeRef) : Except Error ColumnPlace :=
  match m.named ref.className with
  | [c] =>
    match c.columns.find? fun column => column.attr == ref.attr with
    | some column => .ok ⟨c.table, column.column⟩
    | none => if c.relates ref.attr then .error .unknownTarget else .error .noSuchOperation
  | [] =>
    if (m.table? ref.className).isSome then .error .noSuchOperation else .error .unknownTarget
  | _ => .error .unknownTarget

/-- The class a relationship names. -/
def target (m : Mapping) (name : String) : Except Error MappedClass :=
  match m.named name with
  | [c] => .ok c
  | [] => if (m.table? name).isSome then .error .invalidOperand else .error .unknownTarget
  | _ => .error .unknownTarget

/-- The association table a relationship names. -/
def association (m : Mapping) (name : String) : Except Error MappedTable :=
  match m.table? name with
  | some t => .ok t
  | none => if (m.named name).isEmpty then .error .unknownTarget else .error .invalidOperand

end Mapping

/-! ## Connections -/

/-- A foreign key that connects two tables: its column, the column it points to, and whether the
first table holds it. -/
structure Connection where
  column : String
  referred : String
  forward : Bool
deriving DecidableEq, Repr

/-- The foreign keys of a table that lead to another, as far as they are meant. A key that names the
other table has to name one of its columns. -/
def MappedTable.keysTo (t other : MappedTable) (meant : Option ColumnPlace) :
    Except Error (List (String × ForeignKey)) :=
  let isMeant (column : String) : Bool := meant.all fun place => place == ⟨t.name, column⟩
  (t.foreignKeys.filter fun (column, fk) => fk.table == other.name && isMeant column).mapM
    fun key => if other.has key.2.column then .ok key else .error .noReferredColumn

/-- The connections of two tables. -/
def connections (meant : Option ColumnPlace) (a b : MappedTable) :
    Except Error (List Connection) := do
  let back ← b.keysTo a meant
  let forth ← if a.name = b.name then pure [] else a.keysTo b meant
  return back.map (fun (column, fk) => ⟨column, fk.column, false⟩) ++
    forth.map fun (column, fk) => ⟨column, fk.column, true⟩

/-- The only connection of two tables. -/
def connection (meant : Option ColumnPlace) (a b : MappedTable) : Except Error Connection := do
  match ← connections meant a b with
  | [c] => return c
  | [] => throw .noForeignKey
  | _ => throw .ambiguousKeys

/-! ## Direct relationships -/

/-- How a direct relationship joins: the owner's column, the target's column, and whether the
foreign key is the owner's. -/
structure DirectJoin where
  own : String
  foreign : String
  toOne : Bool
deriving DecidableEq, Repr

/-- The join along a foreign key of the owner or back along one of the target. -/
def Connection.join (c : Connection) : DirectJoin :=
  if c.forward then ⟨c.column, c.referred, true⟩ else ⟨c.referred, c.column, false⟩

/-- The join between two tables, told the remote column. One that is the owner's makes the two
columns change places. -/
def Connection.joinTowards (c : Connection) (owner target : String) (remote : ColumnPlace) :
    Except Error DirectJoin :=
  let usual := c.join
  if remote = ⟨target, usual.foreign⟩ then .ok usual
  else if remote = ⟨owner, usual.own⟩ then .ok ⟨usual.foreign, usual.own, usual.toOne⟩
  else .error .invalidOperand

/-- The join of a table with itself, told the remote column: the one that is pointed to leads to
one record, the foreign key to many. -/
def Connection.joinWithin (c : Connection) (table : String) (remote : ColumnPlace) :
    Except Error DirectJoin :=
  if remote = ⟨table, c.referred⟩ then .ok ⟨c.column, c.referred, true⟩
  else if remote = ⟨table, c.column⟩ then .ok ⟨c.referred, c.column, false⟩
  else .error .invalidOperand

/-- The join of a direct relationship. -/
def directJoin (meant remote : Option ColumnPlace) (owner target : MappedTable) :
    Except Error DirectJoin := do
  let c ← connection meant owner target
  match remote with
  | none => return c.join
  | some remote =>
    if owner.name = target.name then c.joinWithin owner.name remote
    else c.joinTowards owner.name target.name remote

/-! ## Routes -/

/-- How a relationship gets to its target. -/
inductive Way where
  | through (table : MappedTable)
  | direct (join : DirectJoin)

/-- A relationship with its target and the way there. -/
structure Route where
  relationship : MappedRelationship
  target : MappedClass
  way : Way

/-- The association table is connected to both sides, as far as their joins are not written out. -/
def checkAssociation (r : MappedRelationship) (meant : Option ColumnPlace)
    (owner target t : MappedTable) : Except Error Unit := do
  unless r.farWritten do let _ ← connection meant target t
  unless r.ownWritten do let _ ← connection meant owner t

/-- The way from a class to the target of one of its relationships. -/
def Mapping.route (m : Mapping) (owner : MappedClass) (r : MappedRelationship) :
    Except Error Route := do
  let through ← r.secondary.mapM m.association
  let meant ← r.foreignKey.mapM m.place
  let remote ← r.remote.mapM m.place
  let target ← m.target r.target
  let (own, far) := (owner.mappedTable, target.mappedTable)
  match through with
  | some t =>
    checkAssociation r meant own far t
    return ⟨r, target, .through t⟩
  | none => return ⟨r, target, .direct (← directJoin meant remote own far)⟩

end ModelQuery
