import ModelQuery.Schema.Mapping.Joins

/-!
# Models of mapped classes

Mapped classes describe models already: their columns, their foreign keys and their relationships to
each other. `Mapping.registry` reads a registry from them.

Every column becomes a plain field. A relationship becomes the field that joins in the same way:

* through an association table, a many-to-many field on the keys that point to the two sides;
* along a foreign key of the class itself, a reference to one record;
* along a foreign key of the target back to the class, the one or the many records behind it.

Classes are registered in the order of their names, so of two classes with one logical name the
first by name stays.
-/

namespace ModelQuery

/-! ## Association tables -/

/-- A key of an association table: its column, and the column it points to. -/
structure AssociationKey where
  through : String
  column : String
deriving DecidableEq, Repr

/-- The keys of an association table that lead to its two sides, as far as they were found. -/
structure AssociationKeys where
  own : Option AssociationKey := none
  foreign : Option AssociationKey := none
deriving DecidableEq, Repr

/-- One more foreign key looked at: the first that points to the owner's table is the owner's, any
other that points to the target's table is the target's. -/
def AssociationKeys.look (owner target : String) (keys : AssociationKeys)
    (key : String × ForeignKey) : AssociationKeys :=
  let (column, fk) := key
  if keys.own.isNone ∧ fk.table = owner then { keys with own := some ⟨column, fk.column⟩ }
  else if fk.table = target then { keys with foreign := some ⟨column, fk.column⟩ }
  else keys

/-- The two keys found among foreign keys, in whatever order these come. -/
def associationKeys (owner target : String) (keys : List (String × ForeignKey)) :
    AssociationKeys :=
  keys.foldl (AssociationKeys.look owner target) {}

/-- A foreign key points to a column that is there. -/
def Mapping.checkKey (m : Mapping) (fk : ForeignKey) : Except Error Unit :=
  match m.table? fk.table with
  | none => .error .noReferredTable
  | some t => if t.has fk.column then .ok () else .error .noReferredColumn

/-! ## Fields -/

/-- The field of a column. -/
def columnField (c : MappedColumn) : Field :=
  { Field.plain c.attr c.column true "" with declared := true }

/-- The field of a relationship through an association table; without usable keys there is none. -/
def throughField (attr : String) (owner target : MappedClass) (t : MappedTable) :
    Except Error (Option Field) :=
  let keys := associationKeys owner.table target.table t.foreignKeys
  match keys.own, keys.foreign with
  | some own, some foreign => do
    let f ← Field.manyToMany attr own.column false ""
      ⟨normalizeName target.name, foreign.column⟩ ⟨t.name, own.through, foreign.through⟩
    return some { f with declared := true }
  | _, _ => .ok none

/-- The field of a relationship along a foreign key. -/
def directField (r : MappedRelationship) (target : MappedClass) (j : DirectJoin) : Field :=
  let foreign : Foreign := ⟨normalizeName target.name, j.foreign⟩
  let f :=
    if j.toOne then Field.belongsTo r.attr j.own false "" foreign
    else if r.uselist.getD true then Field.hasMany r.attr j.own false "" foreign
    else Field.hasOne r.attr j.own false "" foreign
  { f with declared := true }

/-- The field of a relationship, if it can be one. -/
def relationshipField (m : Mapping) (owner : MappedClass) (route : Route) :
    Except Error (Option Field) := do
  match route.way with
  | .through t =>
    t.foreignKeys.forM fun (_, fk) => m.checkKey fk
    throughField route.relationship.attr owner route.target t
  | .direct j => return some (directField route.relationship route.target j)

/-- What a link takes, told whether it holds a list: a record that is reached by a foreign key of
its own belongs to this one. -/
def slotOf (uselist : Option Bool) : Link → Record.Slot
  | .plain => .anything
  | .belongsTo _ => if uselist.getD false then .many else .anything
  | .hasMany _ => .ownedMany
  | .hasOne _ => .owned
  | .manyToMany _ _ => if uselist.getD true then .many else .anything

/-- What an attribute of a class takes. -/
def slotFor (c : MappedClass) (fields : List Field) (attr : String) : Record.Slot :=
  let uselist := (c.relationships.find? fun r => r.attr == attr).bind (·.uselist)
  match fields.find? fun f => f.name == attr with
  | some f => slotOf uselist f.link
  | none => .anything

/-- What a class says about its model, told the ways of its relationships. -/
def MappedClass.registration (m : Mapping) (c : MappedClass) (routes : List Route) :
    Except Error Registration := do
  let related ← routes.mapM (relationshipField m c)
  let fields := c.columns.map columnField ++ related.filterMap id
  if c.table.isEmpty then throw .badValue
  return {
    model := .modelClass c.name
    table := c.table
    fields
    sorting := c.sorting
    loadWith := c.loadWith
    group := c.group
    primaryKey := (c.leading?.map (·.attr)).getD "id"
    factory := some (Record.instanceOf c.name (slotFor c fields))
    tableDeclared := c.imperative }

/-! ## Reading -/

namespace Mapping

/-- The classes as they were described, each with the ways of its relationships. -/
def routes (m : Mapping) : Except Error (List (MappedClass × List Route)) :=
  m.classes.mapM fun c => do return (c, ← c.relationships.mapM (m.route c))

/-- The registry of mapped classes. -/
def registry (described : Mapping) : Except Error Registry := do
  described.check
  let m := described.settled
  let routes ← m.routes
  let sorted := routes.mergeSort fun a b => a.1.name ≤ b.1.name
  let registrations ← sorted.mapM fun (c, routes) => c.registration m routes
  Registry.empty.registerAll registrations

end Mapping

end ModelQuery
