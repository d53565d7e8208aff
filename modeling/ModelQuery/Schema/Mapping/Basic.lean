import ModelQuery.Schema.Registry

/-!
# Mapped classes

Classes that are mapped to tables, as they are described, and the association tables between them.

Of two members of a class with one attribute the later stays. `MappedClass.settled` is the class
with the members that stay, which is what everything after the check works on; a class that was
given a finished table keeps all of that table's columns.

`Mapping.check` says which classes cannot be made: the names of tables are told apart, and so are
the columns of a table, some names are taken by every class, and a class needs a primary key.
-/

namespace ModelQuery

/-- A foreign key: the table and the column it points to. -/
structure ForeignKey where
  table : String
  column : String
deriving DecidableEq, Repr

/-- A column of a mapped class under the name of its attribute. -/
structure MappedColumn where
  attr : String
  column : String
  foreignKey : Option ForeignKey := none
  primary : Bool := false
deriving DecidableEq, Repr

/-- An attribute of a class. -/
structure AttributeRef where
  className : String
  attr : String
deriving DecidableEq, Repr

/-- A relationship to another class. -/
structure MappedRelationship where
  attr : String
  target : String
  /-- The association table between the two. -/
  secondary : Option String := none
  /-- Whether the attribute holds a list; left open, its direction decides. -/
  uselist : Option Bool := none
  /-- The foreign key that is meant, where there are several. -/
  foreignKey : Option AttributeRef := none
  /-- The column on the far side, where both sides are the same table. -/
  remote : Option AttributeRef := none
  /-- The join of the owner is written out, so it needs no foreign key. -/
  ownWritten : Bool := false
  /-- The join of the target is written out, so it needs no foreign key. -/
  farWritten : Bool := false
deriving DecidableEq, Repr

/-- A class mapped to a table. -/
structure MappedClass where
  name : String
  table : String
  columns : List MappedColumn
  relationships : List MappedRelationship
  sorting : Value := .tuple []
  loadWith : Value := .tuple []
  group : String := defaultGroup
  /-- The class was given a finished table. -/
  imperative : Bool := false

/-- A column of a table. -/
structure TableColumn where
  name : String
  foreignKey : Option ForeignKey
deriving DecidableEq, Repr

/-- A table with its columns. -/
structure MappedTable where
  name : String
  columns : List TableColumn
deriving DecidableEq, Repr

/-- Mapped classes, with the association tables between them. -/
structure Mapping where
  tables : List MappedTable
  classes : List MappedClass

/-! ## Tables -/

namespace MappedTable

/-- The table has a column of a name. -/
def has (t : MappedTable) (column : String) : Bool := t.columns.any fun c => c.name == column

/-- The foreign keys of a table with their columns. -/
def foreignKeys (t : MappedTable) : List (String × ForeignKey) :=
  t.columns.filterMap fun c => c.foreignKey.map fun fk => (c.name, fk)

/-- A table is made under a name of its own, unless nothing is said about its columns, and its
columns are told apart by their names. -/
def check (taken : List String) (t : MappedTable) : Except Error Unit :=
  if taken.contains t.name && !t.columns.isEmpty then .error .nameTaken
  else if (t.columns.map (·.name)).Nodup then .ok ()
  else .error .duplicateColumn

end MappedTable

/-! ## Classes -/

/-- Attributes with such names are the class's own business and map to nothing. -/
def isHidden (attr : String) : Bool := attr.startsWith "__" || attr.startsWith "_sa_"

/-- The attribute that every class has already. -/
def takenAttr : String := "metadata"

/-- Of the columns of one attribute the last. -/
def lastColumns : List MappedColumn → List MappedColumn
  | [] => []
  | c :: rest => if rest.any (·.attr == c.attr) then lastColumns rest else c :: lastColumns rest

namespace MappedClass

/-- What the attributes are told to be, in the order of their first mention: a relationship, or else
a column. -/
def members (c : MappedClass) : List (String × Option MappedRelationship) :=
  let columns := if c.imperative then [] else c.columns.map fun column => (column.attr, none)
  Assoc.ofList (columns ++ c.relationships.map fun r => (r.attr, some r))

/-- A relationship has the attribute. -/
def relates (c : MappedClass) (attr : String) : Bool := c.relationships.any fun r => r.attr == attr

/-- The columns that stay. -/
def settledColumns (c : MappedClass) : List MappedColumn :=
  if c.imperative then c.columns
  else (lastColumns c.columns).filter fun column => !isHidden column.attr && !c.relates column.attr

/-- The relationships that stay. -/
def settledRelationships (c : MappedClass) : List MappedRelationship :=
  (Assoc.values c.members).filterMap id |>.filter fun r => !isHidden r.attr

/-- The class with the members that stay. -/
def settled (c : MappedClass) : MappedClass :=
  { c with columns := c.settledColumns, relationships := c.settledRelationships }

/-- The table of the class. -/
def mappedTable (c : MappedClass) : MappedTable :=
  ⟨c.table, c.columns.map fun column => ⟨column.column, column.foreignKey⟩⟩

/-- The columns that make up the primary key. -/
def primaryColumns (c : MappedClass) : List MappedColumn := c.columns.filter (·.primary)

/-- A column of the primary key that only repeats another one, to which it points. -/
def repeatsKey (c : MappedClass) (column : MappedColumn) : Bool :=
  match column.foreignKey with
  | some fk => fk.table == c.table && fk.column != column.column &&
      c.primaryColumns.any fun other => other.column == fk.column
  | none => false

/-- The first column of the primary key that stands for itself. -/
def leading? (c : MappedClass) : Option MappedColumn :=
  c.primaryColumns.find? fun column => !c.repeatsKey column

/-- A class can be made. -/
def check (taken : List String) (c : MappedClass) : Except Error Unit := do
  if (c.members.lookup takenAttr).isSome then throw .nameTaken
  c.settled.mappedTable.check taken
  if c.imperative && c.columns.any fun column => c.relates column.attr then throw .invalidOperand
  if c.settled.leading?.isNone then throw .invalidOperand

end MappedClass

/-! ## Mappings -/

namespace Mapping

/-- The mapping with the members of its classes that stay. -/
def settled (m : Mapping) : Mapping := { m with classes := m.classes.map MappedClass.settled }

/-- All tables of the mapping. -/
def allTables (m : Mapping) : List MappedTable := m.tables ++ m.classes.map (·.mappedTable)

/-- The table of a name. -/
def table? (m : Mapping) (name : String) : Option MappedTable :=
  m.allTables.find? fun t => t.name == name

/-- The classes of a name. -/
def named (m : Mapping) (name : String) : List MappedClass :=
  m.classes.filter fun c => c.name == name

/-- The tables can be made, then the classes with theirs. -/
def check (m : Mapping) : Except Error Unit := do
  let taken ← m.tables.foldlM (fun taken t => do t.check taken; return t.name :: taken) []
  let _ ← m.classes.foldlM (fun taken c => do c.check taken; return c.table :: taken) taken

end Mapping

end ModelQuery
