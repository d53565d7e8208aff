import ModelQuery.Schema.Model
import ModelQuery.Schema.ModelName
import ModelQuery.Value.Conversion

/-!
# The registry

The models that queries know, by logical name, in order of registration. The first registration of
a name stays; a later one changes nothing and answers with the first.

A lookup takes anything that refers to a model. Pieces of SQL and values that count as false refer
to none.
-/

namespace ModelQuery

/-- Models by name, in order of registration. -/
structure Registry where
  entries : List (String × Model)

/-- What is said about a model when it is registered. -/
structure Registration where
  model : Value
  table : String := ""
  fields : List Field := []
  /-- A list of pairs, or a mapping from columns to directions. -/
  sorting : Value := .tuple []
  loadWith : Value := .tuple []
  group : String := defaultGroup
  primaryKey : String := "id"
  factory : Option Factory := none
  tableDeclared : Bool := false

namespace Registry

/-- The registry without models. -/
def empty : Registry := ⟨[]⟩

/-- The registry of ready models; of one name the first. -/
def ofModels (models : List Model) : Registry :=
  ⟨models.foldl (fun entries m => Assoc.putNew m.name m entries) []⟩

/-- The models in order. -/
def models (r : Registry) : List Model := Assoc.values r.entries

/-- The names models are kept under, in order. -/
def names (r : Registry) : List String := Assoc.keys r.entries

/-! ## Lookup -/

/-- The model kept under a name. -/
def find? (r : Registry) (name : String) : Option Model := r.entries.lookup name

/-- The model a value refers to. -/
def lookup? (r : Registry) : Value → Option Model
  | .sql _ => none
  | v => if v.truthy then r.find? (modelName v) else none

/-- The model a text refers to. -/
def lookupName? (r : Registry) (s : String) : Option Model := r.lookup? (.text s)

/-- The model a value refers to, which must be there. -/
def get (r : Registry) (v : Value) : Except Error Model :=
  match r.lookup? v with
  | some m => .ok m
  | none => .error .unknownKey

/-! ## Registration -/

/-- Default sort order as pairs: the entries of a mapping, or the items of a list. -/
def sortingItems : Value → Except Error (List Value)
  | .mapping entries => .ok (entries.map fun (column, direction) => .tuple [column, direction])
  | v => v.items

/-- The model a registration describes under its logical name. -/
def modelOf (name : String) (g : Registration) : Except Error Model := do
  let sorting ← sortingItems g.sorting
  let loadWith ← g.loadWith.items
  return {
    name
    table := orElse g.table name
    fields := (FieldTable.ofList g.fields).bind name
    sorting
    loadWith
    group := g.group
    primaryKey := g.primaryKey
    factory := g.factory
    tableDeclared := g.tableDeclared }

/-- The registry after a registration, and the model now kept under its name. -/
def register (r : Registry) (g : Registration) : Except Error (Registry × Model) :=
  let name := modelName g.model
  match r.find? name with
  | some known => .ok (r, known)
  | none => (modelOf name g).map fun m => (⟨r.entries ++ [(name, m)]⟩, m)

/-- The registry after registrations in order. -/
def registerAll (r : Registry) : List Registration → Except Error Registry
  | [] => .ok r
  | g :: rest => do
    let (r, _) ← r.register g
    r.registerAll rest

end Registry

end ModelQuery
