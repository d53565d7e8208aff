import ModelQuery.Schema.Registry

/-!
# Loading records

A row of a result is flat; a record is not. The columns of the model itself are renamed to their
fields. A column labelled `model:hop:hop:field` belongs to the record at the end of a path of
relationships. A row can have any key for a column, but only texts become fields of a record.

First the values of the row are put into a `Tree` by their paths, then the tree becomes a record
from the leaves up. A relationship none of whose values is there holds no record.
-/

namespace ModelQuery

/-- A row of a result: values by column. -/
abbrev Row := List (Value × Value)

/-- The row as a plain value. -/
def Row.toValue (row : Row) : Value := .mapping row

/-- The row with its columns as texts, which they all have to be. -/
def Row.named (row : Row) : Except Error (List (String × Value)) :=
  row.mapM fun (column, v) =>
    match column.text? with
    | some name => .ok (name, v)
    | none => .error .noSuchOperation

/-! ## Values by path -/

/-- Values by path: those at the root by field, and the trees below by relationship. -/
inductive Tree where
  | node (own : List (String × Value)) (related : List (String × Tree))

namespace Tree

/-- No values. -/
def empty : Tree := .node [] []

/-- The values at the root. -/
def own : Tree → List (String × Value)
  | .node own _ => own

/-- The trees below. -/
def related : Tree → List (String × Tree)
  | .node _ related => related

/-- The tree below a relationship. -/
def branch (name : String) (t : Tree) : Tree := (t.related.lookup name).getD empty

/-- A value put at the end of a path; the path has a first segment. -/
def insert (first : String) (v : Value) : List String → Tree → Tree
  | [], t => .node (Assoc.put first v t.own) t.related
  | second :: rest, t =>
    .node t.own (Assoc.put first (insert second v rest (t.branch first)) t.related)

end Tree

/-- The mark at the start of the labels of a model. -/
def labelMark (m : Model) : String := m.name ++ ":"

/-- The path of a column: that of its label, or the field stored in it, or the column itself. -/
def pathOf (m : Model) (column : String) : String × List String :=
  match Text.afterStart? (labelMark m) column with
  | some label =>
    match Text.splitAt ':' label with
    | first :: rest => (first, rest)
    | [] => (label, [])
  | none =>
    match m.fields.byColumn? column with
    | some f => (f.name, [])
    | none => (column, [])

/-- The values of a row by path. -/
def treeOf (m : Model) (row : List (String × Value)) : Tree :=
  row.foldl (fun t (column, v) => t.insert (pathOf m column).1 v (pathOf m column).2) .empty

/-! ## Building -/

/-- The model at the other end of a relationship, as far as all of it is known. -/
def relatedModel? (registry : Option Registry) (m : Option Model) (name : String) :
    Option Model := do
  let (_, other) ← (← m).relationship? name
  (← registry).lookupName? other.model

/-- A record of a model that may be unknown. -/
def buildRecord (m : Option Model) (entries : List (String × Record)) : Except Error Record :=
  match m with
  | some m => m.build entries
  | none => .ok (.fields entries)

/-- The relationship leads to many records, and the model's factory wants them as a list. -/
def wantsList (m : Option Model) (name : String) : Bool :=
  match m with
  | some m => m.factory.isSome && (m.relationship? name).any fun (f, _) => f.link.leadsToMany
  | none => false

/-- What a relationship holds: its record, or a list of it. -/
def holding (m : Option Model) (name : String) (r : Record) : Record :=
  if wantsList m name then .many (if r.isPresent then [r] else []) else r

/-- The record of a relationship whose values are there, else none. -/
def relatedRecord (m : Option Model) (entries : List (String × Record)) : Except Error Record :=
  if entries.any fun (_, r) => r.isPresent then buildRecord m entries else .ok Record.absent

mutual

/-- The fields of the record a tree becomes: those of its own, then the relationships. -/
def Tree.entries (registry : Option Registry) (m : Option Model) :
    Tree → Except Error (List (String × Record))
  | .node own related =>
    relatedEntries registry m (own.map fun (name, v) => (name, .cell v)) related

/-- Relationships written into the fields so far. -/
def relatedEntries (registry : Option Registry) (m : Option Model)
    (sofar : List (String × Record)) : List (String × Tree) → Except Error (List (String × Record))
  | [] => .ok sofar
  | (name, t) :: rest => do
    let child := relatedModel? registry m name
    let record ← relatedRecord child (← t.entries registry child)
    relatedEntries registry m (Assoc.put name (holding m name record) sofar) rest

end

/-- A row as a record of a model. Without a registry no relationship leads anywhere. -/
def loadRecord (m : Model) (registry : Option Registry) (row : Row) : Except Error Record := do
  m.build (← (treeOf m (← row.named)).entries registry (some m))

end ModelQuery
