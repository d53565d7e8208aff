import ModelQuery.Query.Builder

/-!
# Eager loading

A relationship adds joins to a query: one to the related table, or two where an association table
stands between. Following a path of relationships selects the columns of the canonical model, then
for every hop the columns of the related model, labelled `model:hop:hop:field`, and joins it.

The path ends quietly at the first segment that is no relationship or that leads to a model nobody
registered.
-/

namespace ModelQuery

/-- The mark between the segments of a path. -/
def pathMark : Char := ':'

/-- A qualified name. -/
def dotted (qualifier name : String) : Value := .text (qualifier ++ "." ++ name)

namespace Builder

/-! ## Relationships -/

/-- A table joined from the left on the equality of two columns. -/
def leftJoin (table left right : Value) (b : Builder) : Builder :=
  (b.join table .null (.text "LEFT")).on left (.text "=") right

/-- The joins of a field; a plain field has none. The reference of a `belongsTo` is named by the
field itself, all other columns are named as columns. -/
def joinField (f : Field) (b : Builder) : Builder :=
  match f.link with
  | .plain => b
  | .belongsTo other =>
    b.leftJoin (.text other.model) (dotted f.owner f.name) (dotted other.model other.column)
  | .hasMany other | .hasOne other =>
    b.leftJoin (.text other.model) (dotted other.model other.column) (dotted f.owner f.column)
  | .manyToMany other through =>
    let table : Name := ⟨through.table, f.declared⟩
    let b := b.leftJoin table.toValue (dotted through.table through.ownColumn)
      (dotted f.owner f.column)
    b.leftJoin (.text other.model) (dotted other.model other.column)
      (dotted through.table through.foreignColumn)

/-- The joins of a field that must be a relationship. -/
def joinRelationship (f : Field) (b : Builder) : Except Error Builder :=
  if f.isRelationship then .ok (b.joinField f) else .error .noSuchOperation

/-! ## Paths -/

/-- A column selected in the words of the database. -/
def selectResolved (column asName : Value) (b : Builder) : Builder :=
  b.withDraft fun d => { d with select := d.select ++ [(column, asName)] }

/-- The columns of a model, labelled below a chain of relationships. -/
def selectModel (m : Model) (chain : String) (b : Builder) : Builder :=
  m.fields.inDb.foldl
    (fun b f => b.selectResolved (dotted m.table f.column)
      (.text (chain ++ String.singleton pathMark ++ f.name))) b

/-- A path followed from a model. -/
def follow (parent : Model) (chain : String) : List String → Builder → Builder
  | [], b => b
  | segment :: rest, b =>
    match parent.relationship? segment with
    | none => b
    | some (f, other) =>
      match b.registry.lookupName? other.model with
      | none => b
      | some related =>
        let chain := chain ++ String.singleton pathMark ++ f.name
        follow related chain rest ((b.selectModel related chain).joinField f)

/-- What a warning says about a path that is not followed. -/
def ignoredPath (path : Value) (b : Builder) : String :=
  "with_(" ++ path.shown ++ ") ignored: " ++ b.model.shown ++ " is not a registered model"

/-- The columns of the canonical model selected, as every path begins. -/
def selectOwn (b : Builder) : Builder := b.select (.text "*") .null

/-- A path loaded together with the canonical model. -/
def eager (m : Model) (path : String) (b : Builder) : Builder :=
  follow m m.name (Text.splitAt pathMark path) b.selectOwn

end Builder

end ModelQuery
