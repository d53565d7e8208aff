import ModelQuery.Schema.Registry
import ModelQuery.Text.QuotedParts

/-!
# Resolving identifiers

Callers write columns and tables in the words of the registered models. Resolution turns them into
the words of the database: a field becomes its column, a model its table. Names that nothing is
registered for pass through as they are.

A column comes out as `table.column` or as the bare column. Which of the two is asked for by
`qualify`; left open, an identifier stays qualified if it was, and a bare one stays bare.

The *canonical* model is the one a query is about. Bare names are its fields, and its table's name
as a qualifier means the model itself.
-/

namespace ModelQuery

/-- What names are resolved against: the registered models and the canonical one of the query. -/
structure Scope where
  registry : Registry
  canonical : Option Model

namespace Scope

/-- A name with an optional qualifier, after the canonical model has spoken for it. -/
def ownQualifier (s : Scope) (qualifier : Option String) : Option String :=
  match s.canonical, qualifier with
  | some m, none => some m.name
  | some m, some q => if q = m.table then some m.name else some q
  | none, q => q

/-- The model and the field that a qualifier and a name stand for, as far as they are known. -/
def target? (s : Scope) (qualifier : Option String) : Option Model :=
  (s.ownQualifier qualifier).bind s.registry.lookupName?

/-- The table a qualifier stands for: that of its model, else the qualifier itself. -/
def tableOf (s : Scope) (qualifier : Option String) : Option String :=
  match s.target? qualifier with
  | some m => some m.table
  | none => s.ownQualifier qualifier

/-- The column a field stands for: that of the known field, else the name itself. -/
def columnOf (s : Scope) (qualifier : Option String) (field : String) : Name :=
  match (s.target? qualifier).bind (·.field? field) with
  | some f => f.columnName
  | none => ⟨field, false⟩

/-- A field of a qualified or bare name, as a column of its table. -/
def resolveField (s : Scope) (qualify : Bool) (qualifier : Option String) (field : String) : Name :=
  let column := s.columnOf qualifier field
  match s.tableOf qualifier with
  | some t => if qualify ∧ t ≠ "" then ⟨t ++ "." ++ column.text, false⟩ else column
  | none => column

/-- An identifier that is no expression. -/
def resolveSimple (s : Scope) (qualify : Option Bool) : Identifier String → Name
  | .bare field => s.resolveField (qualify.getD false) none field
  | .qualified model field => s.resolveField (qualify.getD true) (some model) field
  | .label path => ⟨path, false⟩
  | .raw expression => ⟨expression, false⟩

/-- The inside of a quoted part. It is read like any text; if it still holds a quote, that quote
opens no part of its own and the text stays as it is. -/
def resolvePart (s : Scope) (inside : String) : String :=
  (s.resolveSimple none (.ofText inside)).text

/-- An identifier as the name of a column: in an expression every quoted part is resolved in place,
its quotes kept. -/
def resolveIdentifier (s : Scope) (qualify : Option Bool) : Identifier String → Name
  | .raw expression => ⟨Text.mapQuoted s.resolvePart expression, false⟩
  | i => s.resolveSimple qualify i

/-- A column given by text. -/
def resolveText (s : Scope) (qualify : Option Bool) (text : String) : Name :=
  s.resolveIdentifier qualify (.ofText text)

/-- A column given by any value; what is no identifier stays as it is. -/
def column (s : Scope) (qualify : Option Bool) : Value → Value
  | .text t | .declared t => (s.resolveText qualify t).toValue
  | .identifier i => (s.resolveIdentifier qualify i).toValue
  | v => v

/-- A table given by any value: a registered model becomes its table. -/
def table (s : Scope) (v : Value) : Value :=
  match s.registry.lookup? v with
  | some m => m.tableName.toValue
  | none => v

@[simp] theorem column_text (s : Scope) (qualify : Option Bool) (t : String) :
    s.column qualify (.text t) = (s.resolveText qualify t).toValue := rfl

end Scope

/-! ## The shape of other values -/

/-- The shape of any value, told by the characters among its items. Only texts are cut into parts:
a collection that holds the point is refused. -/
def shapeOf (v : Value) : Except Error (Identifier Value) :=
  match v with
  | .text s | .declared s => .ok ((Identifier.ofText s).map .text)
  | _ =>
    match v.items with
    | .error e => .error e
    | .ok items =>
      let has (c : String) : Bool := items.any (· == .text c)
      if has "\"" then .ok (.raw v)
      else if has ":" then .ok (.label v)
      else if has "." then .error .noSuchOperation
      else .ok (.bare v)

end ModelQuery
