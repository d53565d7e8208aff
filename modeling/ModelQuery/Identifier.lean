import ModelQuery.Text.Split

/-!
# Identifiers

A caller names a column by an identifier of one of four shapes: a bare field name, a field qualified
by a model, a relationship alias that is never looked at again, or an expression whose quoted parts
are identifiers. A text tells its shape by the characters in it: a double quote makes an expression,
else a colon an alias, else a point a qualified name; the point that counts is the first.
-/

namespace ModelQuery

/-- The four shapes of an identifier, over what its parts are written in. -/
inductive Identifier (α : Type) where
  | bare (field : α)
  | qualified (model field : α)
  | label (path : α)
  | raw (expression : α)
deriving DecidableEq, Repr

namespace Identifier

/-- The same shape with its parts replaced. -/
def map {α β : Type} (f : α → β) : Identifier α → Identifier β
  | .bare x => .bare (f x)
  | .qualified m x => .qualified (f m) (f x)
  | .label x => .label (f x)
  | .raw x => .raw (f x)

/-- The identifier a text writes. -/
def ofText (s : String) : Identifier String :=
  if Text.holds s '"' then .raw s
  else if Text.holds s ':' then .label s
  else match Text.splitFirst? '.' s with
    | some (model, field) => .qualified model field
    | none => .bare s

end Identifier

end ModelQuery
