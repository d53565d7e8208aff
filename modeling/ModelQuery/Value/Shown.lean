import ModelQuery.Decimal.Shortest
import ModelQuery.Value.Basic

/-!
# Values shown in messages

The text of a value inside a message: quoted texts, bracketed lists, tuples in parentheses (a single
item is followed by a comma), mappings in braces.
-/

namespace ModelQuery.Value

open ModelQuery

/-- An identifier with the name of its shape. -/
def shownIdentifier : Identifier String → String
  | .bare field => "BareField(field=" ++ Text.shown field ++ ")"
  | .qualified model field =>
    "QualifiedField(model=" ++ Text.shown model ++ ", field=" ++ Text.shown field ++ ")"
  | .label path => "ResolvedAlias(alias=" ++ Text.shown path ++ ")"
  | .raw expression => "RawExpression(expression=" ++ Text.shown expression ++ ")"

mutual

/-- A value as messages show it. -/
def shown : Value → String
  | .null => "None"
  | .bool b => if b then "True" else "False"
  | .int n => toString n
  | .float x => Decimal.floatText x
  | .text s | .declared s => Text.shown s
  | .list items => "[" ++ shownAll items ++ "]"
  | .tuple [item] => "(" ++ item.shown ++ ",)"
  | .tuple items => "(" ++ shownAll items ++ ")"
  | .mapping entries => "\x7b" ++ shownEntries entries ++ "\x7d"
  | .identifier i => shownIdentifier i
  | .modelClass name => name
  | .modelInstance name => name
  | .sql _ => "expression"
  | .query caption _ _ => caption

/-- Items with commas between them. -/
def shownAll : List Value → String
  | [] => ""
  | [v] => v.shown
  | v :: rest => v.shown ++ ", " ++ shownAll rest

/-- Entries with commas between them. -/
def shownEntries : List (Value × Value) → String
  | [] => ""
  | [(k, v)] => k.shown ++ ": " ++ v.shown
  | (k, v) :: rest => k.shown ++ ": " ++ v.shown ++ ", " ++ shownEntries rest

end

end ModelQuery.Value
