import ModelQuery.Kind
import ModelQuery.Sql.Formula

/-!
# Statements

The four statements and the count, as trees. A statement says what it selects or changes, from which
sources, under which formula; how that is written is left to its wording.
-/

namespace ModelQuery.Sql

/-- The comparisons with a meaning of their own. -/
inductive Comparator where
  | eq
  | ne
  | lt
  | le
  | gt
  | ge
  | is
  | isNot
  | like
  | notLike
deriving DecidableEq, Repr

/-- A comparison as SQL writes it. -/
def Comparator.word : Comparator → String
  | .eq => "="
  | .ne => "!="
  | .lt => "<"
  | .le => "<="
  | .gt => ">"
  | .ge => ">="
  | .is => "IS"
  | .isNot => "IS NOT"
  | .like => "LIKE"
  | .notLike => "NOT LIKE"

/-- A test of an expression. -/
inductive Comparison where
  | compare (c : Comparator) (left right : Expr)
  /-- A comparison with a value that is called after what stands beside it. -/
  | compareValue (c : Comparator) (left : Expr) (v : Value)
  /-- An operator taken as it is. -/
  | custom (op : String) (left right : Expr)
  | between (x low high : Expr)
  | inList (negated : Bool) (x : Expr) (items : List Expr)
  | inQuery (negated : Bool) (x : Expr) (select : List Token)

/-- The condition of a statement. -/
abbrev Filter := Formula Comparison

/-- How a table is joined. -/
inductive JoinKind where
  | inner
  | left
  | full
deriving DecidableEq, Repr

/-- A joined source; without a condition every pair of rows is kept. -/
structure JoinItem where
  kind : JoinKind
  source : Source
  on : Option Filter

/-- The sources a statement names: the first with everything joined to it, then the others. -/
structure Tables where
  first : Source
  joins : List JoinItem
  others : List Source

/-- The direction of a sort key, where one is given. -/
inductive Direction where
  | unspecified
  | ascending
  | descending
deriving DecidableEq, Repr

/-- One item of a SELECT. Its label need be no text until it is written. -/
structure SelectItem where
  expr : Expr
  label : Option Value

/-- A key to group by. -/
inductive GroupKey where
  | expr (e : Expr)
  /-- A whole query, which stands without parentheses here. -/
  | query (select : List Token)

/-- A SELECT. -/
structure Select where
  distinct : Bool := false
  items : List SelectItem
  tables : Option Tables := none
  filter : Option Filter := none
  groupBy : List GroupKey := []
  having : Option Filter := none
  orderBy : List (Expr × Direction) := []
  limit : Option Expr := none
  offset : Option Expr := none

/-- What is assigned to. -/
inductive Target where
  /-- A column of the changed table. -/
  | column (name : String)
  /-- An expression with a name, for the column so called. -/
  | named (name : String)
  /-- An expression without a name. -/
  | nameless (e : Expr)
  /-- Something that nothing can be assigned to. -/
  | invalid

/-- The name of the column that is assigned to. -/
def Target.name? : Target → Option String
  | .column name | .named name => some name
  | _ => none

/-- A value for a target. -/
structure Assignment where
  target : Target
  value : Expr

/-- The table a statement changes, with the columns it is known to have. -/
structure Changed where
  source : Source
  columns : List String

/-- A statement. -/
inductive Statement where
  | select (s : Select)
  | count (tables : Option Tables) (filter : Option Filter)
  /-- Without assignments every known column is assigned a value that is not there. -/
  | update (into : Changed) (assignments : Option (List Assignment)) (filter : Option Filter)
  /-- Without rows every known column is given a value that is not there. -/
  | insert (into : Changed) (rows : Option (List (List Assignment)))
  | delete (into : Changed) (filter : Option Filter)

/-- The statement answers with rows. -/
def Statement.hasRows : Statement → Bool
  | .select _ | .count _ _ => true
  | _ => false

/-! ## The sources a statement reads -/

mutual

/-- The sources of the columns in an expression, from the left. A query inside it reads its own. -/
def exprSources : Expr → List Source
  | .column (some s) _ => [s]
  | .call _ args => exprSourcesAll args
  | .part _ time => exprSources time
  | _ => []

/-- The sources of several expressions. -/
def exprSourcesAll : List Expr → List Source
  | [] => []
  | e :: rest => exprSources e ++ exprSourcesAll rest

end

/-- The sources of a test. -/
def Comparison.sources : Comparison → List Source
  | .compare _ l r => exprSources l ++ exprSources r
  | .compareValue _ l _ => exprSources l
  | .custom _ l r => exprSources l ++ exprSources r
  | .between x a b => exprSources x ++ exprSources a ++ exprSources b
  | .inList _ x items => exprSources x ++ exprSourcesAll items
  | .inQuery _ x _ => exprSources x

/-- The sources of a condition, from the left. -/
def filterSources : Option Filter → List Source
  | none => []
  | some f => f.tests.flatMap Comparison.sources

/-- The sources that are not listed yet, each once; a source of the caller's own is never listed
yet. -/
def listNew (listed : List Source) : List Source → List Source
  | [] => []
  | s :: rest =>
    if s ∈ listed ∧ !s.apart then listNew listed rest else s :: listNew (listed ++ [s]) rest

/-- The sources a FROM clause joins. -/
def Tables.joined (t : Tables) : List Source := t.first :: t.joins.map (·.source)

/-- The sources beside the joined ones: those named further, then those only read. -/
def beside (tables : Option Tables) (read : List Source) : List Source :=
  match tables with
  | some t => listNew t.joined (t.others ++ read)
  | none => listNew [] read

/-- The sources of a selected item: a whole table brings itself. -/
def itemSources (i : SelectItem) : List Source :=
  match i.expr with
  | .relation name => [{ name := .text name, aliasOf := none, apart := true }]
  | e => exprSources e

/-- The sources a SELECT reads outside its FROM and JOIN entries. -/
def Select.read (s : Select) : List Source :=
  s.items.flatMap itemSources ++ filterSources s.filter

end ModelQuery.Sql
