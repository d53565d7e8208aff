import ModelQuery.Error
import ModelQuery.Identifier
import ModelQuery.Sql.Function.Name

/-!
# Values

A query is built from values whose sort is known only when it is put to use: names and numbers, but
also lists, tagged identifiers, classes, pieces of SQL and other queries. `Value` is the sum of all
of them.

Two more types come with it, because a value may be a piece of SQL and SQL may hold values:

* `Expr`, an SQL expression as a tree;
* `Token`, one step of SQL text that does not depend on the dialect yet. A whole query that stands
  inside another is kept as the list of its tokens, so an expression never holds a statement.

`Source` is what a column is a column of: a table, or a table under another name. A caller can call
a table by a value that is no text. Such a name can be told from others, so a statement can be built
with it, but it cannot be written.
-/

namespace ModelQuery

/-- What a table or an alias is called. -/
inductive SourceName where
  | text (s : String)
  /-- A name that is no text, told from others by its number; to write it fails. -/
  | other (number : Nat) (cause : Error)
deriving DecidableEq, Repr

/-- A table as a statement sees it: its visible name, and the table behind it when that name is an
alias. -/
structure Source where
  name : SourceName
  aliasOf : Option SourceName
  /-- The table is an object of the caller's own, and the same as no other. -/
  apart : Bool := false
deriving DecidableEq, Repr

/-- How a bound value is called: by a name of its own, or by a numbered stem. -/
inductive BindName where
  | exact (name : String)
  | numbered (stem : String)
deriving DecidableEq, Repr

mutual

/-- Anything a caller can hand to a query. -/
inductive Value where
  | null
  | bool (b : Bool)
  | int (n : Int)
  | float (x : Float)
  | text (s : String)
  /-- A text that is the name of a mapped column or table, taken over as the object it is there. -/
  | declared (s : String)
  | list (items : List Value)
  | tuple (items : List Value)
  | mapping (entries : List (Value × Value))
  | identifier (i : Identifier String)
  /-- A class, known by its name. -/
  | modelClass (name : String)
  /-- An instance of a class, known by the name of the class. -/
  | modelInstance (name : String)
  | sql (e : Expr)
  /-- Another query, shown as `caption`. It stands for its SELECT, or for what is wrong with it: the
  whole statement, or the statement as one value, whose columns have no need to be told apart. -/
  | query (caption : String) (plain scalar : Except Error (List Token))

/-- An SQL expression. -/
inductive Expr where
  | column (source : Option Source) (name : String)
  /-- SQL text taken as it is. -/
  | verbatim (text : String)
  | call (function : String) (args : List Expr)
  /-- A part of a time. -/
  | part (field : String) (time : Expr)
  /-- A whole table, which is not a column. -/
  | relation (name : String)
  | null
  | truth (b : Bool)
  | literal (v : Value)
  /-- A query used as one value. -/
  | subselect (tokens : List Token)

/-- A step of SQL text. -/
inductive Token where
  /-- Text of the language itself. -/
  | word (text : String)
  /-- Text of the caller, taken as it is. -/
  | verbatim (text : String)
  /-- A name, quoted where the dialect needs it. -/
  | name (text : String)
  /-- A call of a function, in the dialect's own words for it. -/
  | call (function : String) (args : List Token)
  /-- A part of a time, in the dialect's own words for it. -/
  | part (field : String) (time : List Token)
  | null
  | truth (b : Bool)
  /-- A value, written out or bound. -/
  | bind (name : BindName) (v : Value)
  /-- Tokens whose values are bound in any case. -/
  | bound (tokens : List Token)
  /-- Tokens whose values, where values are bound, are written into the text at the last moment. -/
  | late (tokens : List Token)
  /-- The test that is always true, where a join has no condition. -/
  | always
  /-- The set without items, after `IN` or `NOT IN`; where values are bound it is one, called by a
  numbered stem. -/
  | emptySet (negated : Bool) (stem : String)
  /-- The part of a SELECT that limits its rows; either may be absent. -/
  | limits (limit offset : List Token)
  /-- Sets the next free number of a stem aside for a label. A label that is shared has one number
  wherever it stands. -/
  | openLabel (stem : String) (shared : Option String)
  /-- Writes the label that was set aside last. -/
  | closeLabel
  /-- A place that cannot be written. -/
  | fault (cause : Error)

end

instance : Inhabited Value := ⟨.null⟩

namespace Value

/-- The text a value is. -/
def text? : Value → Option String
  | .text s | .declared s => some s
  | _ => none

/-- A value counts as true unless it is null, zero or empty. -/
def truthy : Value → Bool
  | .null => false
  | .bool b => b
  | .int n => n != 0
  | .float x => x != 0
  | .text s | .declared s => s != ""
  | .list items => !items.isEmpty
  | .tuple items => !items.isEmpty
  | .mapping entries => !entries.isEmpty
  | _ => true

/-- A value that is present: anything but null. -/
def isPresent : Value → Bool
  | .null => false
  | _ => true

/-- The word for a value's sort, as a model is named after it. -/
def sortName : Value → String
  | .null => "NoneType"
  | .bool _ => "bool"
  | .int _ => "int"
  | .float _ => "float"
  | .text _ | .declared _ => "str"
  | .list _ => "list"
  | .tuple _ => "tuple"
  | .mapping _ => "dict"
  | .identifier (.bare _) => "BareField"
  | .identifier (.qualified _ _) => "QualifiedField"
  | .identifier (.label _) => "ResolvedAlias"
  | .identifier (.raw _) => "RawExpression"
  | .modelClass name => name
  | .modelInstance name => name
  | .sql (.relation _) => "TableClause"
  | .sql (.call function _) => Sql.Function.sortName function
  | .sql (.part _ _) => Sql.Function.partName
  | .sql _ => "ColumnClause"
  | .query _ _ _ => "Builder"

@[simp] theorem text?_text (s : String) : (Value.text s).text? = some s := rfl

@[simp] theorem text?_declared (s : String) : (Value.declared s).text? = some s := rfl

theorem eq_of_text? {v : Value} {s : String} (h : v.text? = some s) :
    v = .text s ∨ v = .declared s := by
  cases v with
  | text t => exact .inl (congrArg Value.text (Option.some.inj h))
  | declared t => exact .inr (congrArg Value.declared (Option.some.inj h))
  | _ => cases h

end Value

/-- A name in the words of the database, and whether a mapped class spells it. -/
structure Name where
  text : String
  declared : Bool
deriving DecidableEq, Repr

/-- A name as a value. -/
def Name.toValue (n : Name) : Value := if n.declared then .declared n.text else .text n.text

@[simp] theorem Name.text?_toValue (n : Name) : n.toValue.text? = some n.text := by
  unfold Name.toValue
  split <;> rfl

end ModelQuery
