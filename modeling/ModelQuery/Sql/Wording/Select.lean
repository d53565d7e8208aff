import ModelQuery.Assoc
import ModelQuery.Sql.Wording.Expression
import ModelQuery.Value.Equality

/-!
# The wording of SELECT

The clauses of a SELECT in their order, with the sources it reads beside those it names.

The columns of a result are told apart by their names, so a column whose name is taken gets a
numbered label. `Labels` remembers who took a name first, and which columns were renamed:

* a column whose name is free stays without a label;
* the column that owns its name, or was already renamed, is labelled with the stem `name_`;
* any other column is labelled with the stem `name`, and counts as renamed.

An alias takes its name if it is free and is written in any case. Columns without a table and text
taken as it is take no part in this. An expression that has no name of its own always gets a label.
A constant is one and the same wherever it stands, so its label has one number too.

A SELECT that is used as one value has no need to tell its columns apart. Everything else about it
is the same.
-/

namespace ModelQuery.Sql

/-! ## Labels -/

/-- A label that is numbered when it is written: its stem, and what shares its number. -/
structure NumberedLabel where
  stem : String
  shared : Option String := none
deriving DecidableEq, Repr

/-- What has been selected so far, as far as names go. -/
structure Labels where
  /-- The names that are taken, each with the source of the column that took it. -/
  owners : List (String × Option Source) := []
  /-- The columns that were renamed. -/
  renamed : List (Source × String) := []
  constants : List String := []
  /-- The aliases that are no texts. -/
  oddAliases : List Value := []
  /-- How often something came again. -/
  repeats : Nat := 0

/-- The stem of the labels for a name, which may be empty. -/
def labelStemOf (name : String) : String := if name = "" then "anon" else labelStem name

namespace Labels

/-- An alias takes its name. One that is no text must be able to be a key and cannot come twice. -/
def takeAlias (name : Value) (l : Labels) : Except Error Labels :=
  match name.text? with
  | some s => .ok { l with owners := Assoc.putNew s none l.owners }
  | none =>
    if !name.hashable then .error .unhashable
    else if l.oddAliases.any (· == name) then .error .wrongType
    else .ok { l with oddAliases := l.oddAliases ++ [name] }

/-- Something that came again. -/
def again (l : Labels) : Labels := { l with repeats := l.repeats + 1 }

/-- The label a column needs, if it needs one, and the labels after it. A column without a name
cannot come again. -/
def column (s : Source) (name : String) (l : Labels) :
    Except Error (Option NumberedLabel × Labels) :=
  match l.owners.lookup name with
  | none => .ok (none, { l with owners := l.owners ++ [(name, some s)] })
  | some owner =>
    if owner = some s ∨ (s, name) ∈ l.renamed then
      if name = "" then .error .conflict
      else .ok (some { stem := labelStem (name ++ "_") }, l.again)
    else .ok (some { stem := labelStemOf name }, { l with renamed := l.renamed ++ [(s, name)] })

/-- The label of a constant, and the labels after it. -/
def constant (word : String) (l : Labels) : NumberedLabel × Labels :=
  if word ∈ l.constants then
    let l := l.again
    ({ stem := "anon_", shared := some (word ++ " " ++ toString l.repeats) }, l)
  else ({ stem := "anon", shared := some word }, { l with constants := l.constants ++ [word] })

end Labels

/-- Tokens under a numbered label. Its number is set aside before anything inside is numbered. -/
def labelled (label : NumberedLabel) (ts : List Token) : List Token :=
  [.openLabel label.stem label.shared] ++ ts ++ [.word " AS ", .closeLabel]

/-- The word of a constant. -/
def constantWord? : Expr → Option String
  | .null => some "NULL"
  | .truth b => some (if b then "true" else "false")
  | _ => none

/-- The label an expression without an alias gets, and the labels after it. -/
def implicitLabel (e : Expr) (l : Labels) : Except Error (Option NumberedLabel × Labels) :=
  match e, constantWord? e with
  | _, some word =>
    let (label, l) := l.constant word
    .ok (some label, l)
  | .column none _, _ | .verbatim _, _ | .relation _, _ => .ok (none, l)
  | .column (some s) name, _ => l.column s name
  | .call function _, _ => .ok (some { stem := labelStemOf function }, l)
  | _, _ => .ok (some { stem := "anon" }, l)

/-- An alias where it is written. -/
def aliasToken (name : Value) : Token :=
  match name.text? with
  | some s => .name s
  | none => .fault (if name.hashable then .noSuchOperation else .unhashable)

/-- An expression under an alias. -/
def aliasTokens (e : Expr) (name : Value) : List Token :=
  operandTokens e ++ [.word " AS ", aliasToken name]

/-- One item, and the labels after it. -/
def itemTokens (i : SelectItem) (l : Labels) : Except Error (List Token × Labels) := do
  match i.label with
  | some name => return (aliasTokens i.expr name, ← l.takeAlias name)
  | none =>
    match ← implicitLabel i.expr l with
    | (some label, l) => return (labelled label (operandTokens i.expr), l)
    | (none, l) => return (operandTokens i.expr, l)

/-- The items from the left; one without text is left out. -/
def itemsTokens (l : Labels) : List SelectItem → Except Error (List (List Token))
  | [] => .ok []
  | i :: rest => do
    let (ts, l) ← itemTokens i l
    let others ← itemsTokens l rest
    return if ts.isEmpty then others else ts :: others

/-- An item whose columns need not be told apart: only what has no name at all is labelled. -/
def scalarItemTokens (i : SelectItem) : List Token :=
  match i.label, i.expr, constantWord? i.expr with
  | some name, e, _ => aliasTokens e name
  | none, e, some word => labelled { stem := "anon", shared := some word } (operandTokens e)
  | none, .call function args, _ =>
    labelled { stem := labelStemOf function } (operandTokens (.call function args))
  | none, e, _ => operandTokens e

/-- Items whose columns need not be told apart. -/
def scalarItemsTokens (items : List SelectItem) : List (List Token) :=
  (items.map scalarItemTokens).filter fun ts => !ts.isEmpty

/-! ## Sources -/

/-- A source where it is named: an alias stands after its table. -/
def sourceTokens (s : Source) : List Token :=
  match s.aliasOf with
  | some table => [sourceToken table, .word " AS ", sourceToken s.name]
  | none => [sourceToken s.name]

/-- The words that join a source. -/
def JoinKind.words : JoinKind → String
  | .inner => " JOIN "
  | .left => " LEFT OUTER JOIN "
  | .full => " FULL OUTER JOIN "

/-- A joined source with its condition. -/
def JoinItem.tokens (j : JoinItem) : List Token :=
  [.word j.kind.words] ++ sourceTokens j.source ++ [.word " ON "] ++
    match j.on with
    | some f => filterTokens f
    | none => [.always]

/-- The first source with everything joined to it. -/
def Tables.tokens (t : Tables) : List Token :=
  sourceTokens t.first ++ t.joins.flatMap JoinItem.tokens

/-- The entries of a FROM clause: the joined sources, then those beside them. -/
def fromEntries (tables : Option Tables) (read : List Source) : List (List Token) :=
  (tables.map Tables.tokens).toList ++ (beside tables read).map sourceTokens

/-- A FROM clause, unless it has no entry. -/
def fromTokens (tables : Option Tables) (read : List Source) : List Token :=
  match fromEntries tables read with
  | [] => []
  | entries => [.word " \nFROM "] ++ listed entries

/-! ## The statement -/

/-- A sort key with its direction. -/
def sortTokens : Expr × Direction → List Token
  | (e, .unspecified) => operandTokens e
  | (e, .ascending) => operandTokens e ++ [.word " ASC"]
  | (e, .descending) => operandTokens e ++ [.word " DESC"]

/-- A clause that holds a list, unless the list is empty. -/
def listClause (opening : String) : List (List Token) → List Token
  | [] => []
  | entries => [.word opening] ++ listed entries

/-- The condition of a WHERE clause. -/
def whereTokens (filter : Option Filter) : List Token := clauseTokens " \nWHERE " filter

/-- A key to group by. -/
def GroupKey.tokens : GroupKey → List Token
  | .expr e => operandTokens e
  | .query select => select

/-- A limit or an offset; nothing where it is absent. -/
def limitTokens (e : Option Expr) : List Token := (e.map operandTokens).getD []

namespace Select

/-- What a SELECT begins with. -/
def opening (s : Select) : String := if s.distinct then "SELECT DISTINCT" else "SELECT"

/-- Everything behind the items. -/
def clauses (s : Select) : List Token :=
  fromTokens s.tables s.read ++ whereTokens s.filter ++
    listClause " GROUP BY " (s.groupBy.map GroupKey.tokens) ++
    clauseTokens " \nHAVING " s.having ++ listClause " ORDER BY " (s.orderBy.map sortTokens) ++
    [.limits (limitTokens s.limit) (limitTokens s.offset)]

/-- A SELECT with its items in words. -/
def tokensWith (s : Select) (items : List (List Token)) : List Token :=
  [.word s.opening] ++ listClause " " items ++ s.clauses

/-- A SELECT. Items that cannot be told apart make it unwritable as a whole. -/
def tokens (s : Select) : List Token :=
  match itemsTokens {} s.items with
  | .ok items => s.tokensWith items
  | .error cause => [.fault cause]

/-- A SELECT used as one value, which is that of its first column. A whole table is no column. -/
def scalarTokens (s : Select) : Except Error (List Token) :=
  match s.items with
  | ⟨.relation _, _⟩ :: _ => .error .outOfRange
  | _ => .ok (s.tokensWith (scalarItemsTokens s.items))

end Select

/-- The label of a count. -/
def countLabel : String := "total"

/-- The count of the rows a SELECT starts from. -/
def countTokens (tables : Option Tables) (filter : Option Filter) : List Token :=
  [.word "SELECT count(*) AS ", .name countLabel] ++ fromTokens tables (filterSources filter) ++
    whereTokens filter

end ModelQuery.Sql
