import ModelQuery.Sql.Statement

/-!
# The wording of expressions and tests

An expression becomes tokens that do not depend on the dialect. A value inside a function call is
bound under the function's name, any other value under the stem `param`. The set without items is
called by the operand that is looked for in it.

A test stands in parentheses where its operator would be read together with what surrounds it: one
with an operator of the caller's own inside AND or OR, and NOT IN everywhere.
-/

namespace ModelQuery.Sql

/-! ## Stems of numbered names -/

/-- A character that cannot stand in a numbered name. -/
def breaksStem (c : Char) : Bool := c == '%' || c == '(' || c == ')' || c == ' ' || c == '$'

/-- Every run of characters that cannot stand in a numbered name becomes one low line. -/
def stemChars : List Char → List Char
  | [] => []
  | c :: rest =>
    if breaksStem c then
      match rest with
      | d :: _ => if breaksStem d then stemChars rest else '_' :: stemChars rest
      | [] => ['_']
    else c :: stemChars rest

/-- The stem of the labels for a name. -/
def labelStem (name : String) : String := String.ofList (stemChars name.toList)

/-- The stem of the values bound for something that has a name: no low line stands at its ends. -/
def bindStem (name : String) : String :=
  let inner := (stemChars name.toList).dropWhile (· == '_')
  String.ofList (inner.reverse.dropWhile (· == '_')).reverse

/-- The stem of all other bound values. -/
def valueStem : String := "param"

/-- The stem of the values among the arguments of a function. -/
def argumentStem (function : String) : String :=
  if function = "array_agg" then valueStem else bindStem function

/-! ## Expressions -/

/-- Groups of tokens with a separator between them. -/
def separated (sep : String) : List (List Token) → List Token
  | [] => []
  | [ts] => ts
  | ts :: rest => ts ++ [.word sep] ++ separated sep rest

/-- Groups of tokens as a list. -/
def listed (groups : List (List Token)) : List Token := separated ", " groups

/-- The name of a source; one that is no text cannot be written. -/
def sourceToken : SourceName → Token
  | .text s => .name s
  | .other _ cause => .fault cause

/-- The arguments of a function. What separates joined texts is written out at the last moment. -/
def argumentTokens (function : String) (groups : List (List Token)) : List Token :=
  match groups with
  | [text, separator] =>
    if function = "aggregate_strings" then listed [text, [.late separator]] else listed groups
  | _ => listed groups

mutual

/-- An expression; `stem` names the values bound in it. -/
def exprTokens (stem : String) : Expr → List Token
  | .column none name => [.name name]
  | .column (some s) name => [sourceToken s.name, .word ".", .name name]
  | .verbatim text => [.verbatim text]
  | .call function args =>
    [.call function (argumentTokens function (exprTokensAll (argumentStem function) args))]
  | .part field time => [.part field (exprTokens valueStem time)]
  -- a whole table has no text of its own among columns
  | .relation _ => []
  | .null => [.null]
  | .truth b => [.truth b]
  | .literal v => [.bind (.numbered stem) v]
  | .subselect tokens => Formula.parenthesized tokens

/-- Several expressions. -/
def exprTokensAll (stem : String) : List Expr → List (List Token)
  | [] => []
  | e :: rest => exprTokens stem e :: exprTokensAll stem rest

end

/-- An expression outside any function. -/
def operandTokens (e : Expr) : List Token := exprTokens valueStem e

/-! ## Tests -/

namespace Comparison

/-- The stem of a value that is bound beside an operand. -/
def stemBeside : Expr → String
  | .column _ name => bindStem name
  | .verbatim text => bindStem text
  | .call function _ => bindStem function
  | _ => valueStem

/-- The set a test for membership compares with. -/
def setTokens (negated : Bool) (x : Expr) : List Expr → List Token
  | [] => [.emptySet negated (stemBeside x)]
  | items => Formula.parenthesized (listed (items.map operandTokens))

/-- A test for membership; its denial always stands in parentheses. -/
def membership (negated : Bool) (x : Expr) (set : List Token) : List Token :=
  if negated then Formula.parenthesized (operandTokens x ++ [.word " NOT IN "] ++ set)
  else operandTokens x ++ [.word " IN "] ++ set

/-- A test, told whether it stands alone. -/
def tokens (alone : Bool) : Comparison → List Token
  | .compare c l r => operandTokens l ++ [.word (" " ++ c.word ++ " ")] ++ operandTokens r
  | .compareValue c l v =>
    operandTokens l ++ [.word (" " ++ c.word ++ " "), .bind (.numbered (stemBeside l)) v]
  | .custom op l r =>
    let ts := operandTokens l ++ [.word " ", .verbatim op, .word " "] ++ operandTokens r
    if alone then ts else Formula.parenthesized ts
  | .between x low high =>
    operandTokens x ++ [.word " BETWEEN "] ++ operandTokens low ++ [.word " AND "] ++
      operandTokens high
  | .inList negated x items => membership negated x (setTokens negated x items)
  | .inQuery negated x select => membership negated x (Formula.parenthesized select)

end Comparison

/-- The tokens of a condition. -/
def filterTokens (f : Filter) : List Token := f.tokens Comparison.tokens true

/-- A clause that holds a condition, where there is one. -/
def clauseTokens (opening : String) : Option Filter → List Token
  | none => []
  | some f => [.word opening] ++ filterTokens f

end ModelQuery.Sql
