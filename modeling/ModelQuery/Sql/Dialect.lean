import ModelQuery.Text.Case
import ModelQuery.Text.Digit

/-!
# Dialects

Three dialects of SQL. This module holds what they do to names: which words they reserve, and when a
name has to be quoted. A quoted name stands in double quotes, and a quote inside it is written
twice. One dialect reads a per cent sign as the start of a placeholder, so there every such sign in
a name or a text is written twice.
-/

namespace ModelQuery.Sql

/-- A dialect of SQL. -/
inductive Dialect where
  | standard
  | sqlite
  | postgresql
deriving DecidableEq, Repr

/-- The sorts of numbered names. -/
inductive NumberedSort where
  | label
  | value
deriving DecidableEq, Repr

namespace Dialect

/-! ## Reserved words -/

/-- The words the standard reserves. -/
def standardWords : List String :=
  ["all", "analyse", "analyze", "and", "any", "array", "as", "asc", "asymmetric",
   "authorization", "between", "binary", "both", "case", "cast", "check", "collate", "column",
   "constraint", "create", "cross", "current_date", "current_role", "current_time",
   "current_timestamp", "current_user", "default", "deferrable", "desc", "distinct", "do",
   "else", "end", "except", "false", "for", "foreign", "freeze", "from", "full", "grant",
   "group", "having", "ilike", "in", "initially", "inner", "intersect", "into", "is", "isnull",
   "join", "leading", "left", "like", "limit", "localtime", "localtimestamp", "natural", "new",
   "not", "notnull", "null", "off", "offset", "old", "on", "only", "or", "order", "outer",
   "overlaps", "placing", "primary", "references", "right", "select", "session_user", "set",
   "similar", "some", "symmetric", "table", "then", "to", "trailing", "true", "union", "unique",
   "user", "using", "verbose", "when", "where"]

/-- The words one dialect reserves beyond the standard. -/
def postgresqlWords : List String :=
  ["current_catalog", "current_schema", "fetch", "of", "over", "returning", "variadic", "window",
   "with"]

/-- The words one dialect reserves instead of the standard's. -/
def sqliteWords : List String :=
  ["add", "after", "all", "alter", "analyze", "and", "as", "asc", "attach", "autoincrement",
   "before", "begin", "between", "by", "cascade", "case", "cast", "check", "collate", "column",
   "commit", "conflict", "constraint", "create", "cross", "current_date", "current_time",
   "current_timestamp", "database", "default", "deferrable", "deferred", "delete", "desc",
   "detach", "distinct", "drop", "each", "else", "end", "escape", "except", "exclusive",
   "exists", "explain", "fail", "false", "for", "foreign", "from", "full", "glob", "group",
   "having", "if", "ignore", "immediate", "in", "index", "indexed", "initially", "inner",
   "insert", "instead", "intersect", "into", "is", "isnull", "join", "key", "left", "like",
   "limit", "match", "natural", "not", "notnull", "null", "of", "offset", "on", "or", "order",
   "outer", "plan", "pragma", "primary", "query", "raise", "references", "reindex", "rename",
   "replace", "restrict", "right", "rollback", "row", "select", "set", "table", "temp",
   "temporary", "then", "to", "transaction", "trigger", "true", "union", "unique", "update",
   "using", "vacuum", "values", "view", "virtual", "when", "where"]

/-- The dialect reserves a word. -/
def reserves : Dialect → String → Bool
  | .standard, w => standardWords.contains w
  | .sqlite, w => sqliteWords.contains w
  | .postgresql, w => (standardWords.contains w && w != "set") || postgresqlWords.contains w

/-! ## Names -/

/-- A character a plain name may hold: a letter of the Latin alphabet, or one that is such a letter
but for its case, a digit, a low line or a dollar sign. -/
def isNameChar (c : Char) : Bool :=
  c.isAlphanum || c == '_' || c == '$' ||
    c == '\u0130' || c == '\u0131' || c == '\u017f' || c == '\u212a'

/-- All characters may stand in a plain name. One line break at the very end does not count. -/
def hasNameChars (s : String) : Bool :=
  let cs := match s.toList.reverse with
    | '\n' :: rest => rest
    | cs => cs
  !cs.isEmpty && cs.all isNameChar

/-- The name begins with a character no plain name begins with. -/
def startsBadly (s : String) : Bool :=
  match s.toList with
  | c :: _ => c.isDigit || c == '$'
  | [] => true

/-- The name has to be quoted. -/
def needsQuotes (d : Dialect) (s : String) : Bool :=
  let small := Text.lower s
  d.reserves small || startsBadly s || !hasNameChars s || small != s

/-- A text with every occurrence of one character written twice. -/
def doubled (c : Char) (s : String) : String :=
  String.ofList (s.toList.flatMap fun d => if d == c then [d, d] else [d])

/-- A text with every per cent sign doubled where the dialect asks for it. -/
def escapePercent : Dialect → String → String
  | .postgresql, s => doubled '%' s
  | _, s => s

/-- A name in quotes. -/
def quoted (d : Dialect) (s : String) : String :=
  "\"" ++ d.escapePercent (doubled '"' s) ++ "\""

/-- A name as the dialect writes it. -/
def name (d : Dialect) (s : String) : String := if d.needsQuotes s then d.quoted s else s

/-- The name of a function as the dialect writes it: reserved words and capitals stay as they
are. -/
def callee (d : Dialect) (s : String) : String := if hasNameChars s then s else d.quoted s

/-- The longest name the dialect takes. -/
def longestName : Dialect → Nat
  | .postgresql => 63
  | _ => 9999

/-- The longest numbered name that is not cut, which leaves room for a mark. -/
def longestNumbered (d : Dialect) : Nat := d.longestName - 6

/-! ## Constants -/

/-- A truth value. -/
def truth : Dialect → Bool → String
  | .sqlite, b => if b then "1" else "0"
  | _, b => if b then "true" else "false"

/-- The test that always holds. -/
def always : Dialect → String
  | .sqlite => "1 = 1"
  | _ => "true"

/-- The words before a limit, told whether there is none. -/
def limitWord : Dialect → (absent : Bool) → String
  | .postgresql, false => " \n LIMIT "
  | .postgresql, true => "\n LIMIT ALL"
  | .standard, true => "\n LIMIT -1"
  | _, _ => "\n LIMIT "

/-- The set without items. Where the dialect has none, a constant test beside it decides. -/
def emptySet : Dialect → (negated : Bool) → String
  | .sqlite, _ => "(SELECT 1 FROM (SELECT 1) WHERE 1!=1)"
  | _, false => "(NULL) AND (1 != 1)"
  | _, true => "(NULL) OR (1 = 1)"

/-- A text between single quotes. -/
def textLiteral (d : Dialect) (s : String) : String :=
  "'" ++ d.escapePercent (doubled '\'' s) ++ "'"

end Dialect

end ModelQuery.Sql
