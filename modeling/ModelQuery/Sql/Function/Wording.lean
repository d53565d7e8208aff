import ModelQuery.Error
import ModelQuery.Sql.Dialect

/-!
# The wording of function calls

Most functions are written by their name, with their arguments in parentheses. Some are words of the
language that stand without parentheses where they take nothing, some have another name in a
dialect, and some are a fixed text there that leaves the arguments out. A part of a time has a
wording of its own.

The name of any other function is a *pattern*: a per cent sign in it opens a directive, as in the
pattern `name%(expr)s` that every call is written by. Two such signs stand for one, `%(expr)s` for
the arguments and `%s` for all that could be named. Anything else behind the sign is refused.
-/

namespace ModelQuery.Sql.Function

/-! ## Words -/

/-- Functions that are words of the language. -/
def words : List (String × String) :=
  [("current_date", "CURRENT_DATE"), ("current_time", "CURRENT_TIME"),
   ("current_timestamp", "CURRENT_TIMESTAMP"), ("current_user", "CURRENT_USER"),
   ("localtime", "LOCALTIME"), ("localtimestamp", "LOCALTIMESTAMP"),
   ("session_user", "SESSION_USER"), ("sysdate", "sysdate"), ("user", "USER")]

/-- A text that a dialect writes for a function, whatever its arguments. -/
def fixedText? : Dialect → String → Option String
  | .sqlite, function =>
    if function = "now" then some "CURRENT_TIMESTAMP"
    else if function = "localtimestamp" then some "DATETIME(CURRENT_TIMESTAMP, 'localtime')"
    else none
  | _, _ => none

/-- The name a dialect has for a function, where it is another. -/
def otherName? (d : Dialect) (function : String) : Option String :=
  if function = "cube" then some "CUBE"
  else if function = "rollup" then some "ROLLUP"
  else if function = "grouping_sets" then some "GROUPING SETS"
  else if function = "aggregate_strings" then
    some (if d = .sqlite then "group_concat" else "string_agg")
  else if function = "char_length" ∧ d = .sqlite then some "length"
  else none

/-- The values in the arguments of a function are bound in any case. -/
def bindsArguments (d : Dialect) (function : String) : Bool :=
  function == "char_length" && d == .sqlite

/-! ## Parts of times -/

/-- The codes that one dialect has for the parts of a time. -/
def timeCodes : List (String × String) :=
  [("year", "%Y"), ("month", "%m"), ("day", "%d"), ("hour", "%H"), ("minute", "%M"),
   ("second", "%S"), ("doy", "%j"), ("dow", "%w"), ("week", "%W"), ("epoch", "%s")]

/-- What stands before and behind the time of which a part is taken, if the dialect has the part. -/
def partWords? (d : Dialect) (field : String) : Option (String × String) :=
  match d with
  | .sqlite =>
    (timeCodes.lookup field).map fun code => ("CAST(STRFTIME('" ++ code ++ "', ", ") AS INTEGER)")
  | _ => some ("EXTRACT(" ++ field ++ " FROM ", ")")

/-! ## Patterns -/

/-- How far the reading of a pattern has come. -/
inductive Reading where
  | plain
  /-- Inside a directive, for the value it writes; nothing of it was read yet if it is `fresh`. -/
  | directive (value : Option String) (fresh : Bool)
  /-- Inside the key of a directive, read backwards, below so many open parentheses. -/
  | key (sofar : List Char) (depth : Nat)
deriving DecidableEq, Repr

/-- A character that says how a value is laid out, before the one that says what it is. -/
def isLayout (c : Char) : Bool := "#0- +123456789.hlL".toList.contains c

/-- A character that asks for a number. -/
def asksNumber (c : Char) : Bool := "*diouxXeEfFgGc".toList.contains c

/-- All that a pattern can name, as a text. -/
def shownNames (args : String) : String := "\x7b'expr': " ++ Text.shown args ++ "\x7d"

/-- A pattern with the arguments put in. What can be named is written as a whole only once. -/
def fill (args : String) (used : Bool) : Reading → List Char → Except Error (List Char)
  | .plain, [] => .ok []
  | _, [] => .error .badValue
  | .plain, c :: rest =>
    if c = '%' then fill args used (.directive none true) rest
    else (fill args used .plain rest).map (c :: ·)
  | .directive value fresh, c :: rest =>
    if c = '(' ∧ fresh then fill args used (.key [] 0) rest
    else if isLayout c then fill args used (.directive value false) rest
    else if c = '%' then (fill args used .plain rest).map ('%' :: ·)
    else if c = 's' ∨ c = 'r' ∨ c = 'a' then
      match value with
      | some text => (fill args used .plain rest).map (text.toList ++ ·)
      | none =>
        if used then .error .wrongType
        else (fill args true .plain rest).map ((shownNames args).toList ++ ·)
    else if asksNumber c then .error .wrongType
    else .error .badValue
  | .key sofar depth, c :: rest =>
    if c = ')' ∧ depth = 0 then
      if sofar.reverse = "expr".toList then fill args used (.directive (some args) false) rest
      else .error .unknownKey
    else
      let depth := if c = '(' then depth + 1 else if c = ')' then depth - 1 else depth
      fill args used (.key (c :: sofar) depth) rest

/-- A pattern with the arguments behind it. -/
def fillName (name args : String) : Except Error String :=
  (fill args false .plain (name ++ "%(expr)s").toList).map String.ofList

/-! ## Calls -/

/-- A call, told the text of its arguments in parentheses and whether it has any. -/
def called (d : Dialect) (function : String) (hasArgs : Bool) (args : String) :
    Except Error String :=
  match words.lookup function, otherName? d function with
  | some word, _ => .ok (if hasArgs then word ++ args else word)
  | none, some name => .ok (name ++ args)
  | none, none => fillName (d.callee function) args

end ModelQuery.Sql.Function
