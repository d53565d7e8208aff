import ModelQuery.Text.Case

/-!
# Names of functions

A function of SQL is called by any name. Some names are known, in any case; a call of a known
function is kept under its name in small letters. One low line at the end of a name is no part of
it, so a caller can write a name that is a word of the caller's own language.
-/

namespace ModelQuery.Sql.Function

/-- The known functions. -/
def known : List String :=
  ["aggregate_strings", "array_agg", "char_length", "coalesce", "concat", "count", "cube",
   "cume_dist", "current_date", "current_time", "current_timestamp", "current_user", "dense_rank",
   "grouping_sets", "localtime", "localtimestamp", "max", "min", "mode", "next_value", "now",
   "percent_rank", "percentile_cont", "percentile_disc", "pow", "random", "rank", "rollup",
   "session_user", "sum", "sysdate", "user"]

/-- The function that takes a part of a time. -/
def partName : String := "extract"

/-- A name without the low line at its end. -/
def unmarked (s : String) : String :=
  match s.toList.reverse with
  | '_' :: rest => String.ofList rest.reverse
  | _ => s

/-- The name a call is kept under. -/
def keptName (s : String) : String :=
  let name := unmarked s
  let small := Text.lower name
  if known.contains small || small == partName then small else name

/-- The word for the sort of a call: known functions are sorts of their own. -/
def sortName (name : String) : String := if known.contains name then name else "Function"

end ModelQuery.Sql.Function
