import ModelQuery.Decimal.Shortest

/-!
# JSON documents

The values of JSON, whole numbers told apart from floating-point ones, and their compact text.
Members keep their order. Characters outside ASCII are written as they are.
-/

namespace ModelQuery

/-- A JSON value. -/
inductive Json where
  | null
  | bool (b : Bool)
  | int (n : Int)
  | float (x : Float)
  | text (s : String)
  | array (items : List Json)
  | object (members : List (String × Json))

instance : Inhabited Json := ⟨.null⟩

namespace Json

/-! ## Writing -/

/-- A character inside a JSON text. -/
def escape (c : Char) : List Char :=
  let n := c.toNat
  if c = '"' then ['\\', '"']
  else if c = '\\' then ['\\', '\\']
  else if c = '\n' then ['\\', 'n']
  else if c = '\r' then ['\\', 'r']
  else if c = '\t' then ['\\', 't']
  else if n < 0x20 then ['\\', 'u', '0', '0', Nat.digitChar (n / 16), Nat.digitChar (n % 16)]
  else [c]

/-- A text in quotes. -/
def quoted (s : String) : String :=
  String.ofList ('"' :: (s.toList.flatMap escape ++ ['"']))

mutual

/-- The compact text of a JSON value. -/
def render : Json → String
  | .null => "null"
  | .bool b => if b then "true" else "false"
  | .int n => toString n
  | .float x => Decimal.floatText x
  | .text s => quoted s
  | .array items => "[" ++ renderItems items ++ "]"
  | .object members => "\x7b" ++ renderMembers members ++ "\x7d"

/-- Items with commas between them. -/
def renderItems : List Json → String
  | [] => ""
  | [j] => j.render
  | j :: rest => j.render ++ "," ++ renderItems rest

/-- Members with commas between them. -/
def renderMembers : List (String × Json) → String
  | [] => ""
  | [(k, j)] => quoted k ++ ":" ++ j.render
  | (k, j) :: rest => quoted k ++ ":" ++ j.render ++ "," ++ renderMembers rest

end

/-! ## Looking inside -/

/-- The member called `key`; of several the last. -/
def member? (key : String) : Json → Option Json
  | .object members => (members.reverse.lookup key)
  | _ => none

/-- The text a JSON value is. -/
def text? : Json → Option String
  | .text s => some s
  | _ => none

/-- The items of an array. -/
def items? : Json → Option (List Json)
  | .array items => some items
  | _ => none

end Json

end ModelQuery
