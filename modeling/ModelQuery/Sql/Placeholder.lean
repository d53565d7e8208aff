import ModelQuery.Assoc
import ModelQuery.Sql.Dialect
import ModelQuery.Text.Blank

/-!
# Placeholders

A bound value leaves a placeholder in the text, under its name. Some characters may not stand in a
placeholder and are replaced there. A *late* placeholder stands for a value that is written into the
text when the statement is run.

One dialect knows places and no names. There the finished text is read once more: every placeholder
in it, whoever wrote it, becomes a question mark, a late one stays, and the names are kept in order.
-/

namespace ModelQuery.Sql

/-! ## Names -/

/-- A character of a placeholder's name, with a stand-in for one that no such name may hold. -/
def placeholderChar (c : Char) : Char :=
  if c = '%' then 'P'
  else if c = '(' then 'A'
  else if c = ')' then 'Z'
  else if c = ':' then 'C'
  else if c = '.' ∨ c = '[' ∨ c = ']' ∨ c = ' ' then '_'
  else c

/-- The name of a placeholder. -/
def placeholderName (name : String) : String := String.ofList (name.toList.map placeholderChar)

/-- What a late placeholder begins with. -/
def lateMark : String := "__[POSTCOMPILE_"

/-- A late placeholder. -/
def latePlaceholder (name : String) : String := lateMark ++ placeholderName name ++ "]"

/-- A placeholder as the dialect writes it at first. -/
def placeholder : Dialect → String → String
  | .standard, name => ":" ++ placeholderName name
  | _, name => "%(" ++ placeholderName name ++ ")s"

/-! ## Places -/

/-- A placeholder found in a text: its name, how many characters it takes, what it becomes. -/
structure Place where
  name : List Char
  length : Nat
  written : List Char
deriving DecidableEq, Repr

/-- The placeholder a text begins with. -/
def namedPlace? : List Char → Option Place
  | '%' :: '(' :: rest =>
    let name := rest.takeWhile (· != ')')
    if name ≠ [] ∧ [')', 's'].isPrefixOf (rest.drop name.length) then
      some ⟨name, name.length + 4, ['?']⟩
    else none
  | _ => none

/-- The late placeholder a text begins with; its name is never empty and holds no blank. -/
def latePlace? (cs : List Char) : Option Place :=
  if lateMark.toList.isPrefixOf cs then
    match cs.drop lateMark.length with
    | [] => none
    | c :: rest =>
      let name := c :: rest.takeWhile (· != ']')
      if rest.contains ']' ∧ !name.any Text.isBlank then
        let written := lateMark.toList ++ name ++ [']']
        some ⟨name, written.length, written⟩
      else none
  else none

/-- The placeholder of either sort that a text begins with. -/
def place? (cs : List Char) : Option Place := (namedPlace? cs).or (latePlace? cs)

/-- A text whose placeholders have become places, and their names in order. So many characters at
its beginning were read already. -/
def marked (passed : Nat) : List Char → List Char × List String
  | [] => ([], [])
  | c :: rest =>
    match passed, place? (c :: rest) with
    | n + 1, _ => marked n rest
    | 0, some p =>
      let (out, names) := marked (p.length - 1) rest
      (p.written ++ out, String.ofList p.name :: names)
    | 0, none =>
      let (out, names) := marked 0 rest
      (c :: out, names)

/-! ## Names behind placeholders -/

/-- The names that had to be changed, each behind what it became. -/
def changedNames (names : List String) : List (String × String) :=
  Assoc.ofList ((names.filter fun n => placeholderName n != n).map fun n => (placeholderName n, n))

/-- Two of the names that had to be changed became the same. -/
def collide (names : List String) : Bool :=
  let changed := names.filter fun n => placeholderName n != n
  (changedNames names).length != changed.length

end ModelQuery.Sql
