import ModelQuery.Assoc
import ModelQuery.Json.Reader
import ModelQuery.Schema.Model
import ModelQuery.Settings.Address
import ModelQuery.Text.Case
import ModelQuery.Value.Shown

/-!
# Settings

Connection groups and whether statements are logged, from the environment and from what a caller
gives. A variable `SQLA_BUILDER_GROUPS` holds all groups as a document, `SQLA_BUILDER_GROUPS__NAME`
holds one as its plain text. The case of variables does not count.

What a caller gives is written over the environment, key by key; the keys of the environment come
first. Names of groups are lower-cased at the end, and there has to be one.
-/

namespace ModelQuery

/-- The settings. -/
structure Settings where
  /-- Addresses by group. -/
  groups : List (String × String)
  echo : Bool
deriving DecidableEq, Repr

/-- A setting before it is checked. -/
inductive Setting where
  | text (s : String)
  | table (entries : List (String × Setting))
  /-- Anything that is no part of valid settings. -/
  | other

namespace Setting

mutual

/-- A document as a setting. -/
def ofJson : Json → Setting
  | .text s => .text s
  | .object members => .table (Assoc.ofList (ofMembers members))
  | _ => .other

/-- The members of a document. -/
def ofMembers : List (String × Json) → List (String × Setting)
  | [] => []
  | (k, j) :: rest => (k, ofJson j) :: ofMembers rest

end

/-- A given value as a setting. Only texts can be keys. -/
def ofValue : Value → Setting
  | .text s | .declared s => .text s
  | .mapping entries =>
    let read := entries.map fun
      | (k, .text s) => (k.text?, Setting.text s)
      | (k, _) => (k.text?, Setting.other)
    if read.all fun e => e.1.isSome then
      .table (Assoc.ofList (read.filterMap fun e => e.1.map fun k => (k, e.2)))
    else .other
  | _ => .other

mutual

/-- A setting written over another: tables entry by entry, anything else as a whole. -/
def writtenOver (new : Setting) (old : Setting) : Setting :=
  match new, old with
  | .table new, .table old => .table (overAll new old)
  | new, _ => new

/-- Entries written over others. -/
def overAll : List (String × Setting) → List (String × Setting) → List (String × Setting)
  | [], old => old
  | (k, v) :: rest, old =>
    let v := match old.lookup k with
      | some w => writtenOver v w
      | none => v
    overAll rest (Assoc.put k v old)

end

/-- A setting put at the end of a path of keys; where a text stands in the way it is left out. -/
def insertAt (v : Setting) : List String → List (String × Setting) → List (String × Setting)
  | [], entries => entries
  | [key], entries => Assoc.put key v entries
  | key :: rest, entries =>
    match entries.lookup key with
    | none => Assoc.put key (.table (insertAt v rest [])) entries
    | some (.table inner) => Assoc.put key (.table (insertAt v rest inner)) entries
    | some _ => entries

end Setting

namespace Settings

/-! ## The environment -/

/-- The variables by their names in small letters. -/
def variablesOf (env : List (String × String)) : List (String × String) :=
  Assoc.ofList (env.map fun (name, s) => (Text.lower name, s))

/-- The variable that holds all groups. -/
def groupsVariable : String := "sqla_builder_groups"

/-- The variable that says whether statements are logged. -/
def echoVariable : String := "sqla_builder_echo"

/-- The mark between the parts of a variable's name. -/
def partMark : String := "__"

/-- The text cut at every part mark, from the left. -/
def cutParts : List Char → List (List Char)
  | '_' :: '_' :: rest => [] :: cutParts rest
  | c :: rest =>
    match cutParts rest with
    | part :: parts => (c :: part) :: parts
    | [] => [[c]]
  | [] => [[]]

/-- The parts of a variable's name behind that of the groups. -/
def partsOf (name : String) : List String := (cutParts name.toList).map String.ofList

/-- The groups that have a variable of their own. -/
def exploded (vars : List (String × String)) : List (String × Setting) :=
  vars.foldl (fun entries (name, s) =>
    match Text.afterStart? (groupsVariable ++ partMark) name with
    | some rest => Setting.insertAt (.text s) (partsOf rest) entries
    | none => entries) []

/-- The groups of the environment, if it has any. -/
def environmentGroups (vars : List (String × String)) : Except Error (Option Setting) :=
  let single := exploded vars
  match vars.lookup groupsVariable with
  | none => .ok (if single.isEmpty then none else some (.table single))
  | some s =>
    match Json.parse? s with
    | none => .error .malformedSettings
    | some .null => .ok none
    | some j => .ok (some (match Setting.ofJson j with
      | .table entries => .table (Setting.overAll single entries)
      | whole => whole))

/-! ## Checking -/

/-- The groups used where nothing is said. -/
def usualGroups : List (String × String) := [(defaultGroup, "sqlite://")]

/-- An entry of the groups, under its name in small letters. -/
def groupOf : String × Setting → Except Error (String × String)
  | (name, .text url) => .ok (Text.lower name, url)
  | _ => .error .invalidSettings

/-- Groups that validate. -/
def checkGroups : Setting → Except Error (List (String × String))
  | .table [] => .error .invalidSettings
  | .table entries => (entries.mapM groupOf).map Assoc.ofList
  | _ => .error .invalidSettings

/-- The words for yes and for no. -/
def wordsOf (b : Bool) : List String :=
  if b then ["1", "t", "y", "on", "yes", "true"] else ["0", "f", "n", "off", "no", "false"]

/-- A truth value, as it is or by a word or a number for it. -/
def checkBool (v : Value) : Except Error Bool :=
  match v with
  | .text s | .declared s =>
    let w := s.map Char.toLower
    if (wordsOf true).contains w then .ok true
    else if (wordsOf false).contains w then .ok false
    else .error .invalidSettings
  | .bool b => .ok b
  | .int _ | .float _ =>
    if v == .int 1 then .ok true else if v == .int 0 then .ok false else .error .invalidSettings
  | _ => .error .invalidSettings

/-- The settings of an environment and of what was given. -/
def read (env : List (String × String)) (groups echo : Option Value) : Except Error Settings := do
  let vars := variablesOf env
  let fromEnv ← environmentGroups vars
  let merged := match fromEnv, groups with
    | none, none => none
    | some e, none => some e
    | none, some g => some (Setting.ofValue g)
    | some e, some g => some ((Setting.ofValue g).writtenOver e)
  let groups ← match merged with
    | none => pure usualGroups
    | some s => checkGroups s
  let echo ← match echo, vars.lookup echoVariable with
    | some v, _ => checkBool v
    | none, some s => checkBool (.text s)
    | none, none => pure false
  return { groups, echo }

/-! ## Engines -/

/-- The names of the engines; each has an address that a database can be reached at. -/
def engines (s : Settings) : Except Error (List String) := do
  s.groups.forM fun (_, url) => do (← Address.ofText url).reach
  return Assoc.keys s.groups

/-- The address of a group, which must be known, as it is shown. -/
def address (s : Settings) (group : Value) : Except Error String := do
  let group ← group.asKey
  match group.text?.bind fun name => s.groups.lookup name with
  | some url => return (← Address.ofText url).shown
  | none => throw (.unknownGroup group.shown (Assoc.keys s.groups))

end Settings

end ModelQuery
