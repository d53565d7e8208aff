import ModelQuery.Decimal.Shortest
import ModelQuery.Sql.Function.Wording
import ModelQuery.Sql.Placeholder
import ModelQuery.Value.Basic

/-!
# Rendering tokens

The last step to text. Tokens are written from the left onto a `Page`, which also keeps what later
tokens depend on: the next number of every stem, the labels that were set aside, and the values that
were bound so far, by name.

A value is either written out or bound, as `Values` says. A bound value leaves a placeholder in the
text and goes to the parameters; two values of one name make the statement unrenderable.

Names of numbered labels and values have a longest length. A longer one is cut, and what is left is
told apart by the number of such names of its sort, in base sixteen.
-/

namespace ModelQuery.Sql

/-- What becomes of values. -/
inductive Values where
  /-- They are written into the text. -/
  | written
  /-- They are bound to placeholders. -/
  | bound
  /-- They are bound to late placeholders. -/
  | late
deriving DecidableEq, Repr

/-- A statement as text. -/
structure Rendered where
  text : String
  /-- The bound values under the names in their placeholders. -/
  params : List (String × Value)
  /-- Where placeholders are places: the name of the value at each. -/
  places : List String

/-- The values at the places in order. A place whose value is not there under its name has none. -/
def Rendered.placed (r : Rendered) : Except Error (List Value) :=
  r.places.mapM fun name =>
    match r.params.lookup name with
    | some v => .ok v
    | none => .error .unknownKey

/-- What has been written so far. -/
structure Page where
  text : String := ""
  counters : List (String × Nat) := []
  /-- How many names were cut, by their sort. -/
  cut : List (NumberedSort × Nat) := []
  /-- Labels set aside and not written yet, the last first. -/
  labels : List String := []
  /-- Labels that are written alike wherever they stand. -/
  shared : List (String × String) := []
  /-- Bound values by their names. -/
  params : List (String × Value) := []

namespace Page

/-- Text added at the end. -/
def write (s : String) (p : Page) : Page := { p with text := p.text ++ s }

/-! ## Numbered names -/

/-- A name, cut if it is too long for the dialect. -/
def fit (d : Dialect) (sort : NumberedSort) (name : String) (p : Page) : String × Page :=
  if name.length ≤ d.longestNumbered then (name, p)
  else
    let n := (p.cut.lookup sort).getD 0 + 1
    let kept := String.ofList (name.toList.take d.longestNumbered)
    (kept ++ "_" ++ String.ofList (Nat.toDigits 16 n), { p with cut := Assoc.put sort n p.cut })

/-- The next name of a stem. -/
def number (d : Dialect) (sort : NumberedSort) (stem : String) (p : Page) : String × Page :=
  let n := (p.counters.lookup stem).getD 0 + 1
  fit d sort (stem ++ "_" ++ toString n) { p with counters := Assoc.put stem n p.counters }

/-- A label, which may be one that was numbered before. -/
def label (d : Dialect) (stem : String) (shared : Option String) (p : Page) : String × Page :=
  match shared with
  | none => p.number d .label stem
  | some key =>
    match p.shared.lookup key with
    | some label => (label, p)
    | none =>
      let (label, p) := p.number d .label stem
      (label, { p with shared := p.shared ++ [(key, label)] })

end Page

/-! ## Values -/

/-- A value in the text of the statement; only single values have one. -/
def writtenValue (d : Dialect) : Value → Except Error String
  | .null => .ok "NULL"
  | .bool b => .ok (d.truth b)
  | .int n => .ok (toString n)
  | .float x => .ok (Decimal.floatText x)
  | .text s => .ok (d.textLiteral s)
  | _ => .error .unrenderable

namespace Page

/-- A value bound under a name that is still free. -/
def bind (d : Dialect) (late : Bool) (name : String) (v : Value) (p : Page) : Except Error Page :=
  if (p.params.lookup name).isSome then .error .unrenderable
  else
    let text := if late then latePlaceholder name else placeholder d name
    .ok { p.write text with params := p.params ++ [(name, v)] }

/-- A value bound under a name of its own or the next of a stem. -/
def bindAs (d : Dialect) (late : Bool) (name : BindName) (v : Value) (p : Page) :
    Except Error Page :=
  match name with
  | .exact n => p.bind d late n v
  | .numbered stem =>
    let (n, p) := p.number d .value stem
    p.bind d late n v

/-- A value, written out or bound. -/
def value (d : Dialect) (mode : Values) (name : BindName) (v : Value) (p : Page) :
    Except Error Page :=
  match mode with
  | .written => (writtenValue d v).map p.write
  | .bound => p.bindAs d false name v
  | .late => p.bindAs d true name v

/-- The set without items: its own words, or a list bound at the last moment. -/
def emptySet (d : Dialect) (mode : Values) (negated : Bool) (stem : String) (p : Page) :
    Except Error Page :=
  match mode with
  | .written => .ok (p.write (d.emptySet negated))
  | _ => do return (← (p.write "(").bindAs d true (.numbered stem) (.list [])).write ")"

/-- The value of a number that no clause gave. -/
def standIn (d : Dialect) (mode : Values) (n : Int) (p : Page) : Except Error Page :=
  p.value d mode (.numbered "param") (.int n)

/-! ## Tokens -/

mutual

/-- One token. -/
def token (d : Dialect) (mode : Values) (p : Page) : Token → Except Error Page
  | .word text => .ok (p.write text)
  | .verbatim text => .ok (p.write (d.escapePercent text))
  | .name text => .ok (p.write (d.name text))
  | .call function args =>
    match Function.fixedText? d function with
    | some text => .ok (p.write text)
    | none => do
      let mode := if Function.bindsArguments d function then .bound else mode
      let inner ← tokens d mode { p with text := "" } args
      let text ← Function.called d function (!args.isEmpty) ("(" ++ inner.text ++ ")")
      return { inner with text := p.text ++ text }
  | .part field time =>
    match Function.partWords? d field with
    | none => .error .unrenderable
    | some (before, behind) => do return (← tokens d mode (p.write before) time).write behind
  | .null => .ok (p.write "NULL")
  | .truth b => .ok (p.write (d.truth b))
  | .bind name v => p.value d mode name v
  | .bound ts => tokens d .bound p ts
  | .late ts => tokens d (if mode = .written then .written else .late) p ts
  | .always => .ok (p.write d.always)
  | .emptySet negated stem => p.emptySet d mode negated stem
  | .limits [] [] => .ok p
  | .limits limit offset => do
    let p ← tokens d mode (p.write (d.limitWord limit.isEmpty)) limit
    -- one dialect always writes both, and binds the number that stands for no limit
    let p ← if limit.isEmpty && d == .sqlite then p.standIn d .bound (-1) else pure p
    if offset.isEmpty then
      if d == .sqlite then (p.write " OFFSET ").standIn d mode 0 else return p
    else tokens d mode (p.write " OFFSET ") offset
  | .openLabel stem shared =>
    let (label, p) := p.label d stem shared
    .ok { p with labels := label :: p.labels }
  | .closeLabel =>
    match p.labels with
    | label :: rest => .ok { p.write (d.name label) with labels := rest }
    | [] => .ok p
  | .fault cause => .error cause

/-- Tokens from the left. -/
def tokens (d : Dialect) (mode : Values) (p : Page) : List Token → Except Error Page
  | [] => .ok p
  | t :: rest => do
    let p ← token d mode p t
    tokens d mode p rest

end

end Page

/-! ## The finished text -/

/-- Bound values under the names in their placeholders. -/
def namedParams (params : List (String × Value)) : List (String × Value) :=
  Assoc.ofList (params.map fun (name, v) => (placeholderName name, v))

/-- A page as it stands, its placeholders under their names. -/
def Page.named (p : Page) : Rendered := ⟨p.text, namedParams p.params, []⟩

/-- A page whose placeholders have become places. -/
def Page.placed (p : Page) : Except Error Rendered := do
  let names := p.params.map Prod.fst
  if collide names then throw .conflict
  let (text, places) := marked 0 p.text.toList
  let behind (name : String) : String := ((changedNames names).lookup name).getD name
  return ⟨String.ofList text, namedParams p.params, places.map behind⟩

/-- Tokens as text. -/
def render (d : Dialect) (mode : Values) (ts : List Token) : Except Error Rendered := do
  let p ← Page.tokens d mode {} ts
  match d with
  | .sqlite => p.placed
  | _ => return p.named

end ModelQuery.Sql
