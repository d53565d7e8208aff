import ModelQuery.Json.Basic

/-!
# Reading JSON

A reader for one JSON document, on the list of its characters. Every reading function takes the
characters still to read and answers with what it read and what is left; the depth of nesting is
bounded by the number of characters, which is the fuel. A number with a point or an exponent is
floating-point, any other is whole. The words `NaN`, `Infinity` and `-Infinity` are numbers too.
-/

namespace ModelQuery.Json

/-- The blanks of JSON. -/
def isSpace (c : Char) : Bool := c == ' ' || c == '\n' || c == '\r' || c == '\t'

/-- The characters from the first that is no blank. -/
def skipSpace (cs : List Char) : List Char := cs.dropWhile isSpace

/-- The characters after `word`, if they begin with it. -/
def expect? (word : String) (cs : List Char) : Option (List Char) :=
  if word.toList.isPrefixOf cs then some (cs.drop word.toList.length) else none

/-! ## Texts -/

/-- The value of a digit in base sixteen. -/
def hexValue? (c : Char) : Option Nat :=
  let n := c.toNat
  if 0x30 ≤ n ∧ n ≤ 0x39 then some (n - 0x30)
  else if 0x61 ≤ n ∧ n ≤ 0x66 then some (n - 0x61 + 10)
  else if 0x41 ≤ n ∧ n ≤ 0x46 then some (n - 0x41 + 10)
  else none

/-- Four digits in base sixteen. -/
def hexQuad? : List Char → Option (Nat × List Char)
  | a :: b :: c :: d :: rest => do
    let a ← hexValue? a
    let b ← hexValue? b
    let c ← hexValue? c
    let d ← hexValue? d
    return (((a * 16 + b) * 16 + c) * 16 + d, rest)
  | _ => none

/-- The character of one escape, after the backslash. -/
def escaped? : List Char → Option (Char × List Char)
  | 'u' :: cs => do
    let (n, rest) ← hexQuad? cs
    -- two halves of a pair make one character
    if 0xd800 ≤ n ∧ n < 0xdc00 then
      let rest ← expect? "\\u" rest
      let (m, rest) ← hexQuad? rest
      if 0xdc00 ≤ m ∧ m < 0xe000 then
        return (Char.ofNat (0x10000 + (n - 0xd800) * 0x400 + (m - 0xdc00)), rest)
      else none
    else return (Char.ofNat n, rest)
  | c :: cs =>
    match [('"', '"'), ('\\', '\\'), ('/', '/'), ('b', '\x08'), ('f', '\x0c'), ('n', '\n'),
        ('r', '\r'), ('t', '\t')].lookup c with
    | some e => some (e, cs)
    | none => none
  | [] => none

/-- The characters up to the closing quote, in front of them those read so far backwards. -/
def textBody : (fuel : Nat) → (acc cs : List Char) → Option (String × List Char)
  | 0, _, _ => none
  | _ + 1, _, [] => none
  | fuel + 1, acc, c :: cs =>
    if c = '"' then some (String.ofList acc.reverse, cs)
    else if c = '\\' then
      match escaped? cs with
      | some (e, rest) => textBody fuel (e :: acc) rest
      | none => none
    else if c.toNat < 0x20 then none
    else textBody fuel (c :: acc) cs

/-! ## Numbers -/

/-- The number written by digits, continuing `acc`. -/
def digitsValue (acc : Nat) (ds : List Char) : Nat :=
  ds.foldl (fun n c => n * 10 + (c.toNat - 0x30)) acc

/-- An exponent after its letter: its value and whether one stands there. -/
def exponentPart (cs : List Char) : Option (Int × List Char) :=
  let (negative, cs) := match cs with
    | '-' :: r => (true, r)
    | '+' :: r => (false, r)
    | r => (false, r)
  let ds := cs.takeWhile Char.isDigit
  if ds.isEmpty then none
  else
    let n : Int := (digitsValue 0 ds : Nat)
    some (if negative then -n else n, cs.dropWhile Char.isDigit)

/-- A floating-point number from its decimal digits. -/
def floatOf (negative : Bool) (digits : Nat) (exponent : Int) : Float :=
  let x := match exponent with
    | .ofNat k => Float.ofScientific digits false k
    | .negSucc k => Float.ofScientific digits true (k + 1)
  if negative then -x else x

/-- A number without its sign. -/
def number (negative : Bool) (cs : List Char) : Option (Json × List Char) :=
  let whole := cs.takeWhile Char.isDigit
  let rest := cs.dropWhile Char.isDigit
  if whole.isEmpty then none
  else if whole.length > 1 ∧ whole.head? = some '0' then none
  else
    let (part, rest, pointed) := match rest with
      | '.' :: r =>
        if (r.takeWhile Char.isDigit).isEmpty then ([], rest, false)
        else (r.takeWhile Char.isDigit, r.dropWhile Char.isDigit, true)
      | _ => ([], rest, false)
    let mantissa := digitsValue (digitsValue 0 whole) part
    let scaled := match rest with
      | c :: r => if c = 'e' ∨ c = 'E' then exponentPart r else none
      | [] => none
    match scaled with
    | some (e, rest) => some (.float (floatOf negative mantissa (e - part.length)), rest)
    | none =>
      if pointed then some (.float (floatOf negative mantissa (-(part.length : Int))), rest)
      else
        let n : Int := (mantissa : Nat)
        some (.int (if negative then -n else n), rest)

/-- The number that is no number. -/
def notANumber : Float := 0.0 / 0.0

/-- The number beyond all others. -/
def infinite : Float := 1.0 / 0.0

/-- What follows a minus sign. -/
def negated (cs : List Char) : Option (Json × List Char) :=
  match expect? "Infinity" cs with
  | some rest => some (.float (-infinite), rest)
  | none => number true cs

/-! ## Values -/

mutual

/-- One value, blanks before it skipped. -/
def value : (fuel : Nat) → List Char → Option (Json × List Char)
  | 0, _ => none
  | fuel + 1, cs =>
    match skipSpace cs with
    | '"' :: r => (textBody (r.length + 1) [] r).map fun (s, rest) => (.text s, rest)
    | '[' :: r =>
      match skipSpace r with
      | ']' :: rest => some (.array [], rest)
      | r => (items fuel r).map fun (js, rest) => (.array js, rest)
    | '\x7b' :: r =>
      match skipSpace r with
      | '\x7d' :: rest => some (.object [], rest)
      | r => (members fuel r).map fun (ms, rest) => (.object ms, rest)
    | '-' :: r => negated r
    | 'N' :: r => (expect? "aN" r).map fun rest => (.float notANumber, rest)
    | 'I' :: r => (expect? "nfinity" r).map fun rest => (.float infinite, rest)
    | 't' :: r => (expect? "rue" r).map fun rest => (.bool true, rest)
    | 'f' :: r => (expect? "alse" r).map fun rest => (.bool false, rest)
    | 'n' :: r => (expect? "ull" r).map fun rest => (.null, rest)
    | r => number false r

/-- The items of an array up to its closing bracket. -/
def items : (fuel : Nat) → List Char → Option (List Json × List Char)
  | 0, _ => none
  | fuel + 1, cs => do
    let (j, rest) ← value fuel cs
    match skipSpace rest with
    | ',' :: rest =>
      let (js, rest) ← items fuel rest
      return (j :: js, rest)
    | ']' :: rest => return ([j], rest)
    | _ => none

/-- The members of an object up to its closing brace. -/
def members : (fuel : Nat) → List Char → Option (List (String × Json) × List Char)
  | 0, _ => none
  | fuel + 1, cs =>
    match skipSpace cs with
    | '"' :: r => do
      let (k, rest) ← textBody (r.length + 1) [] r
      match skipSpace rest with
      | ':' :: rest =>
        let (j, rest) ← value fuel rest
        match skipSpace rest with
        | ',' :: rest =>
          let (ms, rest) ← members fuel rest
          return ((k, j) :: ms, rest)
        | '\x7d' :: rest => return ([(k, j)], rest)
        | _ => none
      | _ => none
    | _ => none

end

/-- The document a text holds. -/
def parse? (s : String) : Option Json :=
  let cs := s.toList
  match value (2 * cs.length + 2) cs with
  | some (j, rest) => if (skipSpace rest).isEmpty then some j else none
  | none => none

end ModelQuery.Json
