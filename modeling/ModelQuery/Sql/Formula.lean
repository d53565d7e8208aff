import ModelQuery.Query.Conditions

/-!
# Formulas

A condition of a statement is a formula: tests joined by AND and OR. `Formula` knows nothing about
the tests. Its wording writes an OR below an AND in parentheses and nothing else, which is enough
because AND binds tighter than OR.

`ofConditions` turns a list of conditions into a formula: the first that says anything, then each
further one joined by its own connective. A group without tests says nothing.
-/

namespace ModelQuery.Sql

/-- Tests joined by AND and OR. -/
inductive Formula (α : Type) where
  | test (t : α)
  | and (left right : Formula α)
  | or (left right : Formula α)
deriving DecidableEq, Repr

namespace Formula

variable {α β : Type}

/-- The tests from the left. -/
def tests : Formula α → List α
  | .test t => [t]
  | .and l r => l.tests ++ r.tests
  | .or l r => l.tests ++ r.tests

/-- The formula with its tests replaced. -/
def map (f : α → β) : Formula α → Formula β
  | .test t => .test (f t)
  | .and l r => .and (l.map f) (r.map f)
  | .or l r => .or (l.map f) (r.map f)

/-- All of the given formulas, if there is any. -/
def all? : List (Formula α) → Option (Formula α)
  | [] => none
  | f :: rest => some (rest.foldl .and f)

/-! ## From conditions -/

/-- What has been said so far, joined with one more thing that may say nothing. -/
def join (logic : Logic) : Option (Formula α) → Option (Formula α) → Option (Formula α)
  | sofar, none => sofar
  | none, some f => some f
  | some e, some f =>
    match logic with
    | .and => some (.and e f)
    | .or => some (.or e f)

mutual

/-- One condition as a formula; `read` makes a test of its three parts. -/
def ofCondition (read : Value → Value → Value → Except Error α) :
    Condition → Except Error (Option (Formula α))
  | .test _ column op value => (read column op value).map fun t => some (.test t)
  | .group _ children => ofConditionsAfter read none children

/-- Conditions from the left, after what has been said so far. -/
def ofConditionsAfter (read : Value → Value → Value → Except Error α)
    (sofar : Option (Formula α)) : List Condition → Except Error (Option (Formula α))
  | [] => .ok sofar
  | c :: rest => do
    let f ← ofCondition read c
    ofConditionsAfter read (join c.logic sofar f) rest

end

/-- A list of conditions as a formula; `none` if it holds no test. -/
def ofConditions (read : Value → Value → Value → Except Error α) (cs : List Condition) :
    Except Error (Option (Formula α)) :=
  ofConditionsAfter read none cs

/-! ## Wording -/

/-- Tokens in parentheses. -/
def parenthesized (ts : List Token) : List Token := [.word "("] ++ ts ++ [.word ")"]

/-- The tokens of an operand of AND, of which only an OR needs parentheses. -/
def conjunct : Formula α → List Token → List Token
  | .or _ _, ts => parenthesized ts
  | _, ts => ts

/-- The tokens of a formula. `word` writes a test, told whether it stands alone. -/
def tokens (word : (alone : Bool) → α → List Token) : (alone : Bool) → Formula α → List Token
  | alone, .test t => word alone t
  | _, .and l r =>
    conjunct l (tokens word false l) ++ [.word " AND "] ++ conjunct r (tokens word false r)
  | _, .or l r => tokens word false l ++ [.word " OR "] ++ tokens word false r

end Formula

end ModelQuery.Sql
