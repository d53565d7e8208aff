import ModelQuery.Value.Basic

/-!
# Condition trees

A WHERE or HAVING clause is a list of conditions; each is a test or a group of conditions, and each
says by its own `Logic` how it joins what stands before it.

While a clause is being written, some groups may still be open. `OpenConditions` keeps the innermost
open group and the groups around it, innermost first, each with the conditions it had when the next
one was opened. `close?` puts the innermost group in its place, `conditions` closes everything.
-/

namespace ModelQuery

/-- How a condition joins what stands before it. -/
inductive Logic where
  | and
  | or
deriving DecidableEq, Repr

/-- The word of a connective. -/
def Logic.word : Logic → String
  | .and => "AND"
  | .or => "OR"

/-- One condition: a test of a column, or a group. -/
inductive Condition where
  | test (logic : Logic) (column op value : Value)
  | group (logic : Logic) (children : List Condition)

namespace Condition

/-- How the condition joins what stands before it. -/
def logic : Condition → Logic
  | .test l _ _ _ => l
  | .group l _ => l

mutual

/-- The tested columns, from the left. -/
def columns : Condition → List Value
  | .test _ column _ _ => [column]
  | .group _ children => columnsAll children

/-- The tested columns of all conditions, from the left. -/
def columnsAll : List Condition → List Value
  | [] => []
  | c :: rest => c.columns ++ columnsAll rest

end

@[simp] theorem columnsAll_append (cs ds : List Condition) :
    columnsAll (cs ++ ds) = columnsAll cs ++ columnsAll ds := by
  induction cs with
  | nil => rfl
  | cons c rest ih => simp [columnsAll, ih]

end Condition

/-! ## Clauses in the making -/

/-- A group that is being written: its connective and its conditions so far. -/
structure OpenGroup where
  logic : Logic
  children : List Condition

/-- A clause in the making. -/
structure OpenConditions where
  /-- The innermost open group, or the clause itself. -/
  current : OpenGroup
  /-- What is open around it, innermost first. -/
  enclosing : List OpenGroup

namespace OpenConditions

/-- The clause without conditions. -/
def empty : OpenConditions := ⟨⟨.and, []⟩, []⟩

/-- A condition added to the innermost open group. -/
def push (c : Condition) (o : OpenConditions) : OpenConditions :=
  { o with current := { o.current with children := o.current.children ++ [c] } }

/-- A new group opened inside the innermost one. -/
def openGroup (logic : Logic) (o : OpenConditions) : OpenConditions :=
  ⟨⟨logic, []⟩, o.current :: o.enclosing⟩

/-- A finished group put at the end of the group around it. -/
def place (inner outer : OpenGroup) : OpenGroup :=
  { outer with children := outer.children ++ [.group inner.logic inner.children] }

/-- The innermost group closed; nothing can be closed when no group is open. -/
def close? (o : OpenConditions) : Option OpenConditions :=
  match o.enclosing with
  | [] => none
  | outer :: rest => some ⟨place o.current outer, rest⟩

/-- The conditions of the clause, every group closed. -/
def conditions (o : OpenConditions) : List Condition :=
  (o.enclosing.foldl place o.current).children

@[simp] theorem conditions_empty : empty.conditions = [] := rfl

/-- Opening a group shows at once, as a group without conditions. -/
@[simp] theorem conditions_openGroup_empty (logic : Logic) :
    (empty.openGroup logic).conditions = [.group logic []] := rfl

end OpenConditions

end ModelQuery
