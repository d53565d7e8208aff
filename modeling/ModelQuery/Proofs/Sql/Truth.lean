import ModelQuery.Proofs.Outcome
import ModelQuery.Sql.Compile.Tests

/-!
# What conditions mean

A comparison of SQL holds, fails, or is unknown because something it looks at is null.  A list of
conditions is read from the left: the first that says anything, joined by its own connective with
each further one that says anything.  `meaningAll` is that reading, for any truth values of the
tests, which are told apart by their places from the left.

The formula that the compiler builds has the same value at the same places
(`ofConditions_value`), its tests are the read leaves in order, and it is there exactly when there
is a leaf.
-/

namespace ModelQuery.Sql

/-! ## Truth values -/

/-- What a comparison comes to for a row. -/
inductive Truth where
  | holds
  | fails
  | unknown
deriving DecidableEq, Repr

namespace Truth

/-- Both hold; one that fails settles it. -/
def and : Truth → Truth → Truth
  | .fails, _ => .fails
  | _, .fails => .fails
  | .holds, .holds => .holds
  | _, _ => .unknown

/-- One of them holds; one that holds settles it. -/
def or : Truth → Truth → Truth
  | .holds, _ => .holds
  | _, .holds => .holds
  | .fails, .fails => .fails
  | _, _ => .unknown

/-- Two values joined by a connective. -/
def joined : Logic → Truth → Truth → Truth
  | .and => and
  | .or => or

theorem and_assoc (a b c : Truth) : (a.and b).and c = a.and (b.and c) := by
  cases a <;> cases b <;> cases c <;> rfl

theorem or_assoc (a b c : Truth) : (a.or b).or c = a.or (b.or c) := by
  cases a <;> cases b <;> cases c <;> rfl

end Truth

end ModelQuery.Sql

/-! ## Conditions -/

namespace ModelQuery.Condition

open ModelQuery.Sql

mutual

/-- The tests of a condition from the left: column, operator and value of each. -/
def leaves : Condition → List (Value × Value × Value)
  | .test _ column op value => [(column, op, value)]
  | .group _ children => leavesAll children

/-- The tests of all conditions from the left. -/
def leavesAll : List Condition → List (Value × Value × Value)
  | [] => []
  | c :: rest => c.leaves ++ leavesAll rest

end

/-- The value of a group whose children say these things by these connectives: that of the first,
joined with each further one. -/
def combine : List (Logic × Truth) → Option Truth
  | [] => none
  | (_, first) :: rest => some (rest.foldl (fun t child => Truth.joined child.1 t child.2) first)

mutual

/-- What a condition says when the test at place `i` has the value `v i` and its own first test is
the one at place `n`; a group without tests says nothing. -/
def meaning (v : Nat → Truth) (n : Nat) : Condition → Option Truth
  | .test _ _ _ _ => some (v n)
  | .group _ children => combine (saidBy v n children)

/-- What those conditions say that say anything, each with its connective. -/
def saidBy (v : Nat → Truth) (n : Nat) : List Condition → List (Logic × Truth)
  | [] => []
  | c :: rest =>
    ((meaning v n c).map fun t => (c.logic, t)).toList ++ saidBy v (n + c.leaves.length) rest

end

/-- What a list of conditions says, none if it holds no test. -/
def meaningAll (v : Nat → Truth) (cs : List Condition) : Option Truth := combine (saidBy v 0 cs)

end ModelQuery.Condition

namespace ModelQuery.Sql.Formula

open ModelQuery.Condition ModelQuery.Outcome

variable {α β : Type}

/-! ## Formulas -/

/-- What a formula says when the test at place `i` has the value `v i` and its own first test is
the one at place `n`. -/
def value (v : Nat → Truth) : Nat → Formula α → Truth
  | n, .test _ => v n
  | n, .and l r => (value v n l).and (value v (n + l.tests.length) r)
  | n, .or l r => (value v n l).or (value v (n + l.tests.length) r)

/-- The tests of a formula that may be absent. -/
def testsOf : Option (Formula α) → List α
  | none => []
  | some f => f.tests

/-- What a formula says that may be absent. -/
def value? (v : Nat → Truth) (n : Nat) (f : Option (Formula α)) : Option Truth :=
  f.map (value v n)

/-- Every formula has a test. -/
theorem tests_ne_nil (f : Formula α) : f.tests ≠ [] := by
  induction f with
  | test t => exact List.cons_ne_nil t []
  | and l r ihl _ => exact fun h => ihl (List.append_eq_nil_iff.mp h).1
  | or l r ihl _ => exact fun h => ihl (List.append_eq_nil_iff.mp h).1

/-- There is no test just if there is no formula. -/
theorem testsOf_eq_nil_iff {f : Option (Formula α)} : testsOf f = [] ↔ f = none := by
  cases f with
  | none => exact ⟨fun _ => rfl, fun _ => rfl⟩
  | some f => exact ⟨fun h => absurd h (tests_ne_nil f), fun h => nomatch h⟩

theorem tests_map (f : α → β) (g : Formula α) : (g.map f).tests = g.tests.map f := by
  induction g with
  | test t => rfl
  | and l r ihl ihr => simp only [map, tests, ihl, ihr, List.map_append]
  | or l r ihl ihr => simp only [map, tests, ihl, ihr, List.map_append]

/-- Other tests at the same places say the same. -/
theorem value_map (f : α → β) (g : Formula α) (v : Nat → Truth) (n : Nat) :
    (g.map f).value v n = g.value v n := by
  induction g generalizing n with
  | test t => rfl
  | and l r ihl ihr => simp only [map, value, ihl, ihr, tests_map, List.length_map]
  | or l r ihl ihr => simp only [map, value, ihl, ihr, tests_map, List.length_map]

/-! ## Joining -/

/-- A joined formula has the tests of both, in order. -/
theorem testsOf_join (logic : Logic) (e f : Option (Formula α)) :
    testsOf (join logic e f) = testsOf e ++ testsOf f := by
  cases e with
  | none => cases f <;> rfl
  | some e =>
      cases f with
      | none => exact (List.append_nil _).symm
      | some f => cases logic <;> rfl

/-- What has been said so far, joined with what one more thing says. -/
theorem value?_join (logic : Logic) (e f : Option (Formula α)) (v : Nat → Truth) (n : Nat) :
    value? v n (join logic e f) =
      combine (((value? v n e).map fun t => (logic, t)).toList ++
        ((value? v (n + (testsOf e).length) f).map fun t => (logic, t)).toList) := by
  cases e with
  | none => cases f <;> rfl
  | some e =>
      cases f with
      | none => rfl
      | some f => cases logic <;> rfl

/-! ## From conditions -/

/-- What is combined first can be taken for one thing. -/
theorem combine_append (logic : Logic) (xs ys : List (Logic × Truth)) :
    combine (((combine xs).map fun t => (logic, t)).toList ++ ys) = combine (xs ++ ys) := by
  cases xs with
  | nil => rfl
  | cons x rest =>
      obtain ⟨l, t⟩ := x
      exact congrArg some List.foldl_append.symm

/-- What `read` makes of a leaf. -/
def readLeaf (read : Value → Value → Value → Except Error α) (leaf : Value × Value × Value) :
    Except Error α :=
  read leaf.1 leaf.2.1 leaf.2.2

variable {read : Value → Value → Value → Except Error α}

mutual

/-- A condition that was read: its tests are its leaves, and it says the same. -/
theorem ofCondition_spec (v : Nat → Truth) (n : Nat) (c : Condition) {f : Option (Formula α)}
    (h : ofCondition read c = .ok f) :
    c.leaves.mapM (readLeaf read) = .ok (testsOf f) ∧ value? v n f = meaning v n c := by
  cases c with
  | test logic column op value =>
      rw [ofCondition] at h
      obtain ⟨t, ht, rfl⟩ := map_eq_ok h
      refine ⟨?_, rfl⟩
      rw [leaves, List.mapM_cons, List.mapM_nil, readLeaf, ht]
      rfl
  | group logic children =>
      rw [ofCondition] at h
      obtain ⟨ts, hts, htests, hvalue⟩ := ofConditionsAfter_spec v n children h
      refine ⟨?_, hvalue⟩
      rw [leaves, hts, htests]
      rfl

/-- Conditions that were read after others: their leaves are the further tests, and what they say
comes after what was said. -/
theorem ofConditionsAfter_spec (v : Nat → Truth) (n : Nat) (cs : List Condition)
    {sofar f : Option (Formula α)} (h : ofConditionsAfter read sofar cs = .ok f) :
    ∃ ts, (leavesAll cs).mapM (readLeaf read) = .ok ts ∧ testsOf f = testsOf sofar ++ ts ∧
      value? v n f = combine (((value? v n sofar).map fun t => (Logic.and, t)).toList ++
        saidBy v (n + (testsOf sofar).length) cs) := by
  cases cs with
  | nil =>
      rw [ofConditionsAfter] at h
      cases h
      refine ⟨[], rfl, (List.append_nil _).symm, ?_⟩
      rw [saidBy, List.append_nil]
      cases value? v n sofar <;> rfl
  | cons c rest =>
      rw [ofConditionsAfter] at h
      obtain ⟨e, he, h⟩ := bind_eq_ok h
      -- the leaves of the first condition come behind the tests so far
      obtain ⟨hleaves, hsaid⟩ := ofCondition_spec v (n + (testsOf sofar).length) c he
      obtain ⟨ts, hts, htests, hvalue⟩ := ofConditionsAfter_spec v n rest h
      refine ⟨testsOf e ++ ts, ?_, ?_, ?_⟩
      · rw [leavesAll]
        exact mapM_append hleaves hts
      · rw [htests, testsOf_join, List.append_assoc]
      · rw [hvalue, value?_join, combine_append, testsOf_join, hsaid, saidBy,
          List.append_assoc, List.length_append, length_of_mapM hleaves, Nat.add_assoc]
        -- the connective of what came first is never looked at
        cases value? v n sofar <;> rfl

end

/-- A formula is made of conditions exactly when each of their leaves can be read.  Its tests are
the read leaves in order, and it says what the conditions say. -/
theorem ofConditions_value (v : Nat → Truth) (cs : List Condition) {f : Option (Formula α)}
    (h : ofConditions read cs = .ok f) :
    (leavesAll cs).mapM (readLeaf read) = .ok (testsOf f) ∧ value? v 0 f = meaningAll v cs := by
  obtain ⟨ts, hts, htests, hvalue⟩ := ofConditionsAfter_spec v 0 cs h
  refine ⟨?_, hvalue⟩
  rw [hts, htests]
  rfl

mutual

/-- A condition whose tests can be read can be read. -/
theorem ofCondition_isOk (c : Condition) {ts : List α}
    (h : c.leaves.mapM (readLeaf read) = .ok ts) : ∃ f, ofCondition read c = .ok f := by
  cases c with
  | test logic column op value =>
      rw [leaves, List.mapM_cons] at h
      obtain ⟨t, ht, -⟩ := bind_eq_ok h
      change read column op value = .ok t at ht
      exact ⟨some (.test t), by rw [ofCondition, ht]; rfl⟩
  | group logic children =>
      rw [ofCondition]
      exact ofConditionsAfter_isOk children none h

/-- Conditions one after the other can be read if their tests can. -/
theorem ofConditionsAfter_isOk (cs : List Condition) (sofar : Option (Formula α)) {ts : List α}
    (h : (leavesAll cs).mapM (readLeaf read) = .ok ts) :
    ∃ f, ofConditionsAfter read sofar cs = .ok f := by
  cases cs with
  | nil => exact ⟨sofar, rfl⟩
  | cons c rest =>
      obtain ⟨⟨us, hus⟩, ws, hws⟩ := of_mapM_append h
      obtain ⟨f, hf⟩ := ofCondition_isOk c hus
      rw [ofConditionsAfter, hf]
      exact ofConditionsAfter_isOk rest _ hws

end

/-- Only a leaf that cannot be read keeps conditions from becoming a formula. -/
theorem ofConditions_isOk {cs : List Condition} {ts : List α}
    (h : (leavesAll cs).mapM (readLeaf read) = .ok ts) : ∃ f, ofConditions read cs = .ok f :=
  ofConditionsAfter_isOk cs none h

end ModelQuery.Sql.Formula
