import Mathlib.Data.List.Flatten
import ModelQuery.Proofs.Sql.Filters
import ModelQuery.Proofs.Sql.Scalars

/-!
# What is compared, in words

A test compares with scalars that a condition gives: with the value itself, or with items of it where
the operator asks for several (`Compares`).  In the words of the test each of them is a placeholder,
in the order in which they are given (`places_of_compare`).

A condition that is read has a test for each one that is given (`Means`).  So its words have
placeholders for what is compared with, test by test (`places_of_means`) and one after the other
(`placed_of_tests`).
-/

namespace ModelQuery.Sql

open Outcome

/-! ## Scalars of conditions -/

/-- Scalars that a condition's value compares with, in order: the value itself, or items of it where
several are asked for. -/
inductive Compares (op : Value) : Value → List Value → Prop where
  | nothing (v : Value) : Compares op v []
  | single {v : Value} (hop : ¬ asksSeveral op) (hv : v.isScalar = true) : Compares op v [v]
  | items {v : Value} {vs ws : List Value} (hop : asksSeveral op) (hv : v.Holds vs)
      (hws : ws.Sublist vs) (hscalar : ∀ w ∈ ws, w.isScalar = true) : Compares op v ws

/-- Scalars that conditions compare with, test by test. -/
def ComparesEach (cs : List Condition) (wss : List (List Value)) : Prop :=
  List.Forall₂ (fun leaf ws => Compares leaf.2.1 leaf.2.2 ws) (Condition.leavesAll cs) wss

/-- Placeholders for values, with names that are generated. -/
def placeholders (ws : List Value) : List Token := ws.map (.bind (.numbered valueStem))

/-- The words of a test have placeholders for these values in this order, wherever it stands. -/
def Comparison.Places (ws : List Value) (t : Comparison) : Prop :=
  ∀ alone, (placeholders ws).Sublist (t.tokens alone)

/-! ## The words of a test -/

/-- Separators stand between groups and take nothing away. -/
theorem flatten_sublist_separated (sep : String) (groups : List (List Token)) :
    groups.flatten.Sublist (separated sep groups) := by
  induction groups with
  | nil => exact .slnil
  | cons ts rest ih =>
      cases rest with
      | nil =>
          rw [List.flatten_cons, List.flatten_nil, List.append_nil]
          exact .refl ts
      | cons next others => exact (List.sublist_append_left ts _).append ih

/-- Scalar items are literals among the operands, in the same order. -/
theorem literals_sublist {vs ws : List Value} {es : List Expr}
    (h : (vs.mapM valueOf >>= fun items => items.mapM operandOf) = .ok es)
    (hws : ws.Sublist vs) (hscalar : ∀ w ∈ ws, w.isScalar = true) :
    (ws.map Expr.literal).Sublist es := by
  obtain ⟨items, hitems, hes⟩ := bind_eq_ok h
  replace hitems := forall₂_of_mapM hitems
  replace hes := forall₂_of_mapM hes
  clear h
  induction hws generalizing items es with
  | slnil => exact List.nil_sublist es
  | cons v _ ih =>
      cases hitems with
      | cons _ hitems =>
          cases hes with
          | cons _ hes => exact .cons _ (ih hscalar _ hitems hes)
  | cons_cons w _ ih =>
      cases hitems with
      | cons hvalue hitems =>
          cases hes with
          | cons hoperand hes =>
              have hw := hscalar w List.mem_cons_self
              cases (valueOf_scalar hw).symm.trans hvalue
              cases (operandOf_scalar hw).symm.trans hoperand
              have hrest := fun w' hw' => hscalar w' (List.mem_cons_of_mem w hw')
              exact .cons_cons _ (ih hrest _ hitems hes)

/-- Literals among operands are placeholders among their words. -/
theorem placeholders_sublist {ws : List Value} {es : List Expr}
    (h : (ws.map Expr.literal).Sublist es) : (placeholders ws).Sublist (es.flatMap operandTokens) := by
  have hwords := h.flatMap operandTokens
  rw [List.flatMap_map] at hwords
  rw [placeholders, List.map_eq_flatMap]
  exact hwords

/-- The words of a set have those of its items. -/
theorem sublist_setTokens (negated : Bool) (x : Expr) (items : List Expr) :
    (items.flatMap operandTokens).Sublist (Comparison.setTokens negated x items) := by
  cases items with
  | nil => exact List.nil_sublist _
  | cons first rest =>
      refine .trans ?_ ((List.sublist_append_right _ _).trans (List.sublist_append_left _ _))
      exact flatten_sublist_separated ", " _

/-- The words of a membership have those of its set. -/
theorem sublist_membership (negated : Bool) (x : Expr) (set : List Token) :
    set.Sublist (Comparison.membership negated x set) := by
  cases negated with
  | false => exact List.sublist_append_right _ _
  | true =>
      exact (List.sublist_append_right _ _).trans
        ((List.sublist_append_right _ _).trans (List.sublist_append_left _ _))

/-- A membership has placeholders for the scalars among its items. -/
theorem places_of_member {negated : Bool} {x : Expr} {v : Value} {vs ws : List Value}
    (hv : v.Holds vs) {t : Comparison} (ht : memberOf negated x v = .ok t) (hws : ws.Sublist vs)
    (hscalar : ∀ w ∈ ws, w.isScalar = true) : t.Places ws := by
  rw [memberOf_items negated x hv] at ht
  obtain ⟨items, hitems, ht⟩ := bind_eq_ok ht
  cases ht
  intro alone
  have hset := (placeholders_sublist (literals_sublist hitems hws hscalar)).trans
    (sublist_setTokens negated x items)
  exact hset.trans (sublist_membership negated x _)

/-- A test between bounds has placeholders for them, the lower one first. -/
theorem places_of_between {x : Expr} {v : Value} {vs ws : List Value} (hv : v.Holds vs)
    {t : Comparison} (ht : betweenOf x v = .ok t) (hws : ws.Sublist vs)
    (hscalar : ∀ w ∈ ws, w.isScalar = true) : t.Places ws := by
  rw [betweenOf, Value.pair, hv.items_eq] at ht
  obtain ⟨⟨low, high⟩, hpair, ht⟩ := bind_eq_ok ht
  obtain ⟨low', hlow, ht⟩ := bind_eq_ok ht
  obtain ⟨high', hhigh, ht⟩ := bind_eq_ok ht
  obtain ⟨e, he, ht⟩ := bind_eq_ok ht
  obtain ⟨e', he', ht⟩ := bind_eq_ok ht
  cases ht
  have hbounds : vs = [low, high] := by
    rcases vs with _ | ⟨a, _ | ⟨b, _ | ⟨c, rest⟩⟩⟩
    · cases hpair
    · cases hpair
    · cases hpair
      rfl
    · cases hpair
  subst hbounds
  -- the bounds are read as items are
  have hitems : ([low, high].mapM valueOf >>= fun items => items.mapM operandOf) = .ok [e, e'] := by
    simp only [List.mapM_cons, List.mapM_nil, hlow, hhigh]
    show ([low', high'].mapM operandOf : Except Error (List Expr)) = _
    simp only [List.mapM_cons, List.mapM_nil, he, he']
    rfl
  intro alone
  have hplaced := placeholders_sublist (literals_sublist hitems hws hscalar)
  rw [List.flatMap_cons, List.flatMap_cons, List.flatMap_nil, List.append_nil] at hplaced
  exact hplaced.trans
    (((List.sublist_append_right _ _).trans (List.sublist_append_left _ _)).append (.refl _))

/-- **WHAT A TEST COMPARES WITH** are placeholders in its words, in order. -/
theorem places_of_compare {x op v : Value} {ws : List Value} (h : Compares op v ws)
    {t : Comparison} (ht : compare x op v = .ok t) : t.Places ws := by
  cases h with
  | nothing => exact fun alone => List.nil_sublist _
  | single hop hv =>
      exact fun alone => List.singleton_sublist.mpr ((compare_uniform hop x).written hv ht alone)
  | items hop hv hws hscalar =>
      obtain ⟨word, hword, hread⟩ := hop
      rcases compare_of_word hread x with ⟨e, heq⟩ | heq
      · rw [heq] at ht
        simp only [severalWords, List.mem_cons, List.not_mem_nil, or_false] at hword
        rcases hword with rfl | rfl | rfl
        · exact places_of_member hv ht hws hscalar
        · exact places_of_member hv ht hws hscalar
        · exact places_of_between hv ht hws hscalar
      · rw [heq, comparePlain_several hword] at ht
        obtain ⟨_, -, ht⟩ := bind_eq_ok ht
        cases ht

/-! ## The words of a condition -/

/-- What conditions compare with, the tests of the condition that they become place, one by one. -/
theorem places_of_means {c : Catalog} {cs : List Condition} {filter : Option Filter}
    (h : Means c cs filter) {wss : List (List Value)} (hwss : ComparesEach cs wss) :
    List.Forall₂ Comparison.Places wss (Formula.testsOf filter) := by
  have htests := forall₂_of_mapM h.tests
  rw [ComparesEach] at hwss
  generalize Condition.leavesAll cs = leaves, Formula.testsOf filter = tests at htests hwss ⊢
  induction hwss generalizing tests with
  | nil =>
      cases htests
      exact .nil
  | cons hws _ ih =>
      cases htests with
      | cons htest htests =>
          obtain ⟨x, -, hcompare⟩ := bind_eq_ok htest
          exact .cons (places_of_compare hws hcompare) (ih _ htests)

/-- An operand of AND has the words that it has by itself. -/
theorem sublist_conjunct {f : Filter} {ts us : List Token} (h : ts.Sublist us) :
    ts.Sublist (f.conjunct us) := by
  cases f with
  | or =>
      exact h.trans ((List.sublist_append_right _ _).trans (List.sublist_append_left _ _))
  | _ => exact h

/-- What the tests place, their condition places, test behind test. -/
theorem placed_of_tests {f : Filter} {wss : List (List Value)}
    (h : List.Forall₂ Comparison.Places wss f.tests) (alone : Bool) :
    (placeholders wss.flatten).Sublist (f.tokens Comparison.tokens alone) := by
  induction f generalizing wss alone with
  | test t =>
      obtain ⟨ws, rest, hws, hrest, rfl⟩ := List.forall₂_cons_right_iff.mp h
      cases hrest
      rw [List.flatten_cons, List.flatten_nil, List.append_nil]
      exact hws alone
  | and l r ihl ihr =>
      rw [← List.take_append_drop l.tests.length wss, List.flatten_append, placeholders,
        List.map_append]
      have hl := sublist_conjunct (f := l) (ihl (List.forall₂_take_append _ _ _ h) false)
      have hr := sublist_conjunct (f := r) (ihr (List.forall₂_drop_append _ _ _ h) false)
      exact (hl.trans (List.sublist_append_left _ _)).append hr
  | or l r ihl ihr =>
      rw [← List.take_append_drop l.tests.length wss, List.flatten_append, placeholders,
        List.map_append]
      have hl := ihl (List.forall₂_take_append _ _ _ h) false
      have hr := ihr (List.forall₂_drop_append _ _ _ h) false
      exact (hl.trans (List.sublist_append_left _ _)).append hr

end ModelQuery.Sql
