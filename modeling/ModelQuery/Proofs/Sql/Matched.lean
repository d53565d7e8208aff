import ModelQuery.Proofs.Outcome
import ModelQuery.Proofs.Sql.References
import ModelQuery.Sql.Text

/-!
# Queries that differ in values

Two queries may say the same but for single values: those their conditions compare with, those they
assign and those they insert.  A relation between values tells which may stand for which.  So may
two statements.

Every part of a statement has its own notion of being matched.  All of them are over any relation
`R`, so a value of one statement is never matched with anything but itself and what `R` puts in its
place.
-/

namespace ModelQuery

/-! ## Values and conditions -/

/-- A single value that is not null: a truth value, a number or a text. -/
def Value.isScalar : Value → Bool
  | .bool _ | .int _ | .float _ | .text _ | .declared _ => true
  | _ => false

/-- The value is a list or a tuple of so many items. -/
def Value.Holds (v : Value) (vs : List Value) : Prop := v = .list vs ∨ v = .tuple vs

theorem Value.Holds.items_eq {v : Value} {vs : List Value} (h : v.Holds vs) : v.items = .ok vs := by
  rcases h with rfl | rfl
  · rfl
  · rfl

/-- A relation of scalars only. -/
def OfScalars (R : Value → Value → Prop) : Prop :=
  ∀ v v', R v v' → v.isScalar = true ∧ v'.isScalar = true

/-- The operators that ask for several values. -/
def severalWords : List String := ["IN", "NOT IN", "BETWEEN"]

/-- The operator asks for several values. -/
def asksSeveral (op : Value) : Prop :=
  ∃ word ∈ severalWords, Sql.operatorText op = .ok word

section Matched

variable (R : Value → Value → Prop)

/-- A value and what stands in its place. -/
def Value.Matched (v v' : Value) : Prop := v = v' ∨ R v v'

inductive Expr.Matched : Expr → Expr → Prop where
  | same (e : Expr) : Matched e e
  | literal {v v' : Value} (h : R v v') : Matched (.literal v) (.literal v')

/-- The value of a condition and what stands in its place: under an operator that asks for several
values, item by item. -/
inductive Value.MatchedUnder (op : Value) : Value → Value → Prop where
  | same (v : Value) : MatchedUnder op v v
  | single {v v' : Value} (hop : ¬ asksSeveral op) (h : R v v') : MatchedUnder op v v'
  | list {vs vs' : List Value} (hop : asksSeveral op) (h : List.Forall₂ (Matched R) vs vs') :
      MatchedUnder op (.list vs) (.list vs')
  | tuple {vs vs' : List Value} (hop : asksSeveral op) (h : List.Forall₂ (Matched R) vs vs') :
      MatchedUnder op (.tuple vs) (.tuple vs')

mutual

inductive Condition.Matched : Condition → Condition → Prop where
  | test (logic : Logic) (column op : Value) {v v' : Value} (h : Value.MatchedUnder R op v v') :
      Matched (.test logic column op v) (.test logic column op v')
  | group (logic : Logic) {cs cs' : List Condition} (h : Condition.AllMatched cs cs') :
      Matched (.group logic cs) (.group logic cs')

inductive Condition.AllMatched : List Condition → List Condition → Prop where
  | nil : AllMatched [] []
  | cons {c c' : Condition} {cs cs' : List Condition} (h : Condition.Matched c c')
      (hrest : AllMatched cs cs') : AllMatched (c :: cs) (c' :: cs')

end

/-- Two queries that are the same but for the values in their conditions, their assignments and
their rows. -/
inductive Query.Matched : Query → Query → Prop where
  | intro (q : Query) {filter having : List Condition} {rows : List (List Value)}
      {assignments : List (Value × Value)} (hfilter : Condition.AllMatched R q.filter filter)
      (hhaving : Condition.AllMatched R q.having having)
      (hrows : List.Forall₂ (List.Forall₂ (Value.Matched R)) q.rows rows)
      (hassignments : List.Forall₂ (fun a a' => a.1 = a'.1 ∧ Value.Matched R a.2 a'.2)
        q.assignments assignments) :
      Matched q { q with filter, having, rows, assignments }

end Matched

namespace Sql

open Outcome

/-! ## Parts of statements -/

section Matched

variable (R : Value → Value → Prop)

inductive Comparison.Matched : Comparison → Comparison → Prop where
  | compare (c : Comparator) {l l' r r' : Expr} (hl : Expr.Matched R l l')
      (hr : Expr.Matched R r r') : Matched (.compare c l r) (.compare c l' r')
  | compareValue (c : Comparator) {l l' : Expr} (hl : Expr.Matched R l l') (v : Value) :
      Matched (.compareValue c l v) (.compareValue c l' v)
  | custom (op : String) {l l' r r' : Expr} (hl : Expr.Matched R l l')
      (hr : Expr.Matched R r r') : Matched (.custom op l r) (.custom op l' r')
  | between {x x' low low' high high' : Expr} (hx : Expr.Matched R x x')
      (hlow : Expr.Matched R low low') (hhigh : Expr.Matched R high high') :
      Matched (.between x low high) (.between x' low' high')
  | inList (negated : Bool) {x x' : Expr} {items items' : List Expr} (hx : Expr.Matched R x x')
      (hitems : List.Forall₂ (Expr.Matched R) items items') :
      Matched (.inList negated x items) (.inList negated x' items')
  | inQuery (negated : Bool) (x : Expr) (select : List Token) :
      Matched (.inQuery negated x select) (.inQuery negated x select)

/-- Formulas of the same shape, test by test. -/
inductive Formula.Matched {α : Type} (S : α → α → Prop) : Formula α → Formula α → Prop where
  | test {t t' : α} (h : S t t') : Matched S (.test t) (.test t')
  | and {l l' r r' : Formula α} (hl : Matched S l l') (hr : Matched S r r') :
      Matched S (.and l r) (.and l' r')
  | or {l l' r r' : Formula α} (hl : Matched S l l') (hr : Matched S r r') :
      Matched S (.or l r) (.or l' r')

/-- Conditions of statements, both absent or test by test. -/
def FilterMatched : Option Filter → Option Filter → Prop :=
  Option.Rel (Formula.Matched (Comparison.Matched R))

def Assignment.Matched (a a' : Assignment) : Prop :=
  a.target = a'.target ∧ a.value.Matched R a'.value

inductive Select.Matched : Select → Select → Prop where
  | intro (s : Select) {filter having : Option Filter} (hfilter : FilterMatched R s.filter filter)
      (hhaving : FilterMatched R s.having having) : Matched s { s with filter, having }

inductive Statement.Matched : Statement → Statement → Prop where
  | select {s s' : Select} (h : s.Matched R s') : Matched (.select s) (.select s')
  | count (tables : Option Tables) {filter filter' : Option Filter}
      (h : FilterMatched R filter filter') : Matched (.count tables filter) (.count tables filter')
  | update (into : Changed) {as as' : Option (List Assignment)} {filter filter' : Option Filter}
      (has : Option.Rel (List.Forall₂ (Assignment.Matched R)) as as')
      (h : FilterMatched R filter filter') :
      Matched (.update into as filter) (.update into as' filter')
  | insert (into : Changed) {rows rows' : Option (List (List Assignment))}
      (h : Option.Rel (List.Forall₂ (List.Forall₂ (Assignment.Matched R))) rows rows') :
      Matched (.insert into rows) (.insert into rows')
  | delete (into : Changed) {filter filter' : Option Filter} (h : FilterMatched R filter filter') :
      Matched (.delete into filter) (.delete into filter')

end Matched

variable {R : Value → Value → Prop}

theorem Comparison.Matched.refl (t : Comparison) : t.Matched R t := by
  cases t with
  | compare c l r => exact .compare c (.same l) (.same r)
  | compareValue c l v => exact .compareValue c (.same l) v
  | custom op l r => exact .custom op (.same l) (.same r)
  | between x low high => exact .between (.same x) (.same low) (.same high)
  | inList negated x items =>
      exact .inList negated (.same x) (List.forall₂_same.mpr fun e _ => .same e)
  | inQuery negated x select => exact .inQuery negated x select

/-! ## Entries -/

/-- Entries that are matched have the same keys. -/
theorem map_fst_matched {α β : Type} {S : β → β → Prop} {es es' : List (α × β)}
    (h : List.Forall₂ (fun e e' => e.1 = e'.1 ∧ S e.2 e'.2) es es') :
    es.map Prod.fst = es'.map Prod.fst := by
  induction h with
  | nil => rfl
  | cons he _ ih => rw [List.map_cons, List.map_cons, he.1, ih]

theorem isEmpty_of_forall₂ {α β : Type} {S : α → β → Prop} {xs : List α} {ys : List β}
    (h : List.Forall₂ S xs ys) : xs.isEmpty = ys.isEmpty := by
  cases h with
  | nil => rfl
  | cons _ _ => rfl

/-- Rows that are matched stay so beside the keys of their columns. -/
theorem zip_matched {α β : Type} {S : β → β → Prop} (keys : List α) {row row' : List β}
    (h : List.Forall₂ S row row') :
    List.Forall₂ (fun a a' => a.1 = a'.1 ∧ S a.2 a'.2) (keys.zip row) (keys.zip row') := by
  induction h generalizing keys with
  | nil =>
      rw [List.zip_nil_right]
      exact .nil
  | cons hv _ ih =>
      cases keys with
      | nil => exact .nil
      | cons key rest => exact .cons ⟨rfl, hv⟩ (ih rest)

/-! ## Formulas -/

/-- Matched formulas are joined to matched ones. -/
theorem join_matched {α : Type} {S : α → α → Prop} (logic : Logic)
    {e e' f f' : Option (Formula α)} (he : Option.Rel (Formula.Matched S) e e')
    (hf : Option.Rel (Formula.Matched S) f f') :
    Option.Rel (Formula.Matched S) (Formula.join logic e f) (Formula.join logic e' f') := by
  cases hf with
  | none =>
      cases he with
      | none => exact .none
      | some he => exact .some he
  | some hf =>
      cases he with
      | none => exact .some hf
      | some he =>
          cases logic with
          | and => exact .some (.and he hf)
          | or => exact .some (.or he hf)

theorem logic_matched {c c' : Condition} (h : c.Matched R c') : c.logic = c'.logic := by
  cases h with
  | test => rfl
  | group => rfl

mutual

/-- Matched conditions are read as matched formulas, if tests are. -/
theorem ofCondition_matched {α : Type} {S : α → α → Prop}
    {read : Value → Value → Value → Except Error α}
    (hread : ∀ column op v v', Value.MatchedUnder R op v v' →
      Related S (read column op v) (read column op v'))
    {c c' : Condition} (h : c.Matched R c') :
    Related (Option.Rel (Formula.Matched S)) (Formula.ofCondition read c)
      (Formula.ofCondition read c') := by
  cases h with
  | test logic column op h => exact (hread column op _ _ h).map fun _ _ ht => .some (.test ht)
  | group logic h => exact ofConditionsAfter_matched hread h .none

/-- Matched conditions behind matched formulas are read as matched ones. -/
theorem ofConditionsAfter_matched {α : Type} {S : α → α → Prop}
    {read : Value → Value → Value → Except Error α}
    (hread : ∀ column op v v', Value.MatchedUnder R op v v' →
      Related S (read column op v) (read column op v'))
    {cs cs' : List Condition} (h : Condition.AllMatched R cs cs') {said said' : Option (Formula α)}
    (hsaid : Option.Rel (Formula.Matched S) said said') :
    Related (Option.Rel (Formula.Matched S)) (Formula.ofConditionsAfter read said cs)
      (Formula.ofConditionsAfter read said' cs') := by
  cases h with
  | nil => exact .ok hsaid
  | cons hc hrest =>
      rw [Formula.ofConditionsAfter, Formula.ofConditionsAfter, logic_matched hc]
      exact (ofCondition_matched hread hc).bind fun f f' hf =>
        ofConditionsAfter_matched hread hrest (join_matched _ hsaid hf)

end

/-! ## Assignments written over -/

theorem any_target_matched {p : Assignment → Bool}
    (hp : ∀ {a a' : Assignment}, a.target = a'.target → p a = p a') {as as' : List Assignment}
    (h : List.Forall₂ (Assignment.Matched R) as as') : as.any p = as'.any p := by
  induction h with
  | nil => rfl
  | cons ha _ ih => rw [List.any_cons, List.any_cons, hp ha.1, ih]

theorem all_target_matched {p : Assignment → Bool}
    (hp : ∀ {a a' : Assignment}, a.target = a'.target → p a = p a') {as as' : List Assignment}
    (h : List.Forall₂ (Assignment.Matched R) as as') : as.all p = as'.all p := by
  induction h with
  | nil => rfl
  | cons ha _ ih => rw [List.all_cons, List.all_cons, hp ha.1, ih]

theorem sameColumn_matched (name : String) {a a' : Assignment} (h : a.target = a'.target) :
    sameColumn name a = sameColumn name a' := by
  rw [sameColumn, sameColumn, h]

/-- Matched assignments are written over matched ones alike. -/
theorem assign_matched {as as' : List Assignment} {a a' : Assignment}
    (has : List.Forall₂ (Assignment.Matched R) as as') (ha : a.Matched R a') :
    List.Forall₂ (Assignment.Matched R) (assign as a) (assign as' a') := by
  obtain ⟨target, value⟩ := a
  obtain ⟨target', value'⟩ := a'
  obtain ⟨rfl, hvalue⟩ : target = target' ∧ value.Matched R value' := ha
  have happend : List.Forall₂ (Assignment.Matched R) (as ++ [⟨target, value⟩])
      (as' ++ [⟨target, value'⟩]) :=
    List.rel_append has (.cons ⟨rfl, hvalue⟩ .nil)
  cases target with
  | column name =>
      rw [assign, assign]
      dsimp only
      rw [any_target_matched (sameColumn_matched name) has]
      split
      · -- the places stay, and the new values are matched with each other
        refine List.rel_map (fun b b' hb => ?_) has
        rw [sameColumn_matched name hb.1]
        split
        · exact ⟨hb.1, hvalue⟩
        · exact hb
      · exact happend
  | _ => exact happend

/-- Matched assignments come to matched ones with all of them made. -/
theorem assignAll_matched {as as' : List Assignment}
    (h : List.Forall₂ (Assignment.Matched R) as as') :
    List.Forall₂ (Assignment.Matched R) (assignAll as) (assignAll as') := by
  have hfoldl {said said' : List Assignment}
      (hsaid : List.Forall₂ (Assignment.Matched R) said said') :
      List.Forall₂ (Assignment.Matched R) (as.foldl assign said) (as'.foldl assign said') := by
    induction h generalizing said said' with
    | nil => exact hsaid
    | cons ha _ ih => exact ih (assign_matched hsaid ha)
  exact hfoldl .nil

/-! ## Mentions -/

mutual

theorem columns_matched {c c' : Condition} (h : c.Matched R c') : c.columns = c'.columns := by
  cases h with
  | test => rfl
  | group logic h => exact columnsAll_matched h

theorem columnsAll_matched {cs cs' : List Condition} (h : Condition.AllMatched R cs cs') :
    Condition.columnsAll cs = Condition.columnsAll cs' := by
  cases h with
  | nil => rfl
  | cons hc hrest =>
      rw [Condition.columnsAll, Condition.columnsAll, columns_matched hc, columnsAll_matched hrest]

end

/-- Matched queries have the same references. -/
theorem references_matched {q q' : Query} (h : Query.Matched R q q') :
    references q = references q' := by
  cases h with
  | intro hfilter hhaving _ _ =>
      rw [references, references, columnsAll_matched hfilter, columnsAll_matched hhaving]

/-- Matched queries write the same columns. -/
theorem writtenColumns_matched {q q' : Query} (h : Query.Matched R q q') (kind : Kind) :
    writtenColumns q kind = writtenColumns q' kind := by
  cases h with
  | intro _ _ _ hassignments =>
      cases kind with
      | insert | update =>
          rw [writtenColumns, writtenColumns, map_fst_matched hassignments]
      | _ => rfl

/-- What a query mentions are references, and no values. -/
theorem readFrame_matched {q q' : Query} (h : Query.Matched R q q') (kind : Kind) :
    readFrame q kind = readFrame q' kind := by
  have htables : q.tables = q'.tables ∧ tableValues q = tableValues q' := by
    cases h
    exact ⟨rfl, rfl⟩
  unfold readFrame mentions
  rw [references_matched h, writtenColumns_matched h kind, htables.1, htables.2]

end Sql

end ModelQuery
