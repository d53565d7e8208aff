import ModelQuery.Proofs.Outcome
import ModelQuery.Proofs.Query.Extends

/-!
# What calls leave alone

A call says something about one clause, and a builder has many.  No call but a reset touches the
registry, the model the builder was made for, or the conditions of a clause that the call is not
about; what is assigned is left alone unless the call writes columns, and the canonical model with
the tables unless the call enters tables.  `kept_run` says so for all calls at once, whether they
fail or not.

A reset begins again, and how a builder begins depends on its kind only in so far as the kind is
part of it.
-/

namespace ModelQuery

open Outcome Step

/-! ## Clauses of a draft -/

namespace Draft

@[simp] theorem clause_onClause_self (k : Clause) (f : OpenConditions → OpenConditions)
    (d : Draft) : (d.onClause k f).clause k = f (d.clause k) := by
  cases k <;> rfl

theorem clause_onClause_of_ne {k k' : Clause} (h : k ≠ k') (f : OpenConditions → OpenConditions)
    (d : Draft) : (d.onClause k f).clause k' = d.clause k' := by
  cases k <;> cases k' <;> first | rfl | exact absurd rfl h

end Draft

/-- The clause whose conditions a call is about. -/
def Call.clause? : Call → Option Clause
  | .condition k _ _ _ _ => some k
  | .openGroup k _ => some k
  | .closeGroup k => some k
  | _ => none

/-- The call writes columns. -/
def Call.writes : Call → Bool
  | .set _ _ | .assign _ _ _ => true
  | _ => false

/-- The call enters tables, not joined ones. -/
def Call.enters : Call → Bool
  | .addTables _ => true
  | _ => false

namespace Builder

/-- The second builder has the registry and the model of the first, and its conditions in all
clauses but at most one. -/
structure Kept (but : Option Clause) (b b' : Builder) : Prop where
  registry : b'.registry = b.registry
  model : b'.model = b.model
  clause : ∀ k, but ≠ some k → b'.draft.clause k = b.draft.clause k

variable {but : Option Clause}

namespace Kept

theorem refl (b : Builder) : Kept but b b := ⟨rfl, rfl, fun _ _ => rfl⟩

theorem trans ⦃a b c : Builder⦄ (h : Kept but a b) (h' : Kept but b c) : Kept but a c :=
  ⟨h'.registry.trans h.registry, h'.model.trans h.model,
    fun k hk => (h'.clause k hk).trans (h.clause k hk)⟩

/-- Anything said about other clauses. -/
theorem of_conditions {b b' : Builder} (hregistry : b'.registry = b.registry)
    (hmodel : b'.model = b.model) (hfilter : b'.draft.filter = b.draft.filter)
    (hhaving : b'.draft.having = b.draft.having) : Kept but b b' := by
  refine ⟨hregistry, hmodel, fun k _ => ?_⟩
  cases k with
  | filter => exact hfilter
  | having => exact hhaving

/-- A change of one clause keeps all but this clause. -/
theorem onClause (k : Clause) (f : OpenConditions → OpenConditions) (b : Builder) :
    Kept (some k) b (b.withDraft (Draft.onClause k f)) := by
  refine ⟨rfl, rfl, fun k' hk => ?_⟩
  have hne : k ≠ k' := fun h => hk (congrArg some h)
  exact Draft.clause_onClause_of_ne hne f b.draft

end Kept

/-- What a call leaves alone, with the assignments if it writes no column, and with the canonical
model and the tables if it enters none. -/
structure KeptBy (c : Call) (b b' : Builder) : Prop extends Kept c.clause? b b' where
  assignments : c.writes = false → b'.draft.assignments = b.draft.assignments
  entries : c.enters = false → b'.canonical = b.canonical ∧ b'.draft.tables = b.draft.tables

/-- The parts of a builder of which calls are told apart by whether they leave them alone. -/
def watched (b : Builder) : Registry × Value × Option Model × OpenConditions × OpenConditions ×
    List (Value × Value) × List (Value × Value) :=
  (b.registry, b.model, b.canonical, b.draft.filter, b.draft.having, b.draft.assignments,
    b.draft.tables)

variable {c : Call}

namespace KeptBy

theorem refl (b : Builder) : KeptBy c b b := ⟨Kept.refl b, fun _ => rfl, fun _ => ⟨rfl, rfl⟩⟩

theorem trans ⦃b b' b'' : Builder⦄ (h : KeptBy c b b') (h' : KeptBy c b' b'') : KeptBy c b b'' :=
  ⟨Kept.trans h.toKept h'.toKept, fun hw => (h'.assignments hw).trans (h.assignments hw),
    fun he => ⟨(h'.entries he).1.trans (h.entries he).1, (h'.entries he).2.trans (h.entries he).2⟩⟩

/-- Anything said about neither conditions, nor assignments, nor entries. -/
theorem of_others {b b' : Builder} (h : b'.watched = b.watched) : KeptBy c b b' := by
  simp only [watched, Prod.mk.injEq] at h
  obtain ⟨hregistry, hmodel, hcanonical, hfilter, hhaving, hassignments, htables⟩ := h
  exact ⟨.of_conditions hregistry hmodel hfilter hhaving, fun _ => hassignments,
    fun _ => ⟨hcanonical, htables⟩⟩

/-- An extension changes nothing that a call is to keep. -/
theorem of_extends {b b' : Builder} (h : Extends b b') : KeptBy c b b' := by
  obtain ⟨select, joins, orderBy, rfl⟩ := h
  exact of_others rfl

/-- An assignment changes only what a call that writes may change. -/
theorem assign (hc : c.writes = true) (key v : Value) (b : Builder) :
    KeptBy c b (b.assign key v) := by
  refine ⟨.of_conditions rfl rfl rfl rfl, fun hother => ?_, fun _ => ⟨rfl, rfl⟩⟩
  rw [hc] at hother
  cases hother

/-- An entry changes only what a call that enters tables may change. -/
theorem addTable (hc : c.enters = true) (table asName : Value) (b : Builder) :
    KeptBy c b (b.addTable table asName) := by
  refine ⟨.of_conditions rfl rfl rfl rfl, fun _ => rfl, fun hother => ?_⟩
  rw [hc] at hother
  cases hother

/-- A change of the clause that a call is about changes only what the call may change. -/
theorem onClause {k : Clause} (hc : c.clause? = some k) (f : OpenConditions → OpenConditions)
    (b : Builder) : KeptBy c b (b.withDraft (Draft.onClause k f)) := by
  refine ⟨hc ▸ Kept.onClause k f b, fun _ => ?_, fun _ => ?_⟩
  · cases k <;> rfl
  · cases k <;> exact ⟨rfl, rfl⟩

end KeptBy

/-! ## Calls -/

/-- A change that may fail leaves something related, if its results are related. -/
theorem leaves_tryChange {R : Builder → Builder → Prop} (hrefl : ∀ b, R b b)
    {f : Builder → Except Error Builder} (h : ∀ b b', f b = .ok b' → R b b') :
    Leaves R (tryChange f) := by
  intro b
  rw [after, tryChange]
  cases hf : f b with
  | ok b' => exact h b b' hf
  | error e => exact hrefl b

theorem leaves_each {α : Type} {f : α → Step Reply} (hf : ∀ a, Leaves (KeptBy c) (f a))
    (items : List α) : Leaves (KeptBy c) (each f items) :=
  Leaves.each KeptBy.refl KeptBy.trans hf items

theorem leaves_lift_then {α β : Type} (x : Except Error α) {f : α → EStateM Error Builder β}
    (hf : ∀ a, Leaves (KeptBy c) (f a)) : Leaves (KeptBy c) (Step.lift x >>= f) :=
  Leaves.lift_then KeptBy.refl KeptBy.trans x hf

/-- To assign one value keeps what a call that writes is to keep. -/
theorem kept_assignOne (hc : c.writes = true) (resolve column v : Value) :
    Leaves (KeptBy c) (tryChange (Call.assignOne resolve column v)) := by
  refine leaves_tryChange KeptBy.refl fun b b' h => ?_
  obtain ⟨resolved, -, h⟩ := bind_eq_ok h
  obtain ⟨key, -, h⟩ := bind_eq_ok h
  cases h
  exact KeptBy.assign hc key v b

theorem kept_setColumns (resolve : Value) (cs : List Value) :
    Leaves (KeptBy c) (tryChange (Call.setColumns resolve cs)) := by
  refine leaves_tryChange KeptBy.refl fun b b' h => ?_
  rw [Call.setColumns] at h
  split at h
  · cases h
    exact .of_others rfl
  · obtain ⟨resolved, -, h⟩ := bind_eq_ok h
    cases h
    exact .of_others rfl

/-- To close one group keeps what a call about its clause is to keep. -/
theorem kept_closeOne {k : Clause} (hc : c.clause? = some k) :
    Leaves (KeptBy c) (tryChange (Call.closeOne k)) := by
  refine leaves_tryChange KeptBy.refl fun b b' h => ?_
  rw [Call.closeOne] at h
  split at h
  · rename_i closed hclosed
    cases h
    obtain ⟨o, -, rfl⟩ := Option.map_eq_some_iff.mp hclosed
    exact KeptBy.onClause hc _ b
  · cases h

theorem kept_kindStep (v : Value) : Leaves (KeptBy c) (Call.kindStep v) := by
  intro b
  rw [after, Call.kindStep]
  cases v.isPresent with
  | false => exact KeptBy.refl b
  | true =>
      cases Builder.kindOf v with
      | ok k => exact .of_others rfl
      | error e => exact KeptBy.refl b

/-- **CALLS KEEP TO THEIR CLAUSE**: whatever comes of a call other than a reset, the builder has the
registry and the model it had, the same conditions in every clause the call is not about, the same
assignments if the call writes no column, and the same canonical model and tables if it enters no
table. -/
theorem kept_run (c : Call) (hreset : c ≠ .reset) : Leaves (KeptBy c) c.run := by
  -- a call that goes through several arguments keeps what it did before the bad one, so what is kept
  -- has to be kept by each of them
  cases c with
  | select cs =>
      exact leaves_each (fun v => leaves_lift_then _ fun _ _ => .of_others rfl) cs
  | selectArray cs =>
      refine leaves_lift_then _ fun items => leaves_each (fun v => ?_) items
      exact leaves_lift_then _ fun _ _ => .of_others rfl
  | distinct v => exact fun b => .of_others rfl
  | addTables ts =>
      exact leaves_each (fun v => leaves_lift_then _ fun (_, _) _ => .addTable rfl _ _ _) ts
  | join table type => exact leaves_lift_then _ fun _ _ => .of_others rfl
  | on left op right =>
      refine leaves_tryChange KeptBy.refl fun b b' h => ?_
      rw [Call.onLast] at h
      split at h
      · cases h
      · cases h
        exact .of_others rfl
  | condition k logic column op v => exact fun b => KeptBy.onClause rfl _ b
  | openGroup k logic => exact fun b => KeptBy.onClause rfl _ b
  | closeGroup k => exact kept_closeOne rfl
  | groupBy cs => exact leaves_each (fun c b => .of_others rfl) cs
  | orderBy column direction => exact fun b => .of_others rfl
  | limit number => exact fun b => .of_others rfl
  | offset number => exact fun b => .of_others rfl
  | set pairs resolve =>
      refine leaves_lift_then _ fun entries => ?_
      exact leaves_each (fun entry => kept_assignOne rfl resolve _ _) entries
  | assign column v resolve => exact kept_assignOne rfl resolve column v
  | columns cs resolve => exact leaves_lift_then _ fun items => kept_setColumns resolve items
  | rows vs =>
      exact leaves_each (fun v => leaves_lift_then _ fun _ _ => .of_others rfl) vs
  | eager path => exact fun b => .of_extends (adds_eagerOn path b)
  | kind v => exact kept_kindStep v
  | reset => exact absurd rfl hreset

/-! ## Beginning -/

/-- The clauses a builder begins with hold no conditions. -/
theorem opened_eq_ok {registry : Registry} {model : Value} {k : Kind} {b : Builder}
    (h : opened registry model k = .ok b) :
    b.registry = registry ∧ b.model = model ∧ b.kind = k ∧ ∀ c, b.draft.clause c = .empty := by
  rw [opened] at h
  dsimp only at h
  split at h
  · cases h
    exact ⟨rfl, rfl, rfl, fun c => by cases c <;> rfl⟩
  · obtain ⟨pair, -, h⟩ := bind_eq_ok h
    cases h
    exact ⟨rfl, rfl, rfl, fun c => by cases c <;> rfl⟩

/-- A builder that is created is opened with a kind. -/
theorem opened_of_create {registry : Registry} {model kind : Value} {b : Builder}
    (h : create registry model kind = .ok b) : ∃ k, opened registry model k = .ok b := by
  rw [create] at h
  obtain ⟨given, -, h⟩ := bind_eq_ok h
  split at h
  · cases h
  · obtain ⟨k, -, h⟩ := bind_eq_ok h
    exact ⟨k, h⟩

/-- A new builder says nothing but what it is about. -/
theorem create_entry {registry : Registry} {model kind : Value} {b : Builder}
    (h : create registry model kind = .ok b) :
    b.registry = registry ∧ ∃ entry, b.draft = { Draft.empty with tables := [entry] } := by
  obtain ⟨k, hopened⟩ := opened_of_create h
  rw [opened] at hopened
  dsimp only at hopened
  split at hopened
  · cases hopened
    exact ⟨rfl, _, rfl⟩
  · obtain ⟨pair, -, hopened⟩ := bind_eq_ok hopened
    cases hopened
    exact ⟨rfl, _, rfl⟩

/-- Builders of two kinds begin alike. -/
theorem opened_kind {registry : Registry} {model : Value} {k : Kind} {b : Builder}
    (h : opened registry model k = .ok b) (k' : Kind) :
    opened registry model k' = .ok { b with kind := k' } := by
  rw [opened] at h ⊢
  dsimp only at h ⊢
  cases hm : registry.lookup? model with
  | some m =>
      rw [hm] at h
      cases h
      rfl
  | none =>
      rw [hm] at h
      obtain ⟨pair, hpair, h⟩ := bind_eq_ok h
      cases h
      dsimp only
      rw [hpair]
      rfl

end Builder

end ModelQuery
