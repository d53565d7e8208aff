import ModelQuery.Query.Call

/-!
# What eager loading adds to a builder

Everything that loading along a path can do to a builder is to append selected columns and joins,
at whatever hop it stops.  `Extends` says so: one builder is another with something behind its
selected columns, its joins and its sort keys, and with nothing else changed.  A new join brings its
own test, so the tests of older joins stay as they are, and so do the conditions and the groups that
are open in them.

The steps of a caller that only add are followed here up to where they end, with or without a
failure.
-/

namespace ModelQuery

/-! ## Steps -/

namespace Step

variable {σ α β : Type}

/-- What was worked on, as a step leaves it, whether it fails or not. -/
def after (step : EStateM Error σ α) (s : σ) : σ :=
  match step s with
  | .ok _ s' => s'
  | .error _ s' => s'

theorem bind_ok {x : EStateM Error σ α} {f : α → EStateM Error σ β} {s s' : σ} {a : α}
    (h : x s = .ok a s') : (x >>= f) s = f a s' := by
  show EStateM.bind x f s = f a s'
  rw [EStateM.bind, h]

theorem bind_error {x : EStateM Error σ α} {f : α → EStateM Error σ β} {s s' : σ} {e : Error}
    (h : x s = .error e s') : (x >>= f) s = .error e s' := by
  show EStateM.bind x f s = .error e s'
  rw [EStateM.bind, h]

/-- The step leaves something related to what it found, whether it fails or not. -/
def Leaves (R : σ → σ → Prop) (step : EStateM Error σ α) : Prop := ∀ s, R s (after step s)

namespace Leaves

variable {R : σ → σ → Prop} (hrefl : ∀ s, R s s) (htrans : ∀ ⦃s t u⦄, R s t → R t u → R s u)
include hrefl

theorem pure (a : α) : Leaves R (EStateM.pure a) := fun s => hrefl s

theorem lift (x : Except Error α) : Leaves R (Step.lift x) := by
  intro s
  cases x with
  | ok a => exact hrefl s
  | error e => exact hrefl s

omit hrefl
include htrans

/-- Steps one after the other leave something related, if each one does. -/
theorem bind {x : EStateM Error σ α} {f : α → EStateM Error σ β} (hx : Leaves R x)
    (hf : ∀ a, Leaves R (f a)) : Leaves R (x >>= f) := by
  intro s
  have hs : R s (after x s) := hx s
  rw [after] at hs ⊢
  cases h : x s with
  | ok a s' =>
      rw [bind_ok h]
      rw [h] at hs
      exact htrans hs (hf a s')
  | error e s' =>
      rw [bind_error h]
      rw [h] at hs
      exact hs

end Leaves

/-- Steps over items leave something related, if each one does. -/
theorem Leaves.each {R : Builder → Builder → Prop} (hrefl : ∀ b, R b b)
    (htrans : ∀ ⦃b c d⦄, R b c → R c d → R b d) {f : α → Step Reply} (hf : ∀ a, Leaves R (f a))
    (items : List α) : Leaves R (each f items) := by
  induction items with
  | nil => exact Leaves.pure hrefl _
  | cons a rest ih => exact Leaves.bind htrans (hf a) fun _ => ih

/-- A step whose argument is taken apart first. -/
theorem Leaves.lift_then {R : σ → σ → Prop} (hrefl : ∀ s, R s s)
    (htrans : ∀ ⦃s t u⦄, R s t → R t u → R s u) (x : Except Error α) {f : α → EStateM Error σ β}
    (hf : ∀ a, Leaves R (f a)) : Leaves R (Step.lift x >>= f) :=
  Leaves.bind htrans (Leaves.lift hrefl x) hf

/-- The builder a step leads to, if it does not fail. -/
def applied (step : Step Reply) (b : Builder) : Except Error Builder :=
  match step b with
  | .ok _ b' => .ok b'
  | .error e _ => .error e

theorem applied_then (first second : Step Reply) (b : Builder) :
    applied (first >>= fun _ => second) b = applied first b >>= applied second := by
  rw [applied, applied]
  cases h : first b with
  | ok r b' =>
      rw [bind_ok h]
      rfl
  | error e b' =>
      rw [bind_error h]
      rfl

/-- Steps for several items lead from one builder to the next. -/
theorem applied_each {α : Type} (f : α → Step Reply) (items : List α) (b : Builder) :
    applied (each f items) b = items.foldlM (fun b a => applied (f a) b) b := by
  induction items generalizing b with
  | nil => rfl
  | cons a rest ih =>
      have hrest : applied (each f rest) = fun b => rest.foldlM (fun b a => applied (f a) b) b :=
        funext ih
      show applied (f a >>= fun _ => each f rest) b = _
      rw [applied_then, hrest, List.foldlM_cons]

end Step

namespace Builder

open Step

/-! ## What is only added -/

/-- The builder with more selected columns, joins and sort keys behind those it has. -/
def adding (select : List (Value × Value)) (joins : List Join) (orderBy : List (Value × Value))
    (b : Builder) : Builder :=
  b.withDraft fun d =>
    { d with
      select := d.select ++ select
      joins := d.joins ++ joins
      orderBy := d.orderBy ++ orderBy }

/-- The second builder is the first with something added; its other clauses, its old joins with
their tests and its open groups are those of the first. -/
def Extends (b b' : Builder) : Prop :=
  ∃ select joins orderBy, b' = b.adding select joins orderBy

theorem adding_nil (b : Builder) : b.adding [] [] [] = b := by
  simp only [adding, withDraft, List.append_nil]

theorem adding_adding (b : Builder) (s₁ s₂ o₁ o₂ : List (Value × Value)) (j₁ j₂ : List Join) :
    (b.adding s₁ j₁ o₁).adding s₂ j₂ o₂ = b.adding (s₁ ++ s₂) (j₁ ++ j₂) (o₁ ++ o₂) := by
  simp only [adding, withDraft, List.append_assoc]

theorem Extends.refl (b : Builder) : Extends b b := ⟨[], [], [], b.adding_nil.symm⟩

theorem Extends.trans {a b c : Builder} (hab : Extends a b) (hbc : Extends b c) : Extends a c := by
  obtain ⟨s₁, j₁, o₁, rfl⟩ := hab
  obtain ⟨s₂, j₂, o₂, rfl⟩ := hbc
  exact ⟨_, _, _, adding_adding ..⟩

theorem Extends.registry_eq {b b' : Builder} (h : Extends b b') : b'.registry = b.registry := by
  obtain ⟨select, joins, orderBy, rfl⟩ := h
  rfl

theorem Extends.canonical_eq {b b' : Builder} (h : Extends b b') :
    b'.canonical = b.canonical := by
  obtain ⟨select, joins, orderBy, rfl⟩ := h
  rfl

/-- Without its additions an extended builder is what it was. -/
theorem Extends.taken_back {b b' : Builder} (h : Extends b b') :
    { b' with draft := b.draft } = b := by
  obtain ⟨select, joins, orderBy, rfl⟩ := h
  rfl

/-! ## Relationships add -/

theorem addToLast_append (t : JoinTest) (joins : List Join) (j : Join) :
    addToLast t (joins ++ [j]) = joins ++ [addTest t j] := by
  induction joins with
  | nil => rfl
  | cons k rest ih =>
      -- the list behind `k` is never empty, so the test goes on
      cases rest with
      | nil => rfl
      | cons k' rest =>
          show k :: addToLast t ((k' :: rest) ++ [j]) = _
          rw [ih]
          rfl

/-- A column that is selected is added, and nothing else. -/
theorem selectResolved_eq (column asName : Value) (b : Builder) :
    b.selectResolved column asName = b.adding [(column, asName)] [] [] := by
  simp only [adding, selectResolved, withDraft, List.append_nil]

theorem extends_selectResolved (column asName : Value) (b : Builder) :
    Extends b (b.selectResolved column asName) :=
  ⟨_, _, _, selectResolved_eq column asName b⟩

/-- All columns of the canonical model, as an item. -/
def ownItem (scope : Scope) : Value × Value := (scope.column (some true) (.text "*"), .null)

/-- What a model selects of its own is added, and nothing else. -/
theorem selectOwn_eq (b : Builder) : b.selectOwn = b.adding [ownItem b.scope] [] [] := by
  simp only [adding, selectOwn, select, withDraft, List.append_nil]
  rfl

theorem extends_selectOwn (b : Builder) : Extends b b.selectOwn := ⟨_, _, _, selectOwn_eq b⟩

/-- A table joined from the left, with its test, as names in a scope come to. -/
def leftJoined (scope : Scope) (table left right : Value) : Join :=
  { table := scope.table table
    asName := .null
    type := .text "LEFT"
    on := [⟨scope.column (some true) left, .text "=", scope.column (some true) right⟩] }

/-- A left join brings its own test with it: the joins before it keep theirs. -/
theorem leftJoin_eq (table left right : Value) (b : Builder) :
    b.leftJoin table left right = b.adding [] [leftJoined b.scope table left right] [] := by
  show (b.join table .null (.text "LEFT")).on left (.text "=") right = _
  simp only [adding, join, on, withDraft, addToLast_append, List.append_nil]
  rfl

/-- The joins of a field. -/
def fieldJoins (scope : Scope) (f : Field) : List Join :=
  match f.link with
  | .plain => []
  | .belongsTo other =>
    [leftJoined scope (.text other.model) (dotted f.owner f.name) (dotted other.model other.column)]
  | .hasMany other | .hasOne other =>
    [leftJoined scope (.text other.model) (dotted other.model other.column)
      (dotted f.owner f.column)]
  | .manyToMany other through =>
    let table : Name := ⟨through.table, f.declared⟩
    [leftJoined scope table.toValue (dotted through.table through.ownColumn)
        (dotted f.owner f.column),
      leftJoined scope (.text other.model) (dotted other.model other.column)
        (dotted through.table through.foreignColumn)]

/-- A relationship that is joined adds its joins, and nothing else. -/
theorem joinField_eq (f : Field) (b : Builder) :
    b.joinField f = b.adding [] (fieldJoins b.scope f) [] := by
  rw [joinField, fieldJoins]
  cases f.link with
  | plain => exact b.adding_nil.symm
  | belongsTo other => exact leftJoin_eq ..
  | hasMany other => exact leftJoin_eq ..
  | hasOne other => exact leftJoin_eq ..
  | manyToMany other through =>
      dsimp only
      rw [leftJoin_eq, leftJoin_eq, adding_adding]
      rfl

theorem extends_joinField (f : Field) (b : Builder) : Extends b (b.joinField f) :=
  ⟨[], fieldJoins b.scope f, [], joinField_eq f b⟩

/-- To select all of a model extends the builder. -/
theorem extends_selectModel (m : Model) (chain : String) (b : Builder) :
    Extends b (b.selectModel m chain) := by
  rw [selectModel]
  induction m.fields.inDb generalizing b with
  | nil => exact Extends.refl b
  | cons f rest ih => exact (extends_selectResolved ..).trans (ih _)

/-- To follow a path extends the builder, as far as it leads. -/
theorem extends_follow (parent : Model) (chain : String) (path : List String) (b : Builder) :
    Extends b (follow parent chain path b) := by
  induction path generalizing parent chain b with
  | nil => exact Extends.refl b
  | cons segment rest ih =>
      rw [follow]
      split
      · exact Extends.refl b
      · split
        · exact Extends.refl b
        · -- one hop: the columns of the related model, its joins, and the hops behind it
          exact ((extends_selectModel ..).trans (extends_joinField ..)).trans (ih ..)

/-- To load along a path extends the builder. -/
theorem extends_eager (m : Model) (path : String) (b : Builder) : Extends b (b.eager m path) :=
  (extends_selectOwn b).trans (extends_follow ..)

/-! ## Steps that only add -/

/-- The step only adds to a builder, also where it fails. -/
def Adds {α : Type} (step : EStateM Error Builder α) : Prop := ∀ b, Extends b (after step b)

theorem Adds.bind {α β : Type} {x : EStateM Error Builder α} {f : α → EStateM Error Builder β}
    (hx : Adds x) (hf : ∀ a, Adds (f a)) : Adds (x >>= f) :=
  Leaves.bind (R := Extends) (fun _ _ _ => Extends.trans) hx hf

theorem Adds.each {α : Type} {f : α → Step Reply} (hf : ∀ a, Adds (f a)) (items : List α) :
    Adds (Step.each f items) :=
  Leaves.each (R := Extends) Extends.refl (fun _ _ _ => Extends.trans) hf items

/-- Loading along a path is a call that succeeds where there is a model to begin at. -/
theorem run_eager {b : Builder} {m : Model} (hm : b.canonical = some m) (path : String) :
    Call.run (.eager (.text path)) b = .ok .done (b.eager m path) := by
  show Call.eagerOn (.text path) b = _
  rw [Call.eagerOn, hm]
  rfl

/-- A path that is not text fails after the columns of the model itself were selected. -/
theorem adds_eagerOn (path : Value) : Adds (Call.eagerOn path) := by
  intro b
  rw [after, Call.eagerOn]
  cases b.canonical with
  | none => exact Extends.refl b
  | some m =>
      cases path.text? with
      | none => exact extends_selectOwn b
      | some p => exact extends_eager m p b

end Builder

end ModelQuery
