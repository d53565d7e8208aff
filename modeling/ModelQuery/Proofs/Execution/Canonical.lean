import ModelQuery.Proofs.Execution.Reset

/-!
# The canonical model of a run

Names are resolved against the canonical model, and which model that is hangs on all that was done
before.  Two things are kept beside a run to tell it: the references a builder begins with, which
are its model as it was given and then without its alias, and the tables it was given since, each as
it was taken, until a reset forgets them.  A call that comes upon something that is no pair has
taken the tables before it.

The canonical model is what the registry has for the first of these references that it knows
(`canonical_performed`).  So it is set once, and nothing but a table that is given can set it.
-/

namespace ModelQuery

open Outcome Step

namespace Builder

/-! ## What a call takes -/

/-- The tables of some arguments with their aliases, up to the first argument that is refused. -/
def taken : List Value → List (Value × Value)
  | [] => []
  | v :: rest =>
    match v.aliased with
    | .ok entry => entry :: taken rest
    | .error _ => []

/-- Tables entered one after the other. -/
def addTables (entries : List (Value × Value)) (b : Builder) : Builder :=
  entries.foldl (fun b entry => b.addTable entry.1 entry.2) b

/-- A call with tables enters those it takes, also where it fails. -/
theorem after_addTables (ts : List Value) (b : Builder) :
    after (Call.addTables ts).run b = b.addTables (taken ts) := by
  show after (each Call.addOne ts) b = _
  induction ts generalizing b with
  | nil => rfl
  | cons v rest ih =>
      show after (Call.addOne v >>= fun _ => each Call.addOne rest) b = _
      rw [after, taken]
      cases hv : v.aliased with
      | error e =>
          have hone : Call.addOne v b = .error e b := by
            rw [Call.addOne, hv]
            rfl
          rw [bind_error hone]
          rfl
      | ok entry =>
          have hone : Call.addOne v b = .ok .done (b.addTable entry.1 entry.2) := by
            rw [Call.addOne, hv]
            rfl
          rw [bind_ok hone]
          exact ih (b.addTable entry.1 entry.2)

/-- An entry as it stands in the query, its table resolved. -/
def entered (registry : Registry) (entry : Value × Value) : Value × Value :=
  ((Scope.mk registry none).table entry.1, entry.2)

/-- A builder without a canonical model gets the first registered one, and every table is entered
behind the others. -/
theorem addTables_eq (entries : List (Value × Value)) (b : Builder) :
    (b.addTables entries).canonical =
        b.canonical.or ((entries.map Prod.fst).findSome? b.registry.lookup?) ∧
      (b.addTables entries).draft.tables = b.draft.tables ++ entries.map (entered b.registry) := by
  induction entries generalizing b with
  | nil => exact ⟨(Option.or_none ..).symm, (List.append_nil _).symm⟩
  | cons entry rest ih =>
      obtain ⟨hcanonical, htables⟩ := ih (b.addTable entry.1 entry.2)
      refine ⟨hcanonical.trans ?_, htables.trans ?_⟩
      · show (b.canonical.or (b.registry.lookup? entry.1)).or _ = _
        rw [List.map_cons, List.findSome?_cons, Option.or_assoc]
        cases b.registry.lookup? entry.1 <;> rfl
      · exact List.append_assoc ..

/-! ## What a builder begins with -/

/-- What a builder refers to by its model: the model as it was given, then without its alias. -/
def modelReferences (model : Value) : List Value :=
  match model.aliased with
  | .ok entry => [model, entry.1]
  | .error _ => [model]

/-- The canonical model of a new builder is the first that a reference of its model finds. -/
theorem canonical_opened {registry : Registry} {model : Value} {k : Kind} {b : Builder}
    (h : opened registry model k = .ok b) :
    b.canonical = (modelReferences model).findSome? registry.lookup? := by
  rw [opened] at h
  dsimp only at h
  rw [modelReferences]
  cases hm : registry.lookup? model with
  | some m =>
      -- the model as it was given is known, so the name of its table is not looked up for a model
      rw [hm] at h
      cases h
      cases model.aliased <;> exact (List.findSome?_cons.trans (by rw [hm]; rfl)).symm
  | none =>
      rw [hm] at h
      obtain ⟨entry, hentry, h⟩ := bind_eq_ok h
      cases h
      rw [hentry]
      show Option.or none (registry.lookup? entry.1) = _
      simp only [List.findSome?_cons, hm, List.findSome?_nil]
      cases registry.lookup? entry.1 <;> rfl

end Builder

namespace Session

/-! ## What a run was given -/

/-- The tables an action gives. -/
def givenIn : Action → List (Value × Value)
  | .call (.addTables ts) => Builder.taken ts
  | _ => []

/-- What was given, with one more action: a reset forgets it. -/
def givenNext (given : List (Value × Value)) : Action → List (Value × Value)
  | .call .reset => []
  | a => given ++ givenIn a

/-- The tables that were given in a run, in order, since the last reset. -/
def givenSinceReset (actions : List Action) : List (Value × Value) := actions.foldl givenNext []

/-- An action other than a reset gives what it gives to what there is. -/
theorem given_act {a : Action} (ha : a ≠ .call .reset) (s : Session) :
    (after (act a) s).builder.canonical =
        s.builder.canonical.or (((givenIn a).map Prod.fst).findSome? s.builder.registry.lookup?) ∧
      (after (act a) s).builder.draft.tables =
        s.builder.draft.tables ++ (givenIn a).map (Builder.entered s.builder.registry) := by
  have hnothing : ∀ b : Builder, b.canonical = b.canonical.or none ∧
      b.draft.tables = b.draft.tables ++ [] :=
    fun b => ⟨(Option.or_none ..).symm, (List.append_nil _).symm⟩
  cases a with
  | call c =>
      rw [after_act_call, after_call_builder]
      by_cases hc : c.enters = true
      · cases c with
        | addTables ts =>
            rw [Builder.after_addTables]
            exact Builder.addTables_eq (Builder.taken ts) s.builder
        | _ => cases hc
      · have hother : givenIn (.call c) = [] := by
          cases c with
          | addTables ts => exact absurd rfl hc
          | _ => rfl
        obtain ⟨hcanonical, htables⟩ :=
          (Builder.kept_run c (call_ne_reset ha) s.builder).entries (Bool.eq_false_iff.mpr hc)
        rw [hother, hcanonical, htables]
        exact hnothing s.builder
  | execute group =>
      rw [after_act_execute, after_execute_builder]
      exact hnothing s.builder
  | count =>
      rw [after_act_count, after_count_builder]
      exact hnothing s.builder

/-! ## The canonical model -/

/-- A session of a builder that was made as `b`, as far as its canonical model and its tables are
told by what was given. -/
structure ToldBy (b : Builder) (given : List (Value × Value)) (s : Session) : Prop where
  subject : SameSubject b s
  canonical : s.builder.canonical =
    (Builder.modelReferences b.model ++ given.map Prod.fst).findSome? b.registry.lookup?
  tables : s.builder.draft.tables = b.draft.tables ++ given.map (Builder.entered b.registry)

variable {registry : Registry} {model kind : Value} {k : Kind} {b : Builder}

/-- A new session, of whatever kind, is told by nothing given. -/
theorem toldBy_ofBuilder (h : Builder.opened registry model k = .ok b) (k' : Kind)
    (database : Option Database) : ToldBy b [] (ofBuilder { b with kind := k' } database) := by
  obtain ⟨hregistry, hmodel, -, -⟩ := Builder.opened_eq_ok h
  refine ⟨⟨rfl, rfl⟩, ?_, (List.append_nil _).symm⟩
  rw [hregistry, hmodel, List.map_nil, List.append_nil]
  exact (show _ = b.canonical from rfl).trans (Builder.canonical_opened h)

/-- What is told by what was given stays told by it, one action further. -/
theorem toldBy_act (h : Builder.opened registry model k = .ok b) {given : List (Value × Value)}
    {s : Session} (hs : ToldBy b given s) (a : Action) :
    ToldBy b (givenNext given a) (after (act a) s) := by
  by_cases ha : a = .call .reset
  · -- a reset makes the builder anew, from the same registry and the same model
    subst ha
    obtain ⟨hregistry, hmodel, -, -⟩ := Builder.opened_eq_ok h
    have hreset : s.builder.reset = .ok { b with kind := s.builder.kind } := by
      rw [Builder.reset, hs.subject.1.trans hregistry, hs.subject.2.trans hmodel]
      exact Builder.opened_kind h s.builder.kind
    rw [after, act_reset hreset]
    exact toldBy_ofBuilder h s.builder.kind s.database
  · have hnext : givenNext given a = given ++ givenIn a := by
      rw [givenNext]
      exact ha
    obtain ⟨hcanonical, htables⟩ := given_act ha s
    refine ⟨sameSubject_act a hs.subject, ?_, ?_⟩
    · rw [hcanonical, hs.canonical, hs.subject.1, hnext, List.map_append, ← List.append_assoc,
        ← List.findSome?_append]
    · rw [htables, hs.tables, hs.subject.1, hnext, List.map_append, List.append_assoc]

/-- What is told by what was given stays told by it over a run. -/
theorem toldBy_run (h : Builder.opened registry model k = .ok b) {given : List (Value × Value)}
    {s : Session} (hs : ToldBy b given s) (actions : List Action) :
    ToldBy b (actions.foldl givenNext given) (performed actions s) := by
  induction actions generalizing given s with
  | nil => exact hs
  | cons a rest ih => exact ih (toldBy_act h hs a)

/-- Once there is a canonical model, nothing but a reset changes it. -/
theorem canonical_stays {m : Model} {more : List Action} (hmore : .call .reset ∉ more)
    {s : Session} (hs : s.builder.canonical = some m) :
    (performed more s).builder.canonical = some m := by
  refine performed_keeps (P := fun s => s.builder.canonical = some m) hs fun a ha s hs => ?_
  have hne : a ≠ .call .reset := fun heq => hmore (heq ▸ ha)
  rw [(given_act hne s).1, hs, Option.some_or]

/-- **THE FIRST REGISTERED REFERENCE IS CANONICAL**: after any run of a builder that was made,
whatever came of each of its actions, the canonical model is what the registry has for the first
reference that it knows, among the model as it was given, the model without its alias, and the
tables that were given since the last reset, which are those entered behind the builder's own
entry.  Once there is one it stays for every run without a reset, and no action that gives no tables
sets it. -/
theorem canonical_performed (h : Builder.create registry model kind = .ok b)
    (database : Option Database) (actions : List Action) :
    let s := performed actions (ofBuilder b database)
    let given := givenSinceReset actions
    s.builder.canonical =
        (Builder.modelReferences model ++ given.map Prod.fst).findSome? registry.lookup? ∧
      s.builder.draft.tables = b.draft.tables ++ given.map (Builder.entered registry) ∧
      (∀ m, s.builder.canonical = some m → ∀ more, .call .reset ∉ more →
        (performed more s).builder.canonical = some m) ∧
      ∀ a, (∀ ts, a ≠ .call (.addTables ts)) → a ≠ .call .reset →
        (after (act a) s).builder.canonical = s.builder.canonical := by
  intro s given
  obtain ⟨k, hopened⟩ := Builder.opened_of_create h
  obtain ⟨hregistry, hmodel, -, -⟩ := Builder.opened_eq_ok hopened
  have htold : ToldBy b given s :=
    toldBy_run hopened (toldBy_ofBuilder hopened b.kind database) actions
  refine ⟨?_, ?_, fun m hm more hmore => canonical_stays hmore hm, fun a ha hreset => ?_⟩
  · rw [htold.canonical, hregistry, hmodel]
  · rw [htold.tables, hregistry]
  · have hnothing : givenIn a = [] := by
      cases a with
      | call c =>
          cases c with
          | addTables ts => exact absurd rfl (ha ts)
          | _ => rfl
      | _ => rfl
    rw [(given_act hreset s).1, hnothing]
    exact Option.or_none ..

/-- A model is joined and counted; a call comes upon a tuple of one item before it gets to the
model; another gives the model with an alias. -/
def approached : List Action :=
  [.call (.join (.text "user") .null), .count,
    .call (.addTables [.text "tag", .tuple [.text "user"], .text "user"]),
    .call (.addTables [.tuple [.text "user", .text "u"], .text "post"])]

/-- Only the last call makes the users canonical, and not the join, nor the call that is refused
before it comes to them. -/
theorem users_become_canonical :
    ∃ b, Builder.create (.ofModels [userModel, postModel]) (.tuple [.text "log", .text "l"])
        (.text "select") = .ok b ∧
      b.canonical = none ∧
      let s := performed approached (ofBuilder b none)
      s.builder.canonical = some userModel ∧
      s.builder.draft.tables =
        [(.text "log", .text "l"), (.text "tag", .null), (.text "users", .text "u"),
          (.text "posts", .null)] ∧
      (performed [.call (.kind (.text "delete")), .execute .null] s).builder.canonical =
        some userModel ∧
      (after (act .count) s).builder.canonical = some userModel := by
  obtain ⟨hcanonical, htables, hstays, hothers⟩ := @canonical_performed
    (.ofModels [userModel, postModel]) (.tuple [.text "log", .text "l"]) (.text "select") _ rfl none
    approached
  refine ⟨_, rfl, rfl, hcanonical.trans rfl, htables.trans rfl, ?_, ?_⟩
  · exact hstays userModel (hcanonical.trans rfl) _ (by simp)
  · exact (hothers .count nofun nofun).trans (hcanonical.trans rfl)

end Session

end ModelQuery
