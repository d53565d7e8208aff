import ModelQuery.Proofs.Query.Kept
import ModelQuery.Proofs.Sql.Names

/-!
# How a builder begins

A builder of a registered model begins with one entry, the model's table.  On its way there the name
of the table is looked up like any other name, so it is taken for the name of a model if there is
such a model, and what is entered is the table of that one.

So a builder begins with its model's own table exactly if the name of the table is `Settled`
(`begins_with_own_table_iff`), and just then the fields of the model, whose columns are those of its
own table in any case, refer to the entry.
-/

namespace ModelQuery

open Outcome

/-! ## Names of tables -/

namespace Registry

variable {r : Registry} {m : Model} {v : Value} {s : String}

/-- What the name of a table comes to: the table of the model that is so called, if there is one. -/
def tableNamed (r : Registry) (s : String) : String :=
  match r.lookupName? s with
  | some m => m.table
  | none => s

/-- A model that is called like the table is stored in it. -/
def Settled (r : Registry) (table : String) : Prop :=
  ∀ other, r.lookupName? table = some other → other.table = table

/-- A name stays itself just where it is settled. -/
theorem tableNamed_eq_iff : r.tableNamed s = s ↔ r.Settled s := by
  rw [tableNamed, Settled]
  cases r.lookupName? s with
  | none => exact ⟨fun _ => nofun, fun _ => rfl⟩
  | some m =>
      constructor
      · rintro h other hother
        cases hother
        exact h
      · exact fun h => h m rfl

/-- A model is looked up under the text of a name. -/
theorem lookup?_of_text (h : v.text? = some s) (r : Registry) : r.lookup? v = r.lookupName? s := by
  rcases Value.eq_of_text? h with rfl | rfl
  · rfl
  · rfl

theorem truthy_of_lookup? (h : r.lookup? v = some m) : v.truthy = true := by
  unfold lookup? at h
  split at h
  · cases h
  · split at h
    · assumption
    · cases h

/-- What refers to a model counts as true. -/
theorem isTrue_of_lookup? (h : r.lookup? v = some m) : v.isTrue = .ok true := by
  cases v with
  | sql e => cases h
  | _ => exact congrArg Except.ok (truthy_of_lookup? h)

end Registry

/-- A table in words is the one that its text names. -/
theorem Scope.table_of_text {v : Value} {s : String} (h : v.text? = some s) (scope : Scope) :
    (scope.table v).text? = some (scope.registry.tableNamed s) := by
  rw [Scope.table, Registry.tableNamed, Registry.lookup?_of_text h]
  cases scope.registry.lookupName? s with
  | none => exact h
  | some m => exact Name.text?_toValue _

/-! ## Fields of the canonical model -/

/-- A model that is found by its own name speaks for its fields, whether they are called without it,
with its name or with its table. -/
theorem Scope.resolve_own_field {scope : Scope} {m : Model} (hcanonical : scope.canonical = some m)
    (hname : scope.registry.lookupName? m.name = some m) (htable : m.table ≠ "") {name : String}
    {f : Field} (hf : m.field? name = some f) {qualifier : Option String}
    (hqualifier : qualifier ∈ [none, some m.name, some m.table]) :
    (scope.resolveField true qualifier name).toValue = dotted m.table f.column := by
  have hown : scope.ownQualifier qualifier = some m.name := by
    unfold Scope.ownQualifier
    rw [hcanonical]
    rcases List.mem_cons.mp hqualifier with rfl | hqualifier
    · rfl
    · rcases List.mem_cons.mp hqualifier with rfl | hqualifier
      · dsimp only
        split
        · rfl
        · rfl
      · rw [List.mem_singleton.mp hqualifier]
        exact if_pos rfl
  have htarget : scope.target? qualifier = some m := by
    rw [Scope.target?, hown]
    exact hname
  rw [Scope.resolveField, Scope.tableOf, Scope.columnOf, htarget, Option.bind_some, hf]
  exact congrArg Name.toValue (if_pos ⟨rfl, htable⟩)

namespace Builder

open Sql

/-! ## The one entry -/

/-- A builder as it begins for a model. -/
structure Begins (m : Model) (b : Builder) : Prop where
  canonical : b.canonical = some m
  /-- Its only entry is what the name of the model's table comes to, without an alias; this is the
  model's own table exactly if its name is settled. -/
  entry : b.draft.joins = [] ∧ ∃ table, b.draft.tables = [(table, .null)] ∧
    table.text? = some (b.registry.tableNamed m.table) ∧
    (table.text? = some m.table ↔ b.registry.Settled m.table)
  /-- A field of the model is a column of its own table in any case. -/
  fields : b.registry.lookupName? m.name = some m → m.table ≠ "" →
    ∀ name f, m.field? name = some f → ∀ qualifier ∈ [none, some m.name, some m.table],
      (b.scope.resolveField true qualifier name).toValue = dotted m.table f.column
  /-- In a statement about this entry such a column is one of the entry exactly if the name of the
  table is settled. -/
  refers : ∀ (q : Query) (k : Kind), q.tables = b.draft.tables → q.joins = [] →
    (∀ v ∈ references q, ∃ s, v.text? = some s) →
    ∃ f e, readFrame q k = .ok f ∧ f.tables = [e] ∧ f.joined = [] ∧
      ∀ v ∈ references q, ∀ column, plainColumn? v = some ⟨some m.table, column⟩ → m.table ≠ "" →
        ∃ source, f.catalog.operand v = .ok (.sql (.column (some source) column)) ∧
          (source = (f.catalog.entry e.visible).source ↔ b.registry.Settled m.table)

variable {registry : Registry} {model : Value} {m : Model} {k : Kind} {b : Builder}

/-- A query of one text without an alias. -/
theorem worded_of_entry {q : Query} {v : Value} {table : String} (htables : q.tables = [(v, .null)])
    (hjoins : q.joins = []) (hv : v.text? = some table)
    (hreferences : ∀ v ∈ references q, ∃ s, v.text? = some s) : Worded q [(table, none)] := by
  refine ⟨?_, hreferences, List.nodup_nil, nofun⟩
  rw [tableValues, htables, hjoins, List.map_nil, List.append_nil, List.mapM_cons, textEntry?, hv]
  rfl

/-- A builder whose only entry is its model's table begins with it. -/
theorem begins_of_entry {v : Value} (hcanonical : b.canonical = some m)
    (hjoins : b.draft.joins = []) (htables : b.draft.tables = [(v, .null)])
    (hv : v.text? = some (b.registry.tableNamed m.table)) : Begins m b := by
  refine ⟨hcanonical, ⟨hjoins, v, htables, hv, ?_⟩, ?_, ?_⟩
  · rw [hv, Option.some.injEq]
    exact Registry.tableNamed_eq_iff
  · intro hname htable name f hf qualifier hqualifier
    exact Scope.resolve_own_field hcanonical hname htable hf hqualifier
  · intro q k hq hqjoins hreferences
    have hworded := worded_of_entry (hq.trans htables) hqjoins hv hreferences
    have hlength : q.tables.length = 1 := congrArg List.length (hq.trans htables)
    obtain ⟨cs, hentry⟩ := entry?_visible hworded k List.mem_cons_self
    refine ⟨frameOf q _ k, entryOf (b.registry.tableNamed m.table, none), readFrame_eq hworded k,
      ?_, ?_, ?_⟩
    · rw [frameOf, hlength]
      rfl
    · rw [frameOf, hlength]
      rfl
    · intro v hv column hplain htable
      refine ⟨_, operand_reference hworded k hv hplain htable, ?_⟩
      have hsource : ((frameOf q [(b.registry.tableNamed m.table, none)] k).catalog.entry
          (entryOf (b.registry.tableNamed m.table, none)).visible).source =
          { name := .text (b.registry.tableNamed m.table), aliasOf := none } := by
        rw [Catalog.entry, frameOf, hentry]
        rfl
      rw [hsource, ← Registry.tableNamed_eq_iff]
      constructor
      · intro heq
        exact (SourceName.text.inj (congrArg Source.name heq)).symm
      · intro heq
        rw [heq]
        rfl

/-- A builder on a registered model begins with the model's table, whatever its kind. -/
theorem opened_begins (h : registry.lookup? model = some m) (k : Kind) :
    ∃ b, opened registry model k = .ok b ∧ b.kind = k ∧ Begins m b := by
  rw [opened]
  dsimp only
  rw [h]
  refine ⟨_, rfl, rfl, begins_of_entry rfl rfl rfl ?_⟩
  exact Scope.table_of_text (Name.text?_toValue _) _

/-- **A BUILDER BEGINS WITH ITS TABLE**: whatever a registered model is referred to by, a builder
can be made for it, and one that was made can be reset in any state; both begin with the canonical
model and one entry, which is the model's own table, and what its fields refer to, exactly if no
model that is stored elsewhere is called like the table. -/
theorem begins_with_own_table_iff (h : registry.lookup? model = some m) :
    (∀ kind k, kindOf kind = .ok k →
        ∃ b, create registry model kind = .ok b ∧ b.kind = k ∧ Begins m b) ∧
      ∀ b : Builder, b.registry = registry → b.model = model →
        ∃ b', b.reset = .ok b' ∧ b'.kind = b.kind ∧ Begins m b' := by
  refine ⟨fun kind k hkind => ?_, fun b hregistry hmodel => ?_⟩
  · obtain ⟨b, hopened, hk, hbegins⟩ := opened_begins h k
    refine ⟨b, ?_, hk, hbegins⟩
    have hpresent : kind.isPresent = true := by
      cases kind with
      | null => cases hkind
      | _ => rfl
    rw [create, Registry.isTrue_of_lookup? h, hpresent, hkind]
    exact hopened
  · rw [reset, hregistry, hmodel]
    exact opened_begins h b.kind

/-- A model of which only its name, its table and its fields are told. -/
def plainModel (name table : String) (fields : List Field) : Model :=
  { name, table, fields := .ofList fields, sorting := [], loadWith := [], group := defaultGroup
    primaryKey := "id", factory := none }

/-- A model in a table that is called like another model. -/
def noteModel : Model := plainModel "note" "user" [.plain "id" "" true "note"]

/-- The model that is so called. -/
def authorModel : Model := plainModel "user" "users" [.plain "id" "" true "user"]

/-- A builder for notes begins with the users, made or reset, and its fields are not among them. -/
theorem notes_begin_with_users :
    ∃ b b',
      create (.ofModels [noteModel, authorModel]) (.text "model_Note") (.text "select") = .ok b ∧
      b.draft.tables = [(.text "users", .null)] ∧
      (b.limit (.int 3)).reset = .ok b' ∧ b'.draft.tables = b.draft.tables ∧
      (b.scope.resolveField true none "id").toValue = .text "user.id" ∧
      ¬b.registry.Settled "user" := by
  obtain ⟨hcreate, hreset⟩ := @begins_with_own_table_iff (.ofModels [noteModel, authorModel])
    (.text "model_Note") noteModel rfl
  obtain ⟨b, hb, -, hbegins⟩ := hcreate (.text "select") .select rfl
  obtain ⟨b', hb', -, -⟩ := hreset (b.limit (.int 3)) (by cases hb; rfl) (by cases hb; rfl)
  cases hb
  cases hb'
  obtain ⟨-, table, htable, hnamed, hown⟩ := hbegins.entry
  cases htable
  refine ⟨_, _, rfl, rfl, rfl, rfl, ?_, fun hsettled => ?_⟩
  · exact hbegins.fields rfl (by decide) "id" _ rfl none List.mem_cons_self
  · exact absurd (hown.mpr hsettled) (by decide)

end Builder

end ModelQuery
