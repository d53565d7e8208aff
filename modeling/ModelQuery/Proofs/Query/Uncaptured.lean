import ModelQuery.Proofs.Query.Spellings

/-!
# Names that are not captured

What names are resolved to is written down as text again, and a name that is resolved can be taken
for that of something else: a table for a model that is called alike, a column for a field that is
called alike and stored elsewhere.  A registry in which this cannot happen is `Uncaptured`.

If names are not captured and the canonical model has a name, a table that a qualifier comes to
comes to itself, and so does a column that a name comes to there (`tableOf_table`,
`columnOf_table`).
-/

namespace ModelQuery

/-! ## Names that come to themselves -/

/-- A name without any of the characters that are read in it. -/
structure IsWord (s : String) : Prop extends IsQualifier s where
  named : s ≠ ""
  oneLine : '\n' ∉ s.toList

instance (s : String) : Decidable (IsWord s) :=
  decidable_of_iff (IsQualifier s ∧ s ≠ "" ∧ '\n' ∉ s.toList)
    ⟨fun ⟨hq, hn, hl⟩ => ⟨hq, hn, hl⟩, fun h => ⟨h.1, h.2, h.3⟩⟩

/-- The characters that are read in a name stay in its logical name. -/
theorem isQualifier_of_normalizeName {s : String} (h : IsQualifier (normalizeName s)) :
    IsQualifier s where
  unquoted := fun hmem => h.unquoted (mem_normalizeName (by decide) (by decide) (by decide) hmem)
  unmarked := fun hmem => h.unmarked (mem_normalizeName (by decide) (by decide) (by decide) hmem)
  whole := fun hmem => h.whole (mem_normalizeName (by decide) (by decide) (by decide) hmem)

/-- Names of tables and columns come to nothing but themselves. -/
structure Registry.Uncaptured (r : Registry) : Prop where
  fixed : ∀ m ∈ r.models, normalizeName m.name = m.name
  tables : ∀ m ∈ r.models, IsWord m.table
  fields : ∀ m ∈ r.models, ∀ f ∈ m.fields.toList, IsWord f.name ∧ IsWord f.column
  /-- No two models are stored in one table. -/
  distinct : ∀ m ∈ r.models, ∀ m' ∈ r.models, m.table = m'.table → m.name = m'.name
  /-- A table that is called like a model is the table of that model. -/
  own : ∀ m ∈ r.models, ∀ m' ∈ r.lookupName? m.table, m'.name = m.name
  /-- A column that is called like a field is the column of that field. -/
  stored : ∀ m ∈ r.models, ∀ f ∈ m.fields.toList, m.stored f.column = f.column

instance (r : Registry) : Decidable r.Uncaptured :=
  decidable_of_iff
    ((∀ m ∈ r.models, normalizeName m.name = m.name) ∧ (∀ m ∈ r.models, IsWord m.table) ∧
      (∀ m ∈ r.models, ∀ f ∈ m.fields.toList, IsWord f.name ∧ IsWord f.column) ∧
      (∀ m ∈ r.models, ∀ m' ∈ r.models, m.table = m'.table → m.name = m'.name) ∧
      (∀ m ∈ r.models, ∀ m' ∈ r.lookupName? m.table, m'.name = m.name) ∧
      ∀ m ∈ r.models, ∀ f ∈ m.fields.toList, m.stored f.column = f.column)
    ⟨fun ⟨h₁, h₂, h₃, h₄, h₅, h₆⟩ => ⟨h₁, h₂, h₃, h₄, h₅, h₆⟩,
      fun h => ⟨h.fixed, h.tables, h.fields, h.distinct, h.own, h.stored⟩⟩

namespace Model

variable {m : Model} {f : Field} {name : String}

/-- A field's name is stored as its column. -/
theorem stored_of_mem (hf : f ∈ m.fields.toList) : m.stored f.name = f.column := by
  rw [stored, show m.field? f.name = some f from FieldTable.get?_of_mem hf]

/-- A name comes to the column of the field so called, or to itself. -/
theorem stored_cases (m : Model) (name : String) :
    (∃ f ∈ m.fields.toList, f.name = name ∧ m.stored name = f.column) ∨ m.stored name = name := by
  rw [stored]
  cases hf : m.field? name with
  | some f =>
      have hentry : (name, f) ∈ m.fields.entries := Assoc.mem_of_lookup hf
      exact .inl ⟨f, List.mem_map.mpr ⟨_, hentry, rfl⟩, FieldTable.name_of_get? hf, rfl⟩
  | none => exact .inr rfl

/-- A stored name is stored as itself. -/
theorem stored_stored {r : Registry} (h : r.Uncaptured) (hm : m ∈ r.models) (name : String) :
    m.stored (m.stored name) = m.stored name := by
  rcases m.stored_cases name with ⟨f, hf, -, hstored⟩ | hself
  · rw [hstored]
    exact h.stored m hm f hf
  · rw [hself, hself]

end Model

/-! ## What a table is taken for -/

namespace Scope

variable {s : Scope} {m : Model} {q : Option String} {name : String}

/-- Names are not captured, and the canonical model is one of the registry and has a name. -/
structure Uncaptured (s : Scope) : Prop where
  keyed : s.registry.Keyed
  registry : s.registry.Uncaptured
  canonical : ∀ m ∈ s.canonical, m ∈ s.registry.models ∧ m.name ≠ ""

theorem mem_of_target? (h : s.target? q = some m) : m ∈ s.registry.models := by
  obtain ⟨name, -, hname⟩ := Option.bind_eq_some_iff.mp h
  exact Registry.mem_of_lookupName? hname

/-- A column of what the qualifier leads to is the stored name. -/
theorem text_columnOf (h : s.target? q = some m) (name : String) :
    (s.columnOf q name).text = m.stored name := by
  rw [columnOf, h, Option.bind_some, Model.stored]
  cases m.field? name with
  | none => rfl
  | some f => rfl

namespace Uncaptured

/-- The canonical model is found under its own name. -/
theorem lookupName? (h : s.Uncaptured) (hm : m ∈ s.canonical) :
    s.registry.lookupName? m.name = some m := by
  obtain ⟨hmem, hnamed⟩ := h.canonical m hm
  exact h.keyed.lookupName?_of_normalized hmem hnamed (h.registry.fixed m hmem)

/-- A bare name is taken for one of the canonical model. -/
theorem target?_none (h : s.Uncaptured) : s.target? none = s.canonical := by
  cases hcanonical : s.canonical with
  | none =>
      unfold target? ownQualifier
      rw [hcanonical]
      rfl
  | some c => exact target?_eq hcanonical (h.lookupName? hcanonical) none

/-- A qualifier that is taken for no model is not the table of the canonical one. -/
theorem ownQualifier_of_target? (h : s.Uncaptured) {q : String} (hq : s.target? (some q) = none) :
    s.ownQualifier (some q) = some q := by
  unfold ownQualifier
  cases hcanonical : s.canonical with
  | none => rfl
  | some c =>
      refine if_neg fun htable => ?_
      rw [target?_eq hcanonical (h.lookupName? hcanonical)] at hq
      dsimp only at hq
      rw [if_pos htable] at hq
      cases hq

/-- The table of a model is taken for this model, or for none. -/
theorem eq_of_target?_table (h : s.Uncaptured) (hm : m ∈ s.registry.models) {m' : Model}
    (htarget : s.target? (some m.table) = some m') : m' = m := by
  refine h.keyed.eq_of_name (mem_of_target? htarget) hm ?_
  cases hcanonical : s.canonical with
  | none =>
      rw [target?_of_ne_table (hcanonical ▸ nofun)] at htarget
      exact h.registry.own m hm m' htarget
  | some c =>
      rw [target?_eq hcanonical (h.lookupName? hcanonical)] at htarget
      dsimp only at htarget
      split at htarget
      · rename_i htable
        cases htarget
        exact h.registry.distinct m' (h.canonical m' hcanonical).1 m hm htable.symm
      · exact h.registry.own m hm m' htarget

/-- So it comes to itself. -/
theorem tableOf_table (h : s.Uncaptured) (hm : m ∈ s.registry.models) :
    s.tableOf (some m.table) = some m.table := by
  rw [tableOf]
  cases htarget : s.target? (some m.table) with
  | none => exact h.ownQualifier_of_target? htarget
  | some m' =>
      rw [h.eq_of_target?_table hm htarget]

/-- And the column that a name comes to there comes to itself. -/
theorem columnOf_table (h : s.Uncaptured) (hm : m ∈ s.registry.models) (name : String) :
    (s.columnOf (some m.table) (m.stored name)).text = m.stored name := by
  cases htarget : s.target? (some m.table) with
  | none => rw [columnOf, htarget, Option.bind_none]
  | some m' =>
      rw [text_columnOf htarget, h.eq_of_target?_table hm htarget]
      exact Model.stored_stored h.registry hm name

end Uncaptured

end Scope

end ModelQuery
