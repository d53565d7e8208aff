import ModelQuery.Proofs.Outcome
import ModelQuery.Proofs.Records.Tree

/-!
# The fields of a record

A tree becomes a record from the leaves up.  What a relationship holds depends on the tree below it
alone (`relationshipOf`), so the fields of the record are read off one by one (`entries_lookup`):
under the name of a relationship stands what the relationship holds, under any other name the value
the row has there.
-/

namespace ModelQuery

open Outcome

/-- The model at the end of a path of relationships, as far as it is known. -/
def modelAlong (registry : Option Registry) : Option Model → List String → Option Model
  | m, [] => m
  | m, name :: rest => modelAlong registry (relatedModel? registry m name) rest

/-- The model along a path is found step by step. -/
theorem modelAlong_append (registry : Option Registry) (path more : List String)
    (m : Option Model) :
    modelAlong registry m (path ++ more) = modelAlong registry (modelAlong registry m path) more := by
  induction path generalizing m with
  | nil => rfl
  | cons name rest ih => exact ih _

theorem modelAlong_none (registry : Option Registry) (path : List String) :
    modelAlong registry none path = none := by
  induction path with
  | nil => rfl
  | cons name rest ih => exact ih

theorem Registry.mem_of_lookupName? {r : Registry} {name : String} {m : Model}
    (h : r.lookupName? name = some m) : m ∈ r.models := by
  rw [lookupName?, lookup?] at h
  · split at h
    · exact List.mem_map.mpr ⟨_, Assoc.mem_of_lookup h, rfl⟩
    · cases h
  · intro e he
    cases he

/-- A relationship leads to what the registry has under the name of its other model. -/
theorem relatedModel?_eq_some {registry : Option Registry} {m : Option Model} {name : String}
    {c : Model} :
    relatedModel? registry m name = some c ↔
      ∃ owner f other r, m = some owner ∧ owner.relationship? name = some (f, other) ∧
        registry = some r ∧ r.lookupName? other.model = some c := by
  constructor
  · intro h
    obtain ⟨owner, howner, h⟩ := Option.bind_eq_some_iff.mp h
    obtain ⟨⟨f, other⟩, hlink, h⟩ := Option.bind_eq_some_iff.mp h
    cases registry with
    | none => cases h
    | some r => exact ⟨owner, f, other, r, howner, hlink, rfl, h⟩
  · rintro ⟨owner, f, other, r, rfl, hlink, rfl, h⟩
    rw [relatedModel?, Option.bind_eq_bind, Option.bind_some, hlink]
    exact h

/-- A model along a path is the first one, or registered. -/
theorem modelAlong_mem {registry : Option Registry} {m c : Model} {path : List String}
    (h : modelAlong registry (some m) path = some c) :
    c = m ∨ ∃ r, registry = some r ∧ c ∈ r.models := by
  induction path generalizing m with
  | nil =>
      cases h
      exact .inl rfl
  | cons name rest ih =>
      -- once the models are lost sight of, no later hop finds one
      rw [modelAlong] at h
      cases hm : relatedModel? registry (some m) name with
      | none =>
          rw [hm, modelAlong_none] at h
          cases h
      | some related =>
          rw [hm] at h
          rcases ih h with rfl | hmem
          · obtain ⟨owner, f, other, r, -, -, hr, hfound⟩ := relatedModel?_eq_some.mp hm
            exact .inr ⟨r, hr, Registry.mem_of_lookupName? hfound⟩
          · exact .inr hmem

/-- Something holds of a model and of all that its relationships lead to. -/
def Along (P : Model → Prop) (registry : Option Registry) (m : Option Model) : Prop :=
  ∀ path c, modelAlong registry m path = some c → P c

/-- What holds along all paths holds along those that go on. -/
theorem Along.further {P : Model → Prop} {registry : Option Registry} {m : Option Model}
    (h : Along P registry m) (path : List String) :
    Along P registry (modelAlong registry m path) := by
  intro more c hc
  rw [← modelAlong_append] at hc
  exact h (path ++ more) c hc

/-- A row is loaded as the tree of its cells, built by the model. -/
theorem loadRecord_eq {registry : Option Registry} {m : Model} {row : Row}
    {cells : List (String × Value)} (h : row.named = .ok cells) :
    loadRecord m registry row = (treeOf m cells).entries registry (some m) >>= m.build := by
  rw [loadRecord, h]
  rfl

/-- What a relationship of a record holds, from the tree below it. -/
def relationshipOf (registry : Option Registry) (m : Option Model) (name : String) (c : Tree) :
    Except Error Record := do
  let child := relatedModel? registry m name
  let record ← relatedRecord child (← c.entries registry child)
  return holding m name record

/-- The values of a tree's own fields. -/
def cellsOf (own : List (String × Value)) : List (String × Record) :=
  own.map fun (name, v) => (name, .cell v)

theorem lookup_cellsOf (own : List (String × Value)) (name : String) :
    (cellsOf own).lookup name = (own.lookup name).map .cell :=
  Assoc.lookup_map (fun _ => Record.cell) name own

theorem keys_cellsOf (own : List (String × Value)) :
    Assoc.keys (cellsOf own) = Assoc.keys own := by
  rw [Assoc.keys, cellsOf, List.map_map]
  rfl

section Entries

variable {registry : Option Registry} {m : Option Model} {t : Tree} {es : List (String × Record)}

/-- Relationships are written over the values of the same name, each from its own tree. -/
theorem relatedEntries_eq (sofar : List (String × Record)) (related : List (String × Tree)) :
    relatedEntries registry m sofar related =
      (related.mapM fun e => (relationshipOf registry m e.1 e.2).map fun r => (e.1, r)).map
        fun rs => Assoc.putAll rs sofar := by
  -- for any fields so far: each relationship written leaves others for those after it
  induction related generalizing sofar with
  | nil => rfl
  | cons e rest ih =>
      obtain ⟨name, c⟩ := e
      have hstep : relatedEntries registry m sofar ((name, c) :: rest) =
          (relationshipOf registry m name c).bind fun r =>
            relatedEntries registry m (Assoc.put name r sofar) rest := by
        rw [relatedEntries, relationshipOf]
        cases c.entries registry (relatedModel? registry m name) with
        | error e => rfl
        | ok es =>
            show (relatedRecord _ es >>= _) = Except.bind (relatedRecord _ es >>= _) _
            cases relatedRecord (relatedModel? registry m name) es with
            | error e => rfl
            | ok r => rfl
      rw [hstep, List.mapM_cons]
      cases relationshipOf registry m name c with
      | error e => rfl
      | ok r =>
          show relatedEntries registry m (Assoc.put name r sofar) rest = _
          rw [ih]
          show _ = Except.map _ (List.mapM _ rest >>= fun rs => pure ((name, r) :: rs))
          cases rest.mapM fun e => (relationshipOf registry m e.1 e.2).map fun r => (e.1, r) with
          | error e => rfl
          | ok rs => rfl

/-- The fields of a record, one by one: a relationship holds what the tree below it comes to, and
any other field its value. -/
theorem entries_lookup (ht : t.Ordered) (h : t.entries registry m = .ok es) (name : String) :
    match t.related.lookup name with
    | some c => ∃ r, relationshipOf registry m name c = .ok r ∧ es.lookup name = some r
    | none => es.lookup name = (t.own.lookup name).map .cell := by
  obtain ⟨own, related⟩ := t
  rw [Tree.entries, relatedEntries_eq] at h
  obtain ⟨rs, hrs, rfl⟩ := map_eq_ok h
  obtain ⟨hkeys, hlookup⟩ := lookup_of_mapM hrs
  have hnodup : (Assoc.keys rs).Nodup := hkeys ▸ ht.related_nodup
  have hname := hlookup name
  -- no relationship stands twice, so none is written over by a later one
  show match related.lookup name with
    | some c => ∃ r, relationshipOf registry m name c = .ok r ∧
        (Assoc.putAll rs (cellsOf own)).lookup name = some r
    | none => (Assoc.putAll rs (cellsOf own)).lookup name = (own.lookup name).map .cell
  rw [Assoc.lookup_putAll hnodup, lookup_cellsOf]
  cases hc : related.lookup name with
  | none =>
      rw [hc] at hname
      rw [hname]
      rfl
  | some c =>
      rw [hc] at hname
      obtain ⟨r, hr, hres⟩ := hname
      refine ⟨r, hr, ?_⟩
      rw [hres]
      rfl

/-- A relationship of the tree is an entry of the record. -/
theorem lookup_relationship (ht : t.Ordered) (h : t.entries registry m = .ok es) {name : String}
    {c : Tree} (hc : t.related.lookup name = some c) :
    ∃ r, relationshipOf registry m name c = .ok r ∧ es.lookup name = some r := by
  have hname := entries_lookup ht h name
  rw [hc] at hname
  exact hname

/-- A value of the tree is an entry of the record, unless a relationship has its name. -/
theorem lookup_own (ht : t.Ordered) (h : t.entries registry m = .ok es) {name : String}
    (hc : t.related.lookup name = none) : es.lookup name = (t.own.lookup name).map .cell := by
  have hname := entries_lookup ht h name
  rw [hc] at hname
  exact hname

/-- No entry of a record has the name of another. -/
theorem entries_nodup (ht : t.Ordered) (h : t.entries registry m = .ok es) :
    (Assoc.keys es).Nodup := by
  obtain ⟨own, related⟩ := t
  rw [Tree.entries, relatedEntries_eq] at h
  obtain ⟨rs, -, rfl⟩ := map_eq_ok h
  refine Assoc.nodup_keys_putAll rs ?_
  rw [← cellsOf, keys_cellsOf]
  exact ht.own_nodup

/-- The fields come out as soon as those of every relationship do. -/
theorem entries_isOk (ht : t.Ordered)
    (h : ∀ name c, t.related.lookup name = some c →
      ∃ r, relationshipOf registry m name c = .ok r) :
    ∃ es, t.entries registry m = .ok es := by
  obtain ⟨own, related⟩ := t
  rw [Tree.entries, relatedEntries_eq]
  have hall : ∀ e ∈ related, ∃ r,
      ((relationshipOf registry m e.1 e.2).map fun r => (e.1, r)) = .ok r := by
    intro e he
    obtain ⟨r, hr⟩ := h e.1 e.2 (Assoc.lookup_of_mem ht.related_nodup he)
    refine ⟨(e.1, r), ?_⟩
    rw [hr]
    rfl
  obtain ⟨rs, hrs⟩ := mapM_isOk hall
  refine ⟨Assoc.putAll rs (cellsOf own), ?_⟩
  rw [hrs]
  rfl

/-- One of the fields is there. -/
def somePresent (es : List (String × Record)) : Bool := es.any fun e => e.2.isPresent

/-- Something is present just if some entry is. -/
theorem somePresent_iff (h : (Assoc.keys es).Nodup) :
    somePresent es ↔ ∃ name r, es.lookup name = some r ∧ r.isPresent = true := by
  rw [somePresent, List.any_eq_true]
  constructor
  · rintro ⟨⟨name, r⟩, he, hr⟩
    exact ⟨name, r, Assoc.lookup_of_mem h he, hr⟩
  · rintro ⟨name, r, he, hr⟩
    exact ⟨(name, r), Assoc.mem_of_lookup he, hr⟩

/-- A relationship with something present is built by its model; any other one is absent. -/
theorem relationshipOf_eq {name : String} {c : Tree}
    (h : c.entries registry (relatedModel? registry m name) = .ok es) :
    relationshipOf registry m name c =
      if somePresent es then
        (buildRecord (relatedModel? registry m name) es).map (holding m name)
      else .ok (holding m name .absent) := by
  rw [relationshipOf, h]
  show (relatedRecord _ es >>= fun r => pure (holding m name r)) = _
  rw [relatedRecord]
  show ((if somePresent es then _ else _) >>= _) = _
  split
  · cases buildRecord (relatedModel? registry m name) es with
    | error e => rfl
    | ok r => rfl
  · rfl

theorem entries_of_relationshipOf {name : String} {c : Tree} {r : Record}
    (h : relationshipOf registry m name c = .ok r) :
    ∃ es, c.entries registry (relatedModel? registry m name) = .ok es := by
  rw [relationshipOf] at h
  obtain ⟨es, hes, -⟩ := bind_eq_ok h
  exact ⟨es, hes⟩

end Entries

end ModelQuery
