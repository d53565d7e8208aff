import Mathlib.Data.List.Forall2
import Mathlib.Data.List.Induction
import Mathlib.Data.List.Nodup
import ModelQuery.Schema.FieldTable

/-!
# The fields of a table

In the descriptors that a table is built from a name may come several times.  It keeps the place
where it came first and gets the descriptor that came last, and the others are gone: no column leads
to them, whatever they were stored in.  So what a table answers is said by its descriptors alone
(`FieldTable.Tabulates`).

A table that is bound is the table of the bound descriptors (`FieldTable.bind_ofList`), and all that
it answers is what the table answered, bound.
-/

namespace ModelQuery

/-! ## Lists and maps -/

/-- An item is found if no other one is looked for. -/
theorem find?_of_only {α : Type} {p : α → Bool} {xs : List α} {x : α} (hx : x ∈ xs)
    (hp : p x = true) (honly : ∀ y ∈ xs, p y = true → y = x) : xs.find? p = some x := by
  have hsome : (xs.find? p).isSome := List.find?_isSome.mpr ⟨x, hx, hp⟩
  obtain ⟨y, hy⟩ := Option.isSome_iff_exists.mp hsome
  rw [hy, honly y (List.mem_of_find?_eq_some hy) (List.find?_some hy)]

/-- Names that come again at the end change nothing about the first ones. -/
theorem eraseDups_concat (names : List String) (name : String) :
    (names ++ [name]).eraseDups =
      if name ∈ names then names.eraseDups else names.eraseDups ++ [name] := by
  rw [List.eraseDups_append, List.removeAll]
  by_cases h : name ∈ names
  · rw [if_pos h, List.filter_cons_of_neg, List.filter_nil]
    · exact List.append_nil _
    · rw [List.elem_eq_mem, decide_eq_true h]
      exact Bool.false_ne_true
  · rw [if_neg h, List.filter_cons_of_pos, List.filter_nil]
    · rfl
    · rw [List.elem_eq_mem, decide_eq_false h]
      rfl

theorem nodup_eraseDups (names : List String) : names.eraseDups.Nodup := by
  induction names using List.reverseRecOn with
  | nil => exact List.nodup_nil
  | append_singleton names name ih =>
      rw [eraseDups_concat]
      split
      · exact ih
      · rename_i hnew
        refine List.nodup_append.mpr ⟨ih, List.nodup_singleton name, fun a ha b hb => ?_⟩
        rintro rfl
        exact hnew (List.mem_singleton.mp hb ▸ List.mem_eraseDups.mp ha)

namespace Assoc

variable {α β : Type}

/-- The last entry is written into the map of those before it. -/
theorem ofList_concat (entries : List (String × α)) (e : String × α) :
    ofList (entries ++ [e]) = put e.1 e.2 (ofList entries) := by
  rw [ofList, putAll, List.foldl_append]
  rfl

/-- The keys of a map stand in the order in which they first came. -/
theorem keys_ofList (entries : List (String × α)) :
    keys (ofList entries) = (keys entries).eraseDups := by
  induction entries using List.reverseRecOn with
  | nil => rfl
  | append_singleton entries e ih =>
      have hkeys : keys (entries ++ [e]) = keys entries ++ [e.1] := List.map_append
      rw [ofList_concat, keys_put, ih, hkeys, eraseDups_concat]
      simp only [List.mem_eraseDups]

/-- Other values are written in the same places. -/
theorem put_map (f : α → β) (k : String) (v : α) (m : List (String × α)) :
    put k (f v) (m.map (Prod.map id f)) = (put k v m).map (Prod.map id f) := by
  induction m with
  | nil => rfl
  | cons e rest ih =>
      obtain ⟨k', v'⟩ := e
      rw [put, List.map_cons]
      show (if k == k' then (k', f v) :: rest.map (Prod.map id f)
        else (k', f v') :: put k (f v) (rest.map (Prod.map id f))) = _
      split
      · rfl
      · rw [ih]
        rfl

/-- A function of the values can be applied before they are put, or behind. -/
theorem putAll_map (f : α → β) (entries m : List (String × α)) :
    putAll (entries.map (Prod.map id f)) (m.map (Prod.map id f)) =
      (putAll entries m).map (Prod.map id f) := by
  induction entries generalizing m with
  | nil => rfl
  | cons e rest ih =>
      show putAll (rest.map (Prod.map id f)) (put e.1 (f e.2) (m.map (Prod.map id f))) = _
      rw [put_map, ih]
      rfl

end Assoc

namespace FieldTable

variable {fields : List Field} {t : FieldTable} {f : Field}

/-! ## Fields by name -/

theorem mem_ofList (h : f ∈ (ofList fields).toList) : f ∈ fields := by
  obtain ⟨e, he, rfl⟩ := List.mem_map.mp h
  exact (Assoc.mem_ofList_map Field.name he).1

/-- The names of a table are those of the fields, each where it stands first. -/
theorem names_ofList (fields : List Field) :
    (ofList fields).names = (fields.map (·.name)).eraseDups := by
  have hkeys : Assoc.keys (fields.map fun f => (f.name, f)) = fields.map (·.name) := by
    rw [Assoc.keys, List.map_map]
    rfl
  rw [← hkeys]
  exact Assoc.keys_ofList _

/-- Of the descriptors under a name the last is found. -/
theorem get?_ofList_eq (fields : List Field) (name : String) :
    (ofList fields).get? name = fields.reverse.find? (·.name == name) := by
  show (Assoc.putAll _ []).lookup name = _
  rw [Assoc.lookup_putAll_reverse, List.lookup_nil, Option.or_none, ← List.map_reverse,
    Assoc.lookup_map_key]

/-- A field that no other field has the name of is found under its name. -/
theorem get?_ofList (hf : f ∈ fields) (honly : ∀ g ∈ fields, g.name = f.name → g = f) :
    (ofList fields).get? f.name = some f := by
  rw [get?_ofList_eq]
  refine find?_of_only (List.mem_reverse.mpr hf) (beq_self_eq_true _) ?_
  exact fun g hg heq => honly g (List.mem_reverse.mp hg) (eq_of_beq heq)

/-- A field found in a table is found under its name. -/
theorem get?_of_mem (h : f ∈ t.toList) : t.get? f.name = some f := by
  obtain ⟨⟨name, f⟩, he, rfl⟩ := List.mem_map.mp h
  rw [show f.name = name from t.named _ he]
  exact Assoc.lookup_of_mem t.nodup he

/-- A table is that of its own fields. -/
theorem ofList_toList (t : FieldTable) : ofList t.toList = t := by
  have hentries : t.toList.map (fun f => (f.name, f)) = t.entries := by
    rw [toList, Assoc.values, List.map_map]
    refine Eq.trans (List.map_congr_left fun e he => ?_) (List.map_id t.entries)
    exact Prod.ext (t.named e he) rfl
  refine FieldTable.ext ?_
  show Assoc.putAll (t.toList.map fun f => (f.name, f)) [] = t.entries
  rw [hentries]
  exact Assoc.putAll_of_nodup t.nodup

/-! ## What the descriptors say -/

/-- The descriptor is the last that was given for the name. -/
def LastGiven (fields : List Field) (name : String) (f : Field) : Prop :=
  f.name = name ∧ ∃ before after, fields = before ++ f :: after ∧ ∀ g ∈ after, g.name ≠ name

/-- The field is the first of those stored in the column. -/
def FirstIn (fields : List Field) (column : String) (f : Field) : Prop :=
  f.column = column ∧
    ∃ before after, fields = before ++ f :: after ∧ ∀ g ∈ before, g.column ≠ column

/-- What is given last comes first from the end, and what comes behind it comes before. -/
theorem lastGiven_iff {name : String} :
    LastGiven fields name f ↔ fields.reverse.find? (·.name == name) = some f := by
  rw [LastGiven, List.find?_eq_some_iff_append, beq_iff_eq]
  refine and_congr_right fun _ => ?_
  constructor
  · rintro ⟨before, after, rfl, hafter⟩
    refine ⟨after.reverse, before.reverse, ?_, fun g hg => ?_⟩
    · rw [List.reverse_append, List.reverse_cons, List.append_assoc]
      rfl
    · simpa using hafter g (List.mem_reverse.mp hg)
  · rintro ⟨before, after, hreverse, hbefore⟩
    refine ⟨after.reverse, before.reverse, ?_, fun g hg => ?_⟩
    · rw [← List.reverse_reverse fields, hreverse, List.reverse_append, List.reverse_cons,
        List.append_assoc]
      rfl
    · simpa using hbefore g (List.mem_reverse.mp hg)

/-- The index has for a column just the first field in the database that is stored there. -/
theorem byColumn?_eq_some_iff {column : String} :
    t.byColumn? column = some f ↔ FirstIn t.inDb column f := by
  rw [byColumn?_eq, List.find?_eq_some_iff_append, FirstIn, beq_iff_eq]
  simp only [Bool.not_eq_true', beq_eq_false_iff_ne]

/-- What a table answers of the descriptors that it is built from. -/
structure Tabulates (fields : List Field) (t : FieldTable) : Prop where
  /-- Every name comes once, where it came first. -/
  names : t.names = (fields.map (·.name)).eraseDups
  /-- Under each name in turn stands the last descriptor given for it. -/
  last : List.Forall₂ (LastGiven fields) t.names t.toList
  found : ∀ name f, t.get? name = some f ↔ LastGiven fields name f
  missing : ∀ name, t.get? name = none ↔ ∀ f ∈ fields, f.name ≠ name
  inDb : t.inDb = t.toList.filter (·.inDb)
  stored : ∀ column f, t.byColumn? column = some f ↔ FirstIn t.inDb column f
  free : ∀ column, t.byColumn? column = none ↔ ∀ f ∈ t.inDb, f.column ≠ column
  /-- No column leads to a descriptor that was replaced. -/
  current : ∀ column f, t.byColumn? column = some f → LastGiven fields f.name f

/-- A table that is made of fields tabulates them. -/
theorem tabulates_ofList (fields : List Field) : Tabulates fields (ofList fields) := by
  have hfound (name : String) (f : Field) :
      (ofList fields).get? name = some f ↔ LastGiven fields name f := by
    rw [get?_ofList_eq, lastGiven_iff]
  constructor
  case names => exact names_ofList fields
  case last =>
    rw [names, toList, Assoc.keys, Assoc.values, List.forall₂_map_left_iff,
      List.forall₂_map_right_iff, List.forall₂_same]
    exact fun e he => (hfound e.1 e.2).mp (Assoc.lookup_of_mem (ofList fields).nodup he)
  case found => exact hfound
  case missing =>
    intro name
    rw [get?_ofList_eq, List.find?_eq_none]
    simp only [List.mem_reverse, beq_iff_eq]
  case inDb => rfl
  case stored => exact fun column f => byColumn?_eq_some_iff
  case free =>
    intro column
    rw [byColumn?_eq, List.find?_eq_none]
    simp only [beq_iff_eq]
  case current =>
    intro column f hstored
    rw [byColumn?_eq] at hstored
    have hmem : f ∈ (ofList fields).inDb := List.mem_of_find?_eq_some hstored
    exact (hfound f.name f).mp (get?_of_mem (List.mem_of_mem_filter hmem))

/-! ## Bound tables -/

/-- Bound fields make the table that is bound. -/
theorem entries_ofList_map (fields : List Field) (owner : String) :
    (ofList (fields.map (Field.bind owner))).entries =
      (ofList fields).entries.map (Prod.map id (Field.bind owner)) := by
  have hpairs : (fields.map (Field.bind owner)).map (fun f => (f.name, f)) =
      (fields.map fun f => (f.name, f)).map (Prod.map id (Field.bind owner)) := by
    rw [List.map_map, List.map_map]
    rfl
  show Assoc.putAll ((fields.map (Field.bind owner)).map fun f => (f.name, f)) [] = _
  rw [hpairs]
  exact Assoc.putAll_map (Field.bind owner) _ []

/-- A bound table has the same entries, each bound. -/
theorem entries_bind (t : FieldTable) (owner : String) :
    (t.bind owner).entries = t.entries.map (Prod.map id (Field.bind owner)) := by
  rw [bind, entries_ofList_map, ofList_toList]

/-- The table of bound descriptors is the table of the descriptors, bound. -/
theorem bind_ofList (fields : List Field) (owner : String) :
    (ofList fields).bind owner = ofList (fields.map (Field.bind owner)) :=
  FieldTable.ext ((entries_bind _ _).trans (entries_ofList_map _ _).symm)

theorem names_bind (t : FieldTable) (owner : String) : (t.bind owner).names = t.names := by
  rw [names, entries_bind, Assoc.keys, List.map_map]
  rfl

/-- The fields stay where they are when the table is bound. -/
theorem toList_bind (t : FieldTable) (owner : String) :
    (t.bind owner).toList = t.toList.map (Field.bind owner) := by
  rw [toList, entries_bind, toList, Assoc.values, Assoc.values, List.map_map, List.map_map]
  rfl

/-- A bound table finds the bound field under each name. -/
theorem get?_bind (t : FieldTable) (owner name : String) :
    (t.bind owner).get? name = (t.get? name).map (Field.bind owner) := by
  rw [get?, entries_bind]
  exact Assoc.lookup_map (fun _ => Field.bind owner) name t.entries

theorem inDb_bind (t : FieldTable) (owner : String) :
    (t.bind owner).inDb = t.inDb.map (Field.bind owner) := by
  rw [inDb, toList_bind, List.filter_map]
  rfl

theorem byColumn?_bind (t : FieldTable) (owner column : String) :
    (t.bind owner).byColumn? column = (t.byColumn? column).map (Field.bind owner) := by
  rw [byColumn?_eq, byColumn?_eq, inDb_bind, List.find?_map]
  rfl

/-- All fields of a table that is bound have the one owner. -/
theorem owner_of_bind {owner : String} (h : f ∈ (t.bind owner).toList) : f.owner = owner := by
  rw [toList_bind] at h
  obtain ⟨g, -, rfl⟩ := List.mem_map.mp h
  exact Field.owner_bind owner g

/-- To bind twice to one owner is to bind once. -/
theorem bind_bind (t : FieldTable) (owner : String) :
    (t.bind owner).bind owner = t.bind owner := by
  refine FieldTable.ext ?_
  rw [entries_bind, entries_bind, List.map_map]
  refine List.map_congr_left fun e _ => ?_
  exact Prod.ext rfl (Field.bind_bind owner e.2)

/-- The field has another owner; it is called, stored and flagged as it was, and leads where it
led. -/
structure Reowned (owner : String) (f g : Field) : Prop where
  owner : g.owner = owner
  name : g.name = f.name
  column : g.column = f.column
  inDb : g.inDb = f.inDb
  foreign : g.link.foreign? = f.link.foreign?
  leadsToMany : g.link.leadsToMany = f.link.leadsToMany

/-- A bound field has another owner and is else as it was. -/
theorem reowned_bind (owner : String) (f : Field) : Reowned owner f (f.bind owner) where
  owner := Field.owner_bind owner f
  name := Field.name_bind owner f
  column := Field.column_bind owner f
  inDb := Field.inDb_bind owner f
  foreign := Link.foreign?_bind owner f.link
  leadsToMany := Link.leadsToMany_bind owner f.link

/-- All that a bound table answers is what the table answered, bound. -/
structure BoundCopy (owner : String) (t u : FieldTable) : Prop where
  names : u.names = t.names
  fields : u.toList = t.toList.map (Field.bind owner)
  found : ∀ name, u.get? name = (t.get? name).map (Field.bind owner)
  inDb : u.inDb = t.inDb.map (Field.bind owner)
  stored : ∀ column, u.byColumn? column = (t.byColumn? column).map (Field.bind owner)
  alike : List.Forall₂ (Reowned owner) t.toList u.toList

/-- A bound table answers what the table answered, bound. -/
theorem boundCopy_bind (t : FieldTable) (owner : String) : BoundCopy owner t (t.bind owner) where
  names := names_bind t owner
  fields := toList_bind t owner
  found := get?_bind t owner
  inDb := inDb_bind t owner
  stored := byColumn?_bind t owner
  alike := by
    rw [toList_bind, List.forall₂_map_right_iff]
    exact List.forall₂_same.mpr fun f _ => reowned_bind owner f

/-- **THE LAST DESCRIPTOR STANDS**: a table of descriptors has every name once, where it came first,
with the descriptor that was given for it last, and leads from a column to the first of its fields
stored there.  So does the table that is bound, whose answers are those of the table, bound; and to
be bound again to the same model changes nothing. -/
theorem last_descriptor_stands (fields : List Field) (owner : String) :
    Tabulates fields (ofList fields) ∧
      BoundCopy owner (ofList fields) ((ofList fields).bind owner) ∧
      Tabulates (fields.map (Field.bind owner)) ((ofList fields).bind owner) ∧
      ((ofList fields).bind owner).bind owner = (ofList fields).bind owner := by
  have hbound : Tabulates (fields.map (Field.bind owner)) ((ofList fields).bind owner) := by
    rw [bind_ofList]
    exact tabulates_ofList _
  exact ⟨tabulates_ofList fields, boundCopy_bind _ owner, hbound, bind_bind _ owner⟩

/-- A name that is given again keeps its place; the column it had leads nowhere, and in the one it
shares now it comes first. -/
example :
    let t := ofList [.plain "id" "key" true "", .plain "body" "text" true "",
      .plain "id" "text" true ""]
    t.names = ["id", "body"] ∧ t.byColumn? "key" = none ∧
      t.byColumn? "text" = some (.plain "id" "text" true "") := by
  decide

end FieldTable

end ModelQuery
