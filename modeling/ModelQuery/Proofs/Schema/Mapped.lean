import Mathlib.Data.List.Nodup
import ModelQuery.Proofs.Schema.Registration
import ModelQuery.Schema.Mapping

/-!
# What is registered of mapped classes

A mapping is checked before it is read, and read class by class, in the order of their names.  What
a registry that came out of it has under a logical name is what the first class of that name says of
itself (`Mapping.registers_first`).  If the classes have different logical names, that is a model
for each of them: in the table of the class, with a field for each of its relationships
(`Mapping.registers`).
-/

namespace ModelQuery

open Outcome

/-! ## Members of classes -/

/-- The name the model of a class gets. -/
def MappedClass.logicalName (c : MappedClass) : String := normalizeName c.name

namespace MappedClass

variable {c : MappedClass} {r : MappedRelationship}

/-- An attribute that is told to be a relationship was described as one. -/
theorem of_mem_members {attr : String} (h : (attr, some r) ∈ c.members) :
    r ∈ c.relationships ∧ r.attr = attr := by
  rcases Assoc.mem_putAll h with hwritten | hnone
  · rcases List.mem_append.mp hwritten with hcolumn | hrelated
    · split at hcolumn
      · cases hcolumn
      · obtain ⟨column, -, heq⟩ := List.mem_map.mp hcolumn
        exact nomatch congrArg Prod.snd heq
    · obtain ⟨r', hr', heq⟩ := List.mem_map.mp hrelated
      obtain rfl := Option.some.inj (congrArg Prod.snd heq)
      exact ⟨hr', congrArg Prod.fst heq⟩
  · cases hnone

theorem mem_members (hr : r ∈ c.settled.relationships) : (r.attr, some r) ∈ c.members := by
  obtain ⟨hr, -⟩ := List.mem_filter.mp hr
  obtain ⟨member, hmember, heq⟩ := List.mem_filterMap.mp hr
  obtain ⟨⟨attr, value⟩, he, rfl⟩ := List.mem_map.mp hmember
  cases heq
  rw [(of_mem_members he).2]
  exact he

/-- Of a class that is settled one relationship has an attribute. -/
theorem eq_of_attr {r' : MappedRelationship} (hr : r ∈ c.settled.relationships)
    (hr' : r' ∈ c.settled.relationships) (h : r'.attr = r.attr) : r' = r := by
  have hnodup : (Assoc.keys c.members).Nodup := Assoc.nodup_keys_putAll _ List.nodup_nil
  have hfound := Assoc.lookup_of_mem hnodup (mem_members hr)
  have hfound' := Assoc.lookup_of_mem hnodup (mem_members hr')
  rw [h, hfound] at hfound'
  cases hfound'
  rfl

theorem relates_of_settled (hr : r ∈ c.settled.relationships) : c.relates r.attr = true :=
  List.any_eq_true.mpr ⟨r, (of_mem_members (mem_members hr)).1, beq_self_eq_true r.attr⟩

theorem columns_ne_nil_of_leading (h : c.leading?.isNone ≠ true) : c.columns ≠ [] := by
  intro hnil
  rw [leading?, primaryColumns, hnil] at h
  exact h rfl

/-- A class that can be made has columns. -/
theorem settled_columns_ne_nil {taken : List String} (h : c.check taken = .ok ()) :
    c.settled.columns ≠ [] := by
  rw [check] at h
  split at h
  · cases h
  obtain ⟨done, -, h⟩ := bind_eq_ok h
  refine columns_ne_nil_of_leading fun hnone => ?_
  rw [hnone] at h
  by_cases hrelated : (c.imperative && c.columns.any fun column => c.relates column.attr) = true
  · rw [if_pos hrelated] at h
    cases h
  · rw [if_neg hrelated] at h
    cases h

/-- What is known of a class that can be made. -/
structure Made (c : MappedClass) (taken : List String) : Prop where
  table : c.settled.mappedTable.check taken = .ok ()
  unrelated : c.imperative = true → ∀ column ∈ c.columns, c.relates column.attr = false
  free : c.table ∉ taken

/-- A class that passes its check can be made. -/
theorem made_of_check {taken : List String} (h : c.check taken = .ok ()) : c.Made taken := by
  have hcolumns := settled_columns_ne_nil h
  rw [check] at h
  split at h
  · cases h
  obtain ⟨done, htable, h⟩ := bind_eq_ok h
  constructor
  case table => exact htable
  case unrelated =>
    intro himperative column hcolumn
    by_contra hrelates
    rw [Bool.not_eq_false] at hrelates
    rw [himperative, List.any_eq_true.mpr ⟨column, hcolumn, hrelates⟩] at h
    cases h
  case free =>
    intro htaken
    -- the table of a class has columns, so its name must not be taken
    rw [MappedTable.check, if_pos] at htable
    · cases htable
    · rw [Bool.and_eq_true, List.contains_iff_mem, Bool.not_eq_true', List.isEmpty_eq_false_iff]
      exact ⟨htaken, mt List.map_eq_nil_iff.mp hcolumns⟩

/-- A column of a class that can be made is not called like a relationship. -/
theorem attr_ne_of_check {taken : List String} (h : c.check taken = .ok ()) {column : MappedColumn}
    (hcolumn : column ∈ c.settled.columns) (hr : r ∈ c.settled.relationships) :
    column.attr ≠ r.attr := by
  intro heq
  have hrelates := relates_of_settled hr
  rw [← heq] at hrelates
  show False
  rw [settled, settledColumns] at hcolumn
  dsimp only at hcolumn
  split at hcolumn
  · rename_i himperative
    rw [(made_of_check h).unrelated himperative column hcolumn] at hrelates
    cases hrelates
  · obtain ⟨-, hfree⟩ := List.mem_filter.mp hcolumn
    rw [hrelates, Bool.not_true, Bool.and_false] at hfree
    cases hfree

/-- The members of a class are told apart: no column is called like a relationship, and no two
relationships are called alike. -/
structure Apart (c : MappedClass) : Prop where
  column : ∀ column ∈ c.columns, ∀ r ∈ c.relationships, column.attr ≠ r.attr
  relationship : ∀ r ∈ c.relationships, ∀ r' ∈ c.relationships, r'.attr = r.attr → r' = r

/-- Those of a class that can be made are, once it is settled. -/
theorem apart_of_check {taken : List String} (h : c.check taken = .ok ()) : c.settled.Apart where
  column := fun _ hcolumn _ hr => attr_ne_of_check h hcolumn hr
  relationship := fun _ hr _ hr' => eq_of_attr hr hr'

end MappedClass

/-! ## Mappings -/

namespace Mapping

variable {described m : Mapping} {c : MappedClass} {r : MappedRelationship}

theorem mem_of_target {name : String} (h : m.target name = .ok c) : c ∈ m.classes := by
  rw [Mapping.target] at h
  split at h
  · rename_i hnamed
    cases h
    have hmem : c ∈ m.named name := hnamed ▸ List.mem_cons_self
    exact (List.mem_filter.mp hmem).1
  · split at h
    · cases h
    · cases h
  · cases h

theorem mem_of_association {name : String} {t : MappedTable} (h : m.association name = .ok t) :
    t ∈ m.allTables := by
  rw [Mapping.association] at h
  split at h
  · rename_i hfound
    cases h
    exact List.mem_of_find?_eq_some hfound
  · split at h
    · cases h
    · cases h

/-- What is known of a route: it is one of the relationship it was asked for, its target is a class
of the mapping, and the ways there are connected. -/
structure Leads (m : Mapping) (c : MappedClass) (r : MappedRelationship) (route : Route) : Prop where
  relationship : route.relationship = r
  target : route.target ∈ m.classes
  way : ∃ meant, r.foreignKey.mapM m.place = .ok meant ∧
    match route.way with
    | .through t => t ∈ m.allTables ∧
        checkAssociation r meant c.mappedTable route.target.mappedTable t = .ok ()
    | .direct j => ∃ remote, r.remote.mapM m.place = .ok remote ∧
        directJoin meant remote c.mappedTable route.target.mappedTable = .ok j

/-- A route leads from its class over its relationship. -/
theorem leads_of_route {route : Route} (h : m.route c r = .ok route) : m.Leads c r route := by
  rw [Mapping.route] at h
  obtain ⟨through, hthrough, h⟩ := bind_eq_ok h
  obtain ⟨meant, hmeant, h⟩ := bind_eq_ok h
  obtain ⟨remote, hremote, h⟩ := bind_eq_ok h
  obtain ⟨target, htarget, h⟩ := bind_eq_ok h
  cases through with
  | none =>
      obtain ⟨join, hjoin, h⟩ := bind_eq_ok h
      cases h
      exact ⟨rfl, mem_of_target htarget, meant, hmeant, remote, hremote, hjoin⟩
  | some t =>
      obtain ⟨done, hdone, h⟩ := bind_eq_ok h
      cases h
      refine ⟨rfl, mem_of_target htarget, meant, hmeant, ?_, hdone⟩
      cases hsecondary : r.secondary with
      | none =>
          rw [hsecondary] at hthrough
          cases hthrough
      | some name =>
          rw [hsecondary] at hthrough
          obtain ⟨t', hassociation, heq⟩ := map_eq_ok hthrough
          cases heq
          exact mem_of_association hassociation

/-- What the field of a relationship is. -/
structure FieldOf (route : Route) (f : Field) : Prop where
  /-- It is called like the relationship. -/
  name : f.name = route.relationship.attr
  /-- It is no column. -/
  inDb : f.inDb = false
  /-- It leads to the model of the target: through an association table to many, or along a foreign
  key as its holder and the class say. -/
  link : ∃ column, let other : Foreign := ⟨route.target.logicalName, column⟩
    (∃ t association, route.way = .through t ∧ f.link = .manyToMany other association) ∨
      ∃ j, route.way = .direct j ∧ f.link =
        if j.toOne then .belongsTo other
        else if route.relationship.uselist.getD true then .hasMany other
        else .hasOne other

/-- A direct relationship gives such a field, whatever its kind. -/
theorem fieldOf_direct (route : Route) (j : DirectJoin) (hway : route.way = .direct j) :
    FieldOf route (directField route.relationship route.target j) := by
  rw [directField]
  split
  · rename_i hone
    exact ⟨rfl, rfl, j.foreign, .inr ⟨j, hway, (if_pos hone).symm⟩⟩
  · rename_i hone
    split
    · rename_i htold
      refine ⟨rfl, rfl, j.foreign, .inr ⟨j, hway, ?_⟩⟩
      rw [if_neg hone, if_pos htold]
      rfl
    · rename_i htold
      refine ⟨rfl, rfl, j.foreign, .inr ⟨j, hway, ?_⟩⟩
      rw [if_neg hone, if_neg htold]
      rfl

/-- The field that a relationship gives, if any, is such a field. -/
theorem of_relationshipField {route : Route} {f : Field}
    (h : relationshipField m c route = .ok (some f)) : FieldOf route f := by
  rw [relationshipField] at h
  split at h
  · rename_i t hway
    obtain ⟨done, -, h⟩ := bind_eq_ok h
    rw [throughField] at h
    split at h
    · obtain ⟨made, hmade, h⟩ := bind_eq_ok h
      cases h
      rw [Field.manyToMany] at hmade
      split at hmade
      · cases hmade
      · cases hmade
        exact ⟨rfl, rfl, _, .inl ⟨t, _, hway, rfl⟩⟩
    · cases h
  · rename_i j hway
    cases h
    exact fieldOf_direct route j hway

/-- The field of a relationship has its name. -/
theorem name_of_field {r : MappedRelationship} {route : Route} {f : Field}
    (hroute : m.route c r = .ok route) (hfield : relationshipField m c route = .ok (some f)) :
    f.name = r.attr := by
  rw [(of_relationshipField hfield).name, (leads_of_route hroute).relationship]

/-- What is registered of a class. -/
structure Registers (m : Mapping) (c : MappedClass) (model : Model) : Prop where
  name : model.name = c.logicalName
  table : model.table = c.table
  named : c.table ≠ ""
  relationships : ∀ r ∈ c.relationships, ∃ route found, m.route c r = .ok route ∧
    relationshipField m c route = .ok found ∧
    ∀ f, found = some f → model.field? r.attr = some (f.bind model.name)

/-- A mapping that passes its check has classes that do. -/
theorem class_check (h : described.check = .ok ()) (hc : c ∈ described.classes) :
    ∃ taken, c.check taken = .ok () := by
  obtain ⟨taken, -, h⟩ := bind_eq_ok h
  obtain ⟨taken', hclasses, -⟩ := bind_eq_ok h
  obtain ⟨before, after, hcheck⟩ := of_foldlM_ok hclasses hc
  obtain ⟨done, hcheck, -⟩ := bind_eq_ok hcheck
  exact ⟨before, hcheck⟩

/-- No two classes of a mapping that can be made have a table in common. -/
theorem tables_nodup (h : described.check = .ok ()) :
    (described.classes.map (·.table)).Nodup := by
  have hfold {classes : List MappedClass} {taken taken' : List String}
      (h : classes.foldlM (fun taken c => do c.check taken; return c.table :: taken) taken =
        (.ok taken' : Except Error (List String))) :
      (classes.map (·.table)).Nodup ∧ ∀ c ∈ classes, c.table ∉ taken := by
    induction classes generalizing taken with
    | nil => exact ⟨List.nodup_nil, nofun⟩
    | cons c rest ih =>
        rw [List.foldlM_cons] at h
        obtain ⟨taken₁, hmade, h⟩ := bind_eq_ok h
        obtain ⟨done, hcheck, heq⟩ := bind_eq_ok hmade
        obtain rfl := Except.ok.inj heq
        obtain ⟨hnodup, hfree⟩ := ih h
        refine ⟨List.nodup_cons.mpr ⟨?_, hnodup⟩, List.forall_mem_cons.mpr ⟨?_, ?_⟩⟩
        · rintro hmem
          obtain ⟨c', hc', heq⟩ := List.mem_map.mp hmem
          exact hfree c' hc' (heq ▸ List.mem_cons_self)
        · exact (MappedClass.made_of_check hcheck).free
        · exact fun c' hc' htaken => hfree c' hc' (List.mem_cons_of_mem _ htaken)
  obtain ⟨taken, -, h⟩ := bind_eq_ok h
  obtain ⟨taken', hclasses, -⟩ := bind_eq_ok h
  exact (hfold hclasses).1

/-- No two settled classes have one table. -/
theorem settled_tables_nodup (h : described.check = .ok ()) :
    (described.settled.classes.map (·.table)).Nodup := by
  have hsame : described.settled.classes.map (·.table) = described.classes.map (·.table) := by
    show (described.classes.map _).map _ = _
    rw [List.map_map]
    rfl
  rw [hsame]
  exact tables_nodup h

/-- Classes of one table are one class. -/
theorem eq_of_table (h : described.check = .ok ()) {c' : MappedClass}
    (hc : c ∈ described.settled.classes) (hc' : c' ∈ described.settled.classes)
    (htable : c.table = c'.table) : c = c' :=
  List.inj_on_of_nodup_map (settled_tables_nodup h) hc hc' htable

/-- A table that passes its check has columns with names of their own. -/
theorem nodup_of_table_check {taken : List String} {t : MappedTable} (h : t.check taken = .ok ()) :
    (t.columns.map (·.name)).Nodup := by
  rw [MappedTable.check] at h
  split at h
  · cases h
  · split at h
    · assumption
    · cases h

/-- Every table of a mapping that can be made has columns of different names. -/
theorem nodup_of_check (h : described.check = .ok ()) {t : MappedTable}
    (ht : t ∈ described.settled.allTables) : (t.columns.map (·.name)).Nodup := by
  rcases List.mem_append.mp ht with ht | ht
  · obtain ⟨taken, htables, -⟩ := bind_eq_ok h
    obtain ⟨before, after, hcheck⟩ := of_foldlM_ok htables ht
    obtain ⟨done, hcheck, -⟩ := bind_eq_ok hcheck
    exact nodup_of_table_check hcheck
  · obtain ⟨c, hc, rfl⟩ := List.mem_map.mp ht
    obtain ⟨c', hc', rfl⟩ := List.mem_map.mp hc
    obtain ⟨taken, hcheck⟩ := class_check h hc'
    exact nodup_of_table_check (MappedClass.made_of_check hcheck).table

/-- What is said about the model of a class. -/
theorem of_registration {x : Registration} {routes : List Route}
    (h : c.registration m routes = .ok x) :
    ∃ related, routes.mapM (relationshipField m c) = .ok related ∧ c.table ≠ "" ∧
      x.model = .modelClass c.name ∧ x.table = c.table ∧
      x.fields = c.columns.map columnField ++ related.filterMap id ∧
      x.factory = some (Record.instanceOf c.name (slotFor c x.fields)) := by
  rw [MappedClass.registration] at h
  obtain ⟨related, hrelated, h⟩ := bind_eq_ok h
  split at h
  · cases h
  · rename_i hnamed
    obtain rfl := Except.ok.inj h
    exact ⟨related, hrelated, mt String.isEmpty_iff.mpr hnamed, rfl, rfl, rfl, rfl⟩

/-- Each field that is described beside the columns is that of a relationship, and called like
it. -/
theorem of_related {routes : List Route} {related : List (Option Field)}
    (hroutes : c.relationships.mapM (m.route c) = .ok routes)
    (hrelated : routes.mapM (relationshipField m c) = .ok related) {f : Field}
    (hf : f ∈ related.filterMap id) :
    ∃ r ∈ c.relationships, ∃ route, m.route c r = .ok route ∧
      relationshipField m c route = .ok (some f) ∧ f.name = r.attr := by
  obtain ⟨found, hfound, hsome⟩ := List.mem_filterMap.mp hf
  obtain rfl : found = some f := hsome
  obtain ⟨route, hroute, hfield⟩ := exists_of_mapM hrelated hfound
  obtain ⟨r, hr, hway⟩ := exists_of_mapM hroutes hroute
  exact ⟨r, hr, route, hway, hfield, name_of_field hway hfield⟩

/-- Of members that are told apart, the field of a relationship is the only one that is called like
it. -/
theorem eq_of_described (happart : c.Apart) {routes : List Route} {related : List (Option Field)}
    (hroutes : c.relationships.mapM (m.route c) = .ok routes)
    (hrelated : routes.mapM (relationshipField m c) = .ok related) (hr : r ∈ c.relationships)
    {route : Route} {f : Field} (hroute : m.route c r = .ok route)
    (hfield : relationshipField m c route = .ok (some f)) {g : Field}
    (hg : g ∈ c.columns.map columnField ++ related.filterMap id) (heq : g.name = r.attr) :
    g = f := by
  rcases List.mem_append.mp hg with hg | hg
  · obtain ⟨column, hcolumn, rfl⟩ := List.mem_map.mp hg
    exact absurd heq (happart.column column hcolumn r hr)
  · obtain ⟨r', hr', route', hroute', hfield', hname⟩ := of_related hroutes hrelated hg
    obtain rfl := happart.relationship r hr r' hr' (hname.symm.trans heq)
    obtain rfl := Except.ok.inj (hroute.symm.trans hroute')
    exact Option.some.inj (Except.ok.inj (hfield'.symm.trans hfield))

/-- The model that comes to a class whose members are told apart has its relationships for
fields. -/
theorem registers_of_registration {x : Registration} {routes : List Route} {model : Model}
    (hx : c.registration m routes = .ok x) (hroutes : c.relationships.mapM (m.route c) = .ok routes)
    (happart : c.Apart) (hmodel : Registry.modelOf c.logicalName x = .ok model) :
    m.Registers c model := by
  obtain ⟨related, hrelated, hnamed, -, htable, hfields, -⟩ := of_registration hx
  obtain ⟨hname, htable', hfields', -⟩ := Registry.of_modelOf hmodel
  rw [htable, orElse, if_neg hnamed] at htable'
  refine ⟨hname, htable', hnamed, fun r hr => ?_⟩
  obtain ⟨route, hmem, hroute⟩ := mem_of_mapM hroutes hr
  obtain ⟨found, hfound, hfield⟩ := mem_of_mapM hrelated hmem
  refine ⟨route, found, hroute, hfield, ?_⟩
  rintro f rfl
  have hattr : f.name = r.attr := name_of_field hroute hfield
  rw [← hattr, Model.field?, hfields', hfields, hname]
  rw [FieldTable.get?_bind, Option.map_eq_some_iff]
  refine ⟨f, FieldTable.get?_ofList ?_ fun g hg heq => ?_, rfl⟩
  · exact List.mem_append_right _ (List.mem_filterMap.mpr ⟨_, hfound, rfl⟩)
  · exact eq_of_described happart hroutes hrelated hr hroute hfield hg (heq.trans hattr)

/-- A class all of whose members stay. -/
theorem settled_of_kept (hcolumns : c.settledColumns = c.columns)
    (hrelationships : c.settledRelationships = c.relationships) : c.settled = c := by
  rw [MappedClass.settled, hcolumns, hrelationships]

/-- The routes are those of the classes. -/
theorem map_of_routes {α : Type} {routes : List (MappedClass × List Route)}
    (h : m.routes = .ok routes) (f : MappedClass → α) :
    routes.map (fun e => f e.1) = m.classes.map f := by
  refine map_of_mapM h fun c entry hentry => ?_
  obtain ⟨rs, -, hentry⟩ := bind_eq_ok hentry
  cases hentry
  rfl

/-- Classes in the order of their names are registered as they come. -/
theorem registry_of_sorted
    (h : (described.settled.classes.map (·.name)).Pairwise fun a b => decide (a ≤ b) = true) :
    described.registry = (do
      described.check
      let routes ← described.settled.routes
      let registrations ← routes.mapM fun e => e.1.registration described.settled e.2
      Registry.empty.registerAll registrations) := by
  rw [Mapping.registry]
  dsimp only
  cases hroutes : described.settled.routes with
  | error e => rfl
  | ok routes =>
      rw [← map_of_routes hroutes, List.pairwise_map] at h
      show (described.check >>= fun _ =>
        (routes.mergeSort fun a b => decide (a.1.name ≤ b.1.name)).mapM _ >>= _) = _
      rw [List.mergeSort_of_pairwise h]
      rfl

/-! ## The registry of a mapping -/

/-- The classes in the order of their names, in which they are registered. -/
def inOrder (m : Mapping) : List MappedClass :=
  m.classes.mergeSort fun a b => decide (a.name ≤ b.name)

/-- The first class of a logical name. -/
def first? (m : Mapping) (name : String) : Option MappedClass :=
  m.inOrder.find? fun c => decide (c.logicalName = name)

theorem mem_inOrder : c ∈ m.inOrder ↔ c ∈ m.classes := (List.mergeSort_perm ..).mem_iff

/-- What comes first under a name is a class of this name. -/
theorem mem_of_first? {name : String} (h : m.first? name = some c) :
    c ∈ m.classes ∧ c.logicalName = name := by
  have hname := List.find?_some h
  exact ⟨mem_inOrder.mp (List.mem_of_find?_eq_some h), of_decide_eq_true hname⟩

/-- Every logical name of a class has a first class. -/
theorem exists_first? (hc : c ∈ m.classes) : ∃ first, m.first? c.logicalName = some first :=
  Option.isSome_iff_exists.mp
    (List.find?_isSome.mpr ⟨c, mem_inOrder.mpr hc, decide_eq_true rfl⟩)

/-- Of classes of different logical names each is the first of its own. -/
theorem first?_of_nodup (h : (m.classes.map MappedClass.logicalName).Nodup) (hc : c ∈ m.classes) :
    m.first? c.logicalName = some c := by
  obtain ⟨first, hfirst⟩ := exists_first? hc
  obtain ⟨hmem, hname⟩ := mem_of_first? hfirst
  rw [hfirst, List.inj_on_of_nodup_map h hmem hc hname]

/-- What is said about the model of a class, with the ways of its relationships. -/
def Describes (m : Mapping) (c : MappedClass) (x : Registration) : Prop :=
  ∃ routes, c.relationships.mapM (m.route c) = .ok routes ∧ c.registration m routes = .ok x

/-- A registration is for the model that is named as its class. -/
theorem Describes.modelName {x : Registration} (h : m.Describes c x) :
    modelName x.model = c.logicalName := by
  obtain ⟨routes, -, hx⟩ := h
  obtain ⟨related, -, -, hmodel, -⟩ := of_registration hx
  rw [hmodel]
  rfl

/-- A registry comes from registrations of the classes of a mapping that can be made, in order. -/
theorem describes_in_order {g : Registry} (h : described.registry = .ok g) :
    described.check = .ok () ∧ ∃ registrations : List Registration,
      Registry.empty.registerAll registrations = .ok g ∧
      List.Forall₂ described.settled.Describes described.settled.inOrder registrations := by
  rw [Mapping.registry] at h
  obtain ⟨done, hcheck, h⟩ := bind_eq_ok h
  obtain ⟨routes, hroutes, h⟩ := bind_eq_ok h
  obtain ⟨registrations, hregistrations, h⟩ := bind_eq_ok h
  refine ⟨hcheck, registrations, h, ?_⟩
  have hclasses : (routes.mergeSort fun a b => decide (a.1.name ≤ b.1.name)).map Prod.fst =
      described.settled.inOrder := by
    rw [inOrder, List.map_mergeSort (s := fun a b : MappedClass => decide (a.name ≤ b.name))
      (fun a _ b _ => rfl)]
    exact congrArg (List.mergeSort · _) ((map_of_routes hroutes id).trans (List.map_id _))
  have hways : ∀ e ∈ routes.mergeSort fun a b => decide (a.1.name ≤ b.1.name),
      e.1.relationships.mapM (described.settled.route e.1) = .ok e.2 := by
    intro e he
    obtain ⟨c, -, hroute⟩ := exists_of_mapM hroutes ((List.mergeSort_perm ..).mem_iff.mp he)
    obtain ⟨ways, hways, heq⟩ := bind_eq_ok hroute
    obtain rfl := Except.ok.inj heq
    exact hways
  rw [← hclasses, List.forall₂_map_left_iff]
  exact ((List.forall₂_and_left _ _).mpr ⟨hways, forall₂_of_mapM hregistrations⟩).imp
    fun e x he => ⟨e.2, he⟩

/-- A registry comes from registrations of all classes of a mapping that can be made. -/
theorem registrations_of_registry {g : Registry} (h : described.registry = .ok g) :
    described.check = .ok () ∧ ∃ registrations : List Registration,
      Registry.empty.registerAll registrations = .ok g ∧
      (registrations.map fun x => modelName x.model).Perm
        (described.settled.classes.map MappedClass.logicalName) ∧
      ∀ c ∈ described.settled.classes, ∃ routes, ∃ x ∈ registrations,
        c.relationships.mapM (described.settled.route c) = .ok routes ∧
        c.registration described.settled routes = .ok x := by
  obtain ⟨hcheck, registrations, hall, hdescribes⟩ := describes_in_order h
  refine ⟨hcheck, registrations, hall, ?_, fun c hc => ?_⟩
  · have hnames : described.settled.inOrder.map MappedClass.logicalName =
        registrations.map fun x => modelName x.model := by
      rw [← List.forall₂_eq_eq_eq, List.forall₂_map_left_iff, List.forall₂_map_right_iff]
      exact hdescribes.imp fun c x hx => hx.modelName.symm
    rw [← hnames]
    exact (List.mergeSort_perm ..).map _
  · obtain ⟨n, hn, rfl⟩ := List.getElem_of_mem (mem_inOrder.mpr hc)
    have hn' : n < registrations.length := hdescribes.length_eq ▸ hn
    obtain ⟨routes, hx⟩ := hdescribes.get hn hn'
    exact ⟨routes, _, List.getElem_mem hn', hx⟩

/-- **THE FIRST CLASS IS REGISTERED**: under each logical name a registry that was read from classes
has what the first class of the name says about its model. -/
theorem registers_first {g : Registry} (h : described.registry = .ok g) {name : String}
    (hfirst : described.settled.first? name = some c) :
    ∃ x model, described.settled.Describes c x ∧ Registry.modelOf name x = .ok model ∧
      g.find? name = some model := by
  obtain ⟨-, registrations, hall, hdescribes⟩ := describes_in_order h
  obtain ⟨x, hx, hdescribed⟩ := find?_of_forall₂
    (q := fun x => decide (modelName x.model = name)) hdescribes
    (fun c x hx => by rw [hx.modelName]) hfirst
  obtain ⟨model, hmade, hfound⟩ := Registry.find?_registerAll hall rfl hx
  exact ⟨x, model, hdescribed, hmade, hfound⟩

/-- The members of the classes of a mapping that can be made are told apart. -/
theorem apart_of_check (h : described.check = .ok ()) (hc : c ∈ described.settled.classes) :
    c.Apart := by
  obtain ⟨c', hc', rfl⟩ := List.mem_map.mp hc
  obtain ⟨taken, hmakes⟩ := class_check h hc'
  exact MappedClass.apart_of_check hmakes

/-- Of classes of different logical names every one has a model, of what it says itself. -/
theorem describes_of_registry {g : Registry} (h : described.registry = .ok g)
    (hnames : (described.settled.classes.map MappedClass.logicalName).Nodup)
    (hc : c ∈ described.settled.classes) :
    c.Apart ∧ ∃ x model, described.settled.Describes c x ∧
      Registry.modelOf c.logicalName x = .ok model ∧ g.find? c.logicalName = some model :=
  ⟨apart_of_check (describes_in_order h).1 hc, registers_first h (first?_of_nodup hnames hc)⟩

/-- **CLASSES ARE REGISTERED**: a registry that was read from classes of different logical names has
a model for each, in the class's own table and with the fields of its relationships. -/
theorem registers {g : Registry} (h : described.registry = .ok g)
    (hnames : (described.settled.classes.map MappedClass.logicalName).Nodup)
    (hc : c ∈ described.settled.classes) :
    ∃ model, g.find? c.logicalName = some model ∧ described.settled.Registers c model := by
  obtain ⟨happart, x, model, ⟨routes, hroutes, hx⟩, hmade, hfound⟩ :=
    describes_of_registry h hnames hc
  exact ⟨model, hfound, registers_of_registration hx hroutes happart hmade⟩

end Mapping

end ModelQuery
