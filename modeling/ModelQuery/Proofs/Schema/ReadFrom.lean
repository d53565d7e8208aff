import ModelQuery.Proofs.Schema.Classes

/-!
# Models read from classes

A model is read from a class column by column and relationship by relationship (`ReadFrom`).  Only
the columns are fields of its table: a relationship is never one, though its field may carry the
name of the column of a foreign key.  The model's records are instances of the class, and each
attribute takes what the field of its name leads to.

The field of a relationship leads to one record or to many (`Route.leadsToMany`), the attribute
holds one or many (`Route.holdsMany`), and the two are not always the same: what the class says of
the attribute is heard along foreign keys of the target, and nowhere else (`Route.overruled_iff`).
-/

namespace ModelQuery

open Outcome

/-! ## What is read from a class -/

/-- An attribute of a relationship takes what the field of the relationship leads to. -/
theorem MappedClass.slotFor_relationship {c : MappedClass} {fields : List Field}
    {r : MappedRelationship} {f : Field} (hr : r ∈ c.relationships)
    (hattr : ∀ r' ∈ c.relationships, r'.attr = r.attr → r' = r) (hf : f ∈ fields)
    (hname : f.name = r.attr) (honly : ∀ g ∈ fields, g.name = r.attr → g = f) :
    slotFor c fields r.attr = slotOf r.uselist f.link := by
  have hfield : fields.find? (fun g => g.name == r.attr) = some f :=
    find?_of_only hf (beq_iff_eq.mpr hname) fun g hg heq => honly g hg (eq_of_beq heq)
  have hrelationship : c.relationships.find? (fun r' => r'.attr == r.attr) = some r :=
    find?_of_only hr (beq_self_eq_true _) fun r' hr' heq => hattr r' hr' (eq_of_beq heq)
  rw [slotFor, hfield, hrelationship]
  rfl

namespace Mapping

/-- The attributes of a class take anything for its columns, and for its relationships what their
fields lead to. -/
structure SlotsOf (m : Mapping) (c : MappedClass) (slot : String → Record.Slot) : Prop where
  columns : ∀ column ∈ c.columns, slot column.attr = .anything
  relationships : ∀ r ∈ c.relationships, ∀ route f, m.route c r = .ok route →
    relationshipField m c route = .ok (some f) → slot r.attr = slotOf r.uselist f.link

/-- A model is read from a class: its fields are the columns of the class, which alone are in its
table, and the relationships, and its records are instances of the class. -/
structure ReadFrom (m : Mapping) (c : MappedClass) (model : Model) : Prop where
  name : model.name = c.logicalName
  columns : model.fields.inDb = c.attributes.map fun column => (columnField column).bind model.name
  related : ∀ r ∈ c.relationships, ∀ route f, m.route c r = .ok route →
    relationshipField m c route = .ok (some f) → model.field? r.attr = some (f.bind model.name)
  only : ∀ name f, model.field? name = some f →
    (∃ column ∈ c.columns, column.attr = name ∧ f.link = .plain) ∨
      ∃ r ∈ c.relationships, r.attr = name ∧ ∃ route f₀, m.route c r = .ok route ∧
        relationshipField m c route = .ok (some f₀) ∧ f = f₀.bind model.name
  made : ∃ slot, model.factory = some (Record.instanceOf c.name slot) ∧ m.SlotsOf c slot

/-- A field that is found was described. -/
theorem of_field?_ofList {fields : List Field} {owner name : String} {f : Field}
    (h : ((FieldTable.ofList fields).bind owner).get? name = some f) :
    ∃ f₀ ∈ fields, f₀.name = name ∧ f = f₀.bind owner := by
  rw [FieldTable.get?_bind] at h
  obtain ⟨f₀, hf₀, rfl⟩ := Option.map_eq_some_iff.mp h
  have hmem : f₀ ∈ (FieldTable.ofList fields).toList :=
    List.mem_map.mpr ⟨(name, f₀), Assoc.mem_of_lookup hf₀, rfl⟩
  exact ⟨f₀, FieldTable.mem_ofList hmem, FieldTable.name_of_get? hf₀, rfl⟩

/-- The model that comes to a class by its registration was read from the class. -/
theorem readFrom_of_describes {m : Mapping} {c : MappedClass} {x : Registration} {model : Model}
    (hx : m.Describes c x) (happart : c.Apart)
    (hmodel : Registry.modelOf c.logicalName x = .ok model) : m.ReadFrom c model := by
  have hismodel := isModel_of_describes hx happart hmodel
  obtain ⟨routes, hroutes, hx⟩ := hx
  have hregisters := registers_of_registration hx hroutes happart hmodel
  obtain ⟨related, hrelated, -, -, -, hfields, hfactory⟩ := of_registration hx
  obtain ⟨hname, -, hfields', hfactory'⟩ := Registry.of_modelOf hmodel
  constructor
  case name => exact hname
  case columns => exact hismodel.columns
  case related =>
    intro r hr route f hroute hfield
    obtain ⟨route', found, hroute', hfound, hall⟩ := hregisters.relationships r hr
    obtain rfl := Except.ok.inj (hroute.symm.trans hroute')
    obtain rfl := Except.ok.inj (hfield.symm.trans hfound)
    exact hall f rfl
  case only =>
    intro name f hf
    rw [Model.field?, hfields'] at hf
    obtain ⟨f₀, hf₀, rfl, rfl⟩ := of_field?_ofList hf
    rw [hfields] at hf₀
    rcases List.mem_append.mp hf₀ with hf₀ | hf₀
    · obtain ⟨column, hcolumn, rfl⟩ := List.mem_map.mp hf₀
      exact .inl ⟨column, hcolumn, rfl, rfl⟩
    · obtain ⟨r, hr, route, hroute, hfield, hattr⟩ := of_related hroutes hrelated hf₀
      exact .inr ⟨r, hr, hattr.symm, route, f₀, hroute, hfield, by rw [hname]⟩
  case made =>
    refine ⟨_, hfactory'.trans hfactory, ?_, ?_⟩
    · intro column hcolumn
      rw [hfields]
      exact MappedClass.slotFor_column hcolumn
    · intro r hr route f hroute hfield
      have hname' : f.name = r.attr := name_of_field hroute hfield
      have hmem : f ∈ related.filterMap id := by
        obtain ⟨route', hmem, hroute'⟩ := mem_of_mapM hroutes hr
        obtain rfl := Except.ok.inj (hroute.symm.trans hroute')
        obtain ⟨found, hfound, hfield'⟩ := mem_of_mapM hrelated hmem
        obtain rfl := Except.ok.inj (hfield.symm.trans hfield')
        exact List.mem_filterMap.mpr ⟨_, hfound, rfl⟩
      rw [hfields]
      refine MappedClass.slotFor_relationship hr (happart.relationship r hr)
        (List.mem_append_right _ hmem) hname' fun g hg heq => ?_
      exact eq_of_described happart hroutes hrelated hr hroute hfield hg heq

/-- Of classes of different logical names every one has a model that was read from it. -/
theorem readFrom_of_registry {described : Mapping} {g : Registry} (h : described.registry = .ok g)
    (hnames : (described.settled.classes.map MappedClass.logicalName).Nodup) {c : MappedClass}
    (hc : c ∈ described.settled.classes) :
    ∃ model, g.find? c.logicalName = some model ∧ described.settled.ReadFrom c model := by
  obtain ⟨happart, x, model, hx, hmade, hfound⟩ := describes_of_registry h hnames hc
  exact ⟨model, hfound, readFrom_of_describes hx happart hmade⟩

/-- A relationship's field leads to its target. -/
theorem foreign?_of_relationshipField {m : Mapping} {c : MappedClass} {route : Route} {f : Field}
    (h : relationshipField m c route = .ok (some f)) :
    ∃ column, f.link.foreign? = some ⟨route.target.logicalName, column⟩ := by
  obtain ⟨column, ⟨t, association, -, hlink⟩ | ⟨j, -, hlink⟩⟩ := (of_relationshipField h).link
  · refine ⟨column, ?_⟩
    rw [hlink]
    rfl
  · refine ⟨column, ?_⟩
    rw [hlink]
    split
    · rfl
    · split
      · rfl
      · rfl

end Mapping

namespace MappedClass

variable {c : MappedClass} {column : MappedColumn}

theorem mem_attributes (h : column ∈ c.attributes) : column ∈ c.columns := by
  obtain ⟨e, he, rfl⟩ := List.mem_map.mp h
  exact (Assoc.mem_ofList_map MappedColumn.attr he).1

/-- Every attribute of a column is kept, if for another column. -/
theorem exists_attribute (h : column ∈ c.columns) :
    ∃ column' ∈ c.attributes, column'.attr = column.attr := by
  have hkey : column.attr ∈ Assoc.keys (Assoc.ofList
      (c.columns.map fun column => (column.attr, column))) :=
    Assoc.mem_keys_putAll.mpr (.inl (List.mem_map.mpr ⟨_, List.mem_map_of_mem h, rfl⟩))
  obtain ⟨column', he⟩ := Assoc.exists_of_mem_keys hkey
  exact ⟨column', List.mem_map.mpr ⟨_, he, rfl⟩, (Assoc.mem_ofList_map MappedColumn.attr he).2⟩

/-- Where no two columns have one attribute, all columns count. -/
theorem attributes_of_nodup (h : (c.columns.map (·.attr)).Nodup) : c.attributes = c.columns := by
  have hkeys : Assoc.keys ([] ++ c.columns.map fun column => (column.attr, column)) =
      c.columns.map (·.attr) := by
    rw [List.nil_append, Assoc.keys, List.map_map]
    rfl
  rw [attributes, Assoc.ofList, Assoc.putAll_of_nodup (hkeys ▸ h), List.nil_append, Assoc.values,
    List.map_map]
  exact List.map_id _

end MappedClass

/-! ## One or many -/

namespace Route

/-- The relationship leads along a foreign key of the class itself. -/
def toOne (route : Route) : Bool :=
  match route.way with
  | .through _ => false
  | .direct j => j.toOne

/-- The attribute of the relationship holds a list: as the class says, or else by the direction. -/
def holdsMany (route : Route) : Bool := route.relationship.uselist.getD (!route.toOne)

/-- The field of the relationship leads to many.  What the class says counts only along a foreign
key of the target. -/
def leadsToMany (route : Route) : Bool :=
  match route.way with
  | .through _ => true
  | .direct j => !j.toOne && route.relationship.uselist.getD true

/-- The attribute takes a list and is given the one record. -/
def Refused (route : Route) : Prop :=
  route.toOne = true ∧ route.relationship.uselist = some true

/-- What the class says of the attribute is against the direction of the relationship, where only
the direction counts. -/
def Overruled (route : Route) : Prop :=
  route.Refused ∨ (∃ t, route.way = .through t) ∧ route.relationship.uselist = some false

/-- A route is overruled where what it leads to and what it holds differ in number. -/
theorem overruled_iff (route : Route) : route.Overruled ↔ route.leadsToMany ≠ route.holdsMany := by
  rw [Overruled, Refused, leadsToMany, holdsMany, toOne]
  cases route.way with
  | through t =>
      cases route.relationship.uselist with
      | none => simp
      | some told => simp
  | direct j =>
      cases route.relationship.uselist with
      | none => simp
      | some told => simp [and_comm]

end Route

/-- A relationship's field leads to as many as its route does. -/
theorem Mapping.leadsToMany_of_relationshipField {m : Mapping} {c : MappedClass} {route : Route}
    {f : Field} (h : relationshipField m c route = .ok (some f)) :
    f.link.leadsToMany = route.leadsToMany := by
  obtain ⟨column, ⟨t, association, hway, hlink⟩ | ⟨j, hway, hlink⟩⟩ :=
    (Mapping.of_relationshipField h).link
  · rw [hlink, Route.leadsToMany, hway]
    rfl
  · rw [hlink, Route.leadsToMany, hway]
    show _ = (!j.toOne && route.relationship.uselist.getD true)
    cases j.toOne with
    | true => rfl
    | false =>
        cases htold : route.relationship.uselist.getD true with
        | true => rfl
        | false => rfl

/-! ## Relationships that are loaded -/

/-- A relationship of a class, with its field and the way to its target, which is called
something. -/
structure RelatedBy (m : Mapping) (c : MappedClass) (route : Route) (f : Field) : Prop where
  mem : route.relationship ∈ c.relationships
  way : m.route c route.relationship = .ok route
  field : relationshipField m c route = .ok (some f)
  named : route.target.logicalName ≠ ""

/-- A relationship is loaded along one of the chains. -/
def Loaded (m : Mapping) (c : MappedClass) (chains : List String) (route : Route) : Prop :=
  route.relationship.attr ∈ chains ∧ ∃ f, RelatedBy m c route f

/-- A registry was read from classes whose logical names are different and stand for themselves. -/
structure ReadAll (described : Mapping) (g : Registry) : Prop where
  registry : described.registry = .ok g
  distinct : (described.settled.classes.map MappedClass.logicalName).Nodup
  fixed : ∀ c ∈ described.settled.classes, normalizeName c.logicalName = c.logicalName

section Reading

variable {described m : Mapping} {g : Registry} {c : MappedClass} {model : Model}

theorem RelatedBy.target {route : Route} {f : Field} (h : RelatedBy m c route f) :
    route.target ∈ m.classes :=
  (Mapping.leads_of_route h.way).target

/-- A field in the database is that of a column. -/
theorem Mapping.ReadFrom.mem_inDb (h : m.ReadFrom c model) {f : Field} (hf : f ∈ model.fields.inDb) :
    ∃ column ∈ c.columns, f = (columnField column).bind model.name := by
  rw [h.columns] at hf
  obtain ⟨column, hcolumn, rfl⟩ := List.mem_map.mp hf
  exact ⟨column, MappedClass.mem_attributes hcolumn, rfl⟩

/-- Each column has a field in the database. -/
theorem Mapping.ReadFrom.exists_inDb (h : m.ReadFrom c model) {column : MappedColumn}
    (hcolumn : column ∈ c.columns) : ∃ f ∈ model.fields.inDb, f.name = column.attr := by
  obtain ⟨column', hcolumn', hattr⟩ := MappedClass.exists_attribute hcolumn
  refine ⟨(columnField column').bind model.name, ?_, hattr⟩
  rw [h.columns]
  exact List.mem_map_of_mem hcolumn'

theorem Mapping.ReadFrom.contains (h : m.ReadFrom c model) {column : MappedColumn}
    (hcolumn : column ∈ c.columns) : model.fields.contains column.attr = true := by
  obtain ⟨f, hf, hname⟩ := h.exists_inDb hcolumn
  rw [FieldTable.contains, ← hname, FieldTable.get?_of_mem (List.mem_of_mem_filter hf)]
  rfl

/-- The model has each relationship, and it leads to the target. -/
theorem Mapping.ReadFrom.relationship? (h : m.ReadFrom c model) {route : Route} {f : Field}
    (hrelated : RelatedBy m c route f) :
    ∃ column, model.relationship? route.relationship.attr =
      some (f.bind model.name, ⟨route.target.logicalName, column⟩) := by
  obtain ⟨column, hforeign⟩ := Mapping.foreign?_of_relationshipField hrelated.field
  refine ⟨column, ?_⟩
  rw [Model.relationship?, h.related _ hrelated.mem _ f hrelated.way hrelated.field]
  show ((f.link.bind model.name).foreign?.map fun other => (f.bind model.name, other)) = _
  rw [Link.foreign?_bind, hforeign]
  rfl

/-- A class is looked up under its logical name. -/
theorem ReadAll.lookupName? (h : ReadAll described g) (hc : c ∈ described.settled.classes)
    (hnamed : c.logicalName ≠ "") : g.lookupName? c.logicalName = g.find? c.logicalName := by
  show (if (Value.text c.logicalName).truthy then g.find? (normalizeName c.logicalName) else none) = _
  rw [h.fixed c hc]
  exact if_pos (by simpa [Value.truthy] using hnamed)

/-- The model of a relationship's target was read from it. -/
theorem ReadAll.target (h : ReadAll described g) {route : Route} {f : Field}
    (hrelated : RelatedBy described.settled c route f) :
    ∃ owner, g.find? route.target.logicalName = some owner ∧
      described.settled.ReadFrom route.target owner :=
  Mapping.readFrom_of_registry h.registry h.distinct hrelated.target

end Reading

end ModelQuery
