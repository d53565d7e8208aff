import ModelQuery.Proofs.Records.Exports
import ModelQuery.Proofs.Records.Labels
import ModelQuery.Proofs.Schema.ReadFrom

/-!
# Instances of mapped classes

A query of a class selects its columns, and labels for the columns of each class that is loaded with
it.  The row comes back as a tree: every column stands at the root under its attribute, every label
below the attribute of its relationship, and nothing else is there (`OneHop.own_column`,
`OneHop.isSome_related_iff`, `OneHop.own_label`).  For no two columns or labels have one path
(`OneHop.segments_inj`): a column becomes its attribute, never the relationship along it.

So the fields of the tree are those of an instance, and each relationship has the record of its
labels, or nothing if they all are null (`OneHop.entries_built`).  The instance is built of them
exactly if no attribute takes a list where the relationship leads to one record
(`OneHop.build_entries`), and it is what the class asks for exactly if every relationship leads to
as many records as its attribute holds (`instance_built_iff`).
-/

namespace ModelQuery

open Outcome

/-! ## The labels of relationships -/

/-- The label of an attribute of a relationship's target. -/
def attrLabel (c : MappedClass) (route : Route) (attr : String) : String :=
  labelText c.logicalName [route.relationship.attr, attr]

section Labels

variable {described : Mapping} {g : Registry} {c : MappedClass} {model : Model}
  {chains : List String}

/-- Along an attribute a model is found just in case the attribute is a relationship, and it is then
that of the target. -/
theorem ReadAll.relatedModel?_iff (h : ReadAll described g)
    (hmodel : described.settled.ReadFrom c model) {attr : String} {owner : Model} :
    relatedModel? (some g) (some model) attr = some owner ↔
      ∃ route f, RelatedBy described.settled c route f ∧ route.relationship.attr = attr ∧
        g.find? route.target.logicalName = some owner := by
  rw [relatedModel?_eq_some]
  constructor
  · rintro ⟨owner', f, other, g', howner, hlink, hg, hfound⟩
    cases howner
    cases hg
    rw [Model.relationship?] at hlink
    cases hfield : model.field? attr with
    | none =>
        rw [hfield] at hlink
        cases hlink
    | some f' =>
        rw [hfield] at hlink
        obtain ⟨other', hforeign, heq⟩ := Option.map_eq_some_iff.mp hlink
        cases heq
        rcases hmodel.only attr f hfield with ⟨column, -, -, hplain⟩ | hrelationship
        · rw [hplain] at hforeign
          cases hforeign
        · obtain ⟨r, hr, hattr, route, f₀, hroute, hf₀, rfl⟩ := hrelationship
          have hr' : route.relationship = r := (Mapping.leads_of_route hroute).relationship
          obtain ⟨column, hforeign₀⟩ := Mapping.foreign?_of_relationshipField hf₀
          have hother : other = ⟨route.target.logicalName, column⟩ := by
            have hbind : (f₀.link.bind model.name).foreign? = some other := hforeign
            rw [Link.foreign?_bind, hforeign₀] at hbind
            exact (Option.some.inj hbind).symm
          subst hother
          subst hr'
          have htarget : route.target ∈ described.settled.classes :=
            (Mapping.leads_of_route hroute).target
          dsimp only at hfound
          have hnamed : route.target.logicalName ≠ "" := by
            intro hempty
            rw [hempty] at hfound
            cases hfound
          refine ⟨route, f₀, ⟨hr, hroute, hf₀, hnamed⟩, hattr, ?_⟩
          rw [← h.lookupName? htarget hnamed]
          exact hfound
  · rintro ⟨route, f, hrelated, rfl, hfound⟩
    obtain ⟨column, hlink⟩ := hmodel.relationship? hrelated
    refine ⟨model, _, _, g, rfl, hlink, rfl, ?_⟩
    dsimp only
    rw [h.lookupName? hrelated.target hrelated.named]
    exact hfound

/-- A chain without a mark is one segment. -/
theorem splitAt_unmarked {chain : String} (h : pathMark ∉ chain.toList) :
    Text.splitAt pathMark chain = [chain] := by
  rw [Text.splitAt, Text.pieces_of_not_mem h, List.map_singleton, String.ofList_toList]

/-- Chains of one hop reach the targets of the relationships that are loaded. -/
theorem ReadAll.reached_iff (h : ReadAll described g) (hmodel : described.settled.ReadFrom c model)
    (hchains : ∀ chain ∈ chains, pathMark ∉ chain.toList) {path : List String} {owner : Model} :
    Reached g model chains path owner ↔
      ∃ route, Loaded described.settled c chains route ∧ path = [route.relationship.attr] ∧
        g.find? route.target.logicalName = some owner := by
  constructor
  · rintro ⟨hne, halong, chain, hchain, hstart⟩
    rw [splitAt_unmarked (hchains chain hchain)] at hstart
    cases path with
    | nil => exact absurd rfl hne
    | cons attr rest =>
        obtain ⟨rfl, hrest⟩ := List.cons_prefix_cons.mp hstart
        cases List.prefix_nil.mp hrest
        obtain ⟨route, f, hrelated, rfl, hfound⟩ := (h.relatedModel?_iff hmodel).mp halong
        exact ⟨route, ⟨hchain, f, hrelated⟩, rfl, hfound⟩
  · rintro ⟨route, ⟨hchain, f, hrelated⟩, rfl, hfound⟩
    refine ⟨List.cons_ne_nil _ _, ?_, _, hchain, ?_⟩
    · exact (h.relatedModel?_iff hmodel).mpr ⟨route, f, hrelated, rfl, hfound⟩
    · exact ⟨[], (splitAt_unmarked (hchains _ hchain)).symm⟩

/-- Loading along chains of one hop selects labels for the columns of the targets, and no others. -/
theorem ReadAll.mem_newLabels (h : ReadAll described g)
    (hmodel : described.settled.ReadFrom c model)
    (hchains : ∀ chain ∈ chains, pathMark ∉ chain.toList) {b b' : Builder} {reply : Reply}
    (hregistry : b.registry = g) (hcanonical : b.canonical = some model)
    (hcalls : Step.each Call.run (eagerCalls chains) b = .ok reply b') (label : String) :
    label ∈ newLabels b b' ↔
      ∃ route, Loaded described.settled c chains route ∧
        ∃ column ∈ route.target.columns, label = attrLabel c route column.attr := by
  rw [ModelQuery.mem_newLabels hcanonical hcalls, hregistry]
  constructor
  · rintro ⟨path, owner, hreached, f, hf, rfl⟩
    obtain ⟨route, hloaded, rfl, hfound⟩ := (h.reached_iff hmodel hchains).mp hreached
    obtain ⟨f₀, hrelated⟩ := hloaded.2
    obtain ⟨owner', hfound', howner⟩ := h.target hrelated
    cases hfound.symm.trans hfound'
    obtain ⟨column, hcolumn, rfl⟩ := howner.mem_inDb hf
    refine ⟨route, hloaded, column, hcolumn, ?_⟩
    rw [attrLabel, hmodel.name]
    rfl
  · rintro ⟨route, hloaded, column, hcolumn, rfl⟩
    obtain ⟨f₀, hrelated⟩ := hloaded.2
    obtain ⟨owner, hfound, howner⟩ := h.target hrelated
    obtain ⟨f, hf, hname⟩ := howner.exists_inDb hcolumn
    refine ⟨[route.relationship.attr], owner, ?_, f, hf, ?_⟩
    · exact (h.reached_iff hmodel hchains).mpr ⟨route, hloaded, rfl, hfound⟩
    · rw [attrLabel, hmodel.name, hname]
      rfl

end Labels

/-! ## The values of a row -/

/-- A value is found at the path of its column if no other column has the path. -/
theorem value?_of_only (m : Model) (column : String) {cells : List (String × Value)}
    (hnodup : (Assoc.keys cells).Nodup)
    (honly : ∀ e ∈ cells, segments m e.1 = segments m column → e.1 = column) :
    (treeOf m cells).value? (segments m column) = cells.lookup column := by
  cases hlookup : cells.lookup column with
  | some v =>
      refine value?_treeOf_of (Assoc.mem_of_lookup hlookup) fun e he hpath => ?_
      obtain rfl := honly e he hpath
      rw [Assoc.lookup_of_mem hnodup he] at hlookup
      exact Option.some.inj hlookup
  | none =>
      cases hvalue : (treeOf m cells).value? (segments m column) with
      | none => rfl
      | some v =>
          obtain ⟨e, he, hpath, -⟩ := value?_treeOf hvalue
          obtain rfl := honly e he hpath
          exact absurd (List.mem_map_of_mem he) (Assoc.lookup_eq_none_iff.mp hlookup)

/-- A class, each of whose columns has a name and an attribute of its own, with the model that is
found for it and chains of one hop.  No name that becomes part of a label has a mark. -/
structure OneHop (described : Mapping) (g : Registry) (c : MappedClass) (model : Model)
    (chains : List String) : Prop where
  all : ReadAll described g
  mem : c ∈ described.settled.classes
  found : g.lookup? (.modelClass c.name) = some model
  attrs : (c.columns.map (·.attr)).Nodup
  columns : ∀ column ∈ c.columns, column.column ≠ "" ∧ pathMark ∉ column.column.toList
  names : ∀ d ∈ described.settled.classes, ∀ column ∈ d.columns, pathMark ∉ column.attr.toList
  chains : ∀ chain ∈ chains, pathMark ∉ chain.toList

/-- The row has the labels of the relationships that are loaded, and else columns of the class. -/
structure RowFor (m : Mapping) (c : MappedClass) (chains : List String)
    (cells : List (String × Value)) : Prop where
  nodup : (Assoc.keys cells).Nodup
  given : ∀ route, Loaded m c chains route → ∀ column ∈ route.target.columns,
    attrLabel c route column.attr ∈ Assoc.keys cells
  others : ∀ key ∈ Assoc.keys cells,
    (∃ route, Loaded m c chains route ∧
      ∃ column ∈ route.target.columns, key = attrLabel c route column.attr) ∨
    ∃ column ∈ c.columns, key = column.column

namespace OneHop

variable {described : Mapping} {g : Registry} {c : MappedClass} {model : Model}
  {chains : List String} {cells : List (String × Value)}

theorem read (h : OneHop described g c model chains) : described.settled.ReadFrom c model := by
  obtain ⟨model', hfound, hread⟩ := Mapping.readFrom_of_registry h.all.registry h.all.distinct h.mem
  have hsame : some model = some model' := h.found.symm.trans hfound
  cases hsame
  exact hread

/-- Columns with one attribute are one column. -/
theorem attr_inj (h : OneHop described g c model chains) {column column' : MappedColumn}
    (hcolumn : column ∈ c.columns) (hcolumn' : column' ∈ c.columns)
    (hattr : column'.attr = column.attr) : column' = column :=
  List.inj_on_of_nodup_map h.attrs hcolumn' hcolumn hattr

/-- Columns with one name are one column. -/
theorem column_inj (h : OneHop described g c model chains) {column column' : MappedColumn}
    (hcolumn : column ∈ c.columns) (hcolumn' : column' ∈ c.columns)
    (heq : column'.column = column.column) : column' = column := by
  have hnodup : (c.mappedTable.columns.map (·.name)).Nodup := by
    refine Mapping.nodup_of_check (Mapping.describes_in_order h.all.registry).1 ?_
    exact List.mem_append_right _ (List.mem_map_of_mem h.mem)
  rw [MappedClass.mappedTable, List.map_map] at hnodup
  exact List.inj_on_of_nodup_map hnodup hcolumn' hcolumn heq

/-- No two relationships that are loaded have an attribute in common. -/
theorem route_inj (h : OneHop described g c model chains) {route route' : Route}
    (hloaded : Loaded described.settled c chains route)
    (hloaded' : Loaded described.settled c chains route')
    (hattr : route'.relationship.attr = route.relationship.attr) : route' = route := by
  obtain ⟨c', -, rfl⟩ := List.mem_map.mp h.mem
  obtain ⟨-, f, hrelated⟩ := hloaded
  obtain ⟨-, f', hrelated'⟩ := hloaded'
  have hsame := MappedClass.eq_of_attr hrelated.mem hrelated'.mem hattr
  have hway := hrelated'.way
  rw [hsame, hrelated.way] at hway
  exact (Except.ok.inj hway).symm

/-- The target of a relationship that is loaded has columns. -/
theorem target_columns (h : OneHop described g c model chains) {route : Route}
    (hloaded : Loaded described.settled c chains route) : route.target.columns ≠ [] := by
  obtain ⟨-, f, hrelated⟩ := hloaded
  obtain ⟨c', hc', heq⟩ := List.mem_map.mp hrelated.target
  obtain ⟨taken, hmakes⟩ := Mapping.class_check (Mapping.describes_in_order h.all.registry).1 hc'
  rw [← heq]
  exact MappedClass.settled_columns_ne_nil hmakes

/-- A column becomes its own attribute. -/
theorem segments_column (h : OneHop described g c model chains) {column : MappedColumn}
    (hcolumn : column ∈ c.columns) : segments model column.column = [column.attr] := by
  have hunlabelled : ∀ rest, column.column ≠ labelMark model ++ rest := by
    intro rest heq
    refine (h.columns column hcolumn).2 ?_
    rw [heq, labelMark, String.toList_append, String.toList_append]
    exact List.mem_append_left _ (List.mem_append_right _ List.mem_cons_self)
  have hfirst : FirstStored model column.column ((columnField column).bind model.name) := by
    have hstored : ∀ column ∈ c.columns, (columnField column).column = column.column :=
      fun column hcolumn => if_neg (h.columns column hcolumn).1
    rw [firstStored_iff, FieldTable.byColumn?_eq, h.read.columns,
      MappedClass.attributes_of_nodup h.attrs]
    refine find?_of_only (List.mem_map_of_mem hcolumn) ?_ ?_
    · exact beq_iff_eq.mpr (hstored column hcolumn)
    · intro f hf heq
      obtain ⟨column', hcolumn', rfl⟩ := List.mem_map.mp hf
      have heq : (columnField column').column = column.column := eq_of_beq heq
      rw [hstored column' hcolumn'] at heq
      rw [h.column_inj hcolumn hcolumn' heq]
  rw [segments, pathOf_unlabelled hunlabelled, hfirst.fieldName_eq]
  rfl

/-- A label is read as the relationship and the attribute of the target. -/
theorem segments_label (h : OneHop described g c model chains) {route : Route}
    (hloaded : Loaded described.settled c chains route) {column : MappedColumn}
    (hcolumn : column ∈ route.target.columns) :
    segments model (attrLabel c route column.attr) = [route.relationship.attr, column.attr] := by
  obtain ⟨hchain, f, hrelated⟩ := hloaded
  rw [attrLabel, ← h.read.name]
  refine segments_labelText (List.cons_ne_nil _ _) ?_
  intro segment hsegment
  rcases List.mem_cons.mp hsegment with rfl | hsegment
  · exact h.chains _ hchain
  · rw [List.mem_singleton.mp hsegment]
    exact h.names _ hrelated.target column hcolumn

/-- Different keys of a row have different paths. -/
theorem segments_inj (h : OneHop described g c model chains)
    (hrow : RowFor described.settled c chains cells) {key key' : String}
    (hkey : key ∈ Assoc.keys cells)
    (hkey' : (∃ route, Loaded described.settled c chains route ∧
        ∃ column ∈ route.target.columns, key' = attrLabel c route column.attr) ∨
      ∃ column ∈ c.columns, key' = column.column)
    (heq : segments model key = segments model key') : key = key' := by
  rcases hrow.others key hkey with ⟨route, hloaded, column, hcolumn, rfl⟩ | ⟨column, hcolumn, rfl⟩
  · rw [h.segments_label hloaded hcolumn] at heq
    rcases hkey' with ⟨route', hloaded', column', hcolumn', rfl⟩ | ⟨column', hcolumn', rfl⟩
    · rw [h.segments_label hloaded' hcolumn'] at heq
      obtain ⟨hattr, hrest⟩ := List.cons.inj heq
      rw [attrLabel, attrLabel, hattr, (List.cons.inj hrest).1]
    · rw [h.segments_column hcolumn'] at heq
      cases (List.cons.inj heq).2
  · rw [h.segments_column hcolumn] at heq
    rcases hkey' with ⟨route', hloaded', column', hcolumn', rfl⟩ | ⟨column', hcolumn', rfl⟩
    · rw [h.segments_label hloaded' hcolumn'] at heq
      cases (List.cons.inj heq).2
    · rw [h.segments_column hcolumn'] at heq
      rw [h.attr_inj hcolumn' hcolumn (List.cons.inj heq).1]

/-- The tree of the row has the values of the columns at its root. -/
theorem own_column (h : OneHop described g c model chains)
    (hrow : RowFor described.settled c chains cells) {column : MappedColumn}
    (hcolumn : column ∈ c.columns) :
    (treeOf model cells).own.lookup column.attr = cells.lookup column.column := by
  have hvalue := value?_of_only model column.column hrow.nodup
    fun e he heq => h.segments_inj hrow (List.mem_map_of_mem he) (.inr ⟨column, hcolumn, rfl⟩) heq
  rw [h.segments_column hcolumn] at hvalue
  exact hvalue

/-- A value of the record stands under the attribute of a column of the class. -/
theorem of_own (h : OneHop described g c model chains)
    (hrow : RowFor described.settled c chains cells) {name : String} {v : Value}
    (hv : (treeOf model cells).own.lookup name = some v) :
    ∃ column ∈ c.columns, column.attr = name := by
  have hvalue : (treeOf model cells).value? [name] = some v := hv
  obtain ⟨e, he, hpath, -⟩ := value?_treeOf hvalue
  rcases hrow.others e.1 (List.mem_map_of_mem he) with
    ⟨route, hloaded, column, hcolumn, hkey⟩ | ⟨column, hcolumn, hkey⟩
  · rw [hkey, h.segments_label hloaded hcolumn] at hpath
    cases (List.cons.inj hpath).2
  · rw [hkey, h.segments_column hcolumn] at hpath
    exact ⟨column, hcolumn, (List.cons.inj hpath).1⟩

/-- The tree of the row has a tree for each relationship that is loaded, and for no other name. -/
theorem isSome_related_iff (h : OneHop described g c model chains)
    (hrow : RowFor described.settled c chains cells) {name : String} :
    ((treeOf model cells).related.lookup name).isSome ↔
      ∃ route, Loaded described.settled c chains route ∧ route.relationship.attr = name := by
  have hbelow : (treeOf model cells).below? [name] = (treeOf model cells).related.lookup name := by
    rw [Tree.below?]
    cases (treeOf model cells).related.lookup name with
    | none => rfl
    | some t => rfl
  rw [← hbelow, isSome_below?_treeOf]
  constructor
  · rintro (hnil | ⟨e, he, more, hmore, hpath⟩)
    · cases hnil
    · rcases hrow.others e.1 (List.mem_map_of_mem he) with
        ⟨route, hloaded, column, hcolumn, hkey⟩ | ⟨column, hcolumn, hkey⟩
      · rw [hkey, h.segments_label hloaded hcolumn] at hpath
        exact ⟨route, hloaded, (List.cons.inj hpath).1⟩
      · rw [hkey, h.segments_column hcolumn] at hpath
        exact absurd (List.cons.inj hpath).2.symm hmore
  · rintro ⟨route, hloaded, rfl⟩
    obtain ⟨column, hcolumn⟩ := List.exists_mem_of_ne_nil _ (h.target_columns hloaded)
    obtain ⟨v, he⟩ := Assoc.exists_of_mem_keys (hrow.given route hloaded column hcolumn)
    exact .inr ⟨_, he, [column.attr], List.cons_ne_nil _ _, h.segments_label hloaded hcolumn⟩

section Child

variable {route : Route} {t : Tree}

/-- The tree of a relationship has the values of its labels at its root. -/
theorem own_label (h : OneHop described g c model chains)
    (hrow : RowFor described.settled c chains cells)
    (hloaded : Loaded described.settled c chains route)
    (ht : (treeOf model cells).related.lookup route.relationship.attr = some t)
    {column : MappedColumn} (hcolumn : column ∈ route.target.columns) :
    t.own.lookup column.attr = cells.lookup (attrLabel c route column.attr) := by
  have hvalue := value?_of_only model (attrLabel c route column.attr) hrow.nodup
    fun e he heq => h.segments_inj hrow (List.mem_map_of_mem he)
      (.inl ⟨route, hloaded, column, hcolumn, rfl⟩) heq
  rw [h.segments_label hloaded hcolumn, Tree.value?, ht] at hvalue
  exact hvalue

/-- A value of a relationship stands under the attribute of a column of its target. -/
theorem of_own_label (h : OneHop described g c model chains)
    (hrow : RowFor described.settled c chains cells)
    (hloaded : Loaded described.settled c chains route)
    (ht : (treeOf model cells).related.lookup route.relationship.attr = some t) {name : String}
    {v : Value} (hv : t.own.lookup name = some v) :
    ∃ column ∈ route.target.columns, column.attr = name := by
  have hvalue : (treeOf model cells).value? [route.relationship.attr, name] = some v := by
    rw [Tree.value?, ht]
    exact hv
  obtain ⟨e, he, hpath, -⟩ := value?_treeOf hvalue
  rcases hrow.others e.1 (List.mem_map_of_mem he) with
    ⟨route', hloaded', column, hcolumn, hkey⟩ | ⟨column, hcolumn, hkey⟩
  · rw [hkey, h.segments_label hloaded' hcolumn] at hpath
    obtain ⟨hattr, hrest⟩ := List.cons.inj hpath
    obtain rfl := h.route_inj hloaded hloaded' hattr
    exact ⟨column, hcolumn, (List.cons.inj hrest).1⟩
  · rw [hkey, h.segments_column hcolumn] at hpath
    cases (List.cons.inj hpath).2

/-- There is nothing below the tree of a relationship. -/
theorem related_label (h : OneHop described g c model chains)
    (hrow : RowFor described.settled c chains cells)
    (ht : (treeOf model cells).related.lookup route.relationship.attr = some t) (name : String) :
    t.related.lookup name = none := by
  cases hname : t.related.lookup name with
  | none => rfl
  | some t' =>
      have hbelow : ((treeOf model cells).below? [route.relationship.attr, name]).isSome := by
        rw [Tree.below?, ht, Option.bind_some, Tree.below?, hname]
        rfl
      rcases isSome_below?_treeOf.mp hbelow with hnil | ⟨e, he, more, hmore, hpath⟩
      · cases hnil
      · rcases hrow.others e.1 (List.mem_map_of_mem he) with
          ⟨route', hloaded', column, hcolumn, hkey⟩ | ⟨column, hcolumn, hkey⟩
        · rw [hkey, h.segments_label hloaded' hcolumn] at hpath
          exact absurd (List.cons.inj (List.cons.inj hpath).2).2.symm hmore
        · rw [hkey, h.segments_column hcolumn] at hpath
          cases (List.cons.inj hpath).2

end Child

end OneHop

/-! ## The records of relationships -/

/-- Entries in another order are found under the same keys. -/
theorem Assoc.lookup_perm {α : Type} {m m' : List (String × α)} (h : m.Perm m')
    (hnodup : (Assoc.keys m).Nodup) (key : String) : m.lookup key = m'.lookup key := by
  have hnodup' : (Assoc.keys m').Nodup := (h.map Prod.fst).nodup_iff.mp hnodup
  cases hlookup : m'.lookup key with
  | some v => exact Assoc.lookup_of_mem hnodup (h.mem_iff.mpr (Assoc.mem_of_lookup hlookup))
  | none =>
      rw [Assoc.lookup_eq_none_iff] at hlookup ⊢
      exact fun hkey => hlookup ((h.map Prod.fst).mem_iff.mp hkey)

/-- The record of a class from labelled values: an instance of the class with all of them, or
nothing if they all are null. -/
inductive RecordFrom (d : MappedClass) (label : String → String) (cells : List (String × Value)) :
    Record → Prop where
  | absent (h : ∀ column ∈ d.columns, cells.lookup (label column.attr) = some .null) :
      RecordFrom d label cells .absent
  | object {attributes : List (String × Record)}
      (h : ∃ column ∈ d.columns, cells.lookup (label column.attr) ≠ some .null)
      (nodup : (Assoc.keys attributes).Nodup)
      (values : ∀ column ∈ d.columns,
        attributes.lookup column.attr = (cells.lookup (label column.attr)).map .cell)
      (only : ∀ attr ∈ Assoc.keys attributes, ∃ column ∈ d.columns, column.attr = attr) :
      RecordFrom d label cells (.object d.name attributes)

/-- Values for the attributes of columns make an instance. -/
theorem Mapping.ReadFrom.build_columns {m : Mapping} {d : MappedClass} {owner : Model}
    (h : m.ReadFrom d owner) {es : List (String × Record)}
    (honly : ∀ e ∈ es, ∃ column ∈ d.columns, column.attr = e.1) :
    ∃ attributes, owner.build es = .ok (.object d.name attributes) ∧ attributes.Perm es := by
  obtain ⟨slot, hfactory, hslots⟩ := h.made
  have hkept : es.filter (fun e => owner.fields.contains e.1) = es := by
    refine List.filter_eq_self.mpr fun e he => ?_
    obtain ⟨column, hcolumn, hattr⟩ := honly e he
    rw [← hattr]
    exact h.contains hcolumn
  have hmade : ∃ record, Record.instanceOf d.name slot es = .ok record :=
    Record.instanceOf_of_anything fun e he => by
      obtain ⟨column, hcolumn, hattr⟩ := honly e he
      rw [← hattr]
      exact hslots.columns column hcolumn
  obtain ⟨record, hrecord⟩ := hmade
  obtain ⟨attributes, rfl, hperm⟩ := Record.of_instanceOf hrecord
  refine ⟨attributes, ?_, hperm⟩
  rw [Model.build, hfactory]
  dsimp only
  rw [hkept]
  exact hrecord

/-- Labelled values become the record of their class, if some value is present, and else nothing. -/
theorem Mapping.ReadFrom.recordFrom {m : Mapping} {d : MappedClass} {owner : Model}
    (h : m.ReadFrom d owner) {label : String → String} {cells : List (String × Value)}
    {es : List (String × Record)} (hnodup : (Assoc.keys es).Nodup)
    (hvalues : ∀ column ∈ d.columns,
      es.lookup column.attr = (cells.lookup (label column.attr)).map .cell)
    (hgiven : ∀ column ∈ d.columns, ∃ v, cells.lookup (label column.attr) = some v)
    (honly : ∀ e ∈ es, ∃ column ∈ d.columns, column.attr = e.1) :
    (somePresent es = true → ∃ attributes, owner.build es = .ok (.object d.name attributes) ∧
      RecordFrom d label cells (.object d.name attributes)) ∧
    (somePresent es ≠ true → RecordFrom d label cells .absent) := by
  constructor
  · intro hsome
    obtain ⟨attributes, hbuild, hperm⟩ := h.build_columns honly
    have hnodup' : (Assoc.keys attributes).Nodup := (hperm.map Prod.fst).nodup_iff.mpr hnodup
    refine ⟨attributes, hbuild, .object ?_ hnodup' ?_ ?_⟩
    · obtain ⟨name, r, hr, hpresent⟩ := (somePresent_iff hnodup).mp hsome
      obtain ⟨column, hcolumn, rfl⟩ := honly _ (Assoc.mem_of_lookup hr)
      refine ⟨column, hcolumn, fun hnull => ?_⟩
      rw [hvalues column hcolumn, hnull] at hr
      cases hr
      cases hpresent
    · intro column hcolumn
      rw [Assoc.lookup_perm hperm hnodup']
      exact hvalues column hcolumn
    · intro attr hattr
      obtain ⟨r, he⟩ := Assoc.exists_of_mem_keys hattr
      exact honly _ (hperm.mem_iff.mp he)
  · intro hnone
    refine .absent fun column hcolumn => ?_
    obtain ⟨v, hlabel⟩ := hgiven column hcolumn
    have hv : v = .null := by
      by_contra hnull
      refine hnone ((somePresent_iff hnodup).mpr ⟨column.attr, .cell v, ?_, ?_⟩)
      · rw [hvalues column hcolumn, hlabel]
        rfl
      · cases v with
        | null => exact absurd rfl hnull
        | _ => rfl
    rw [← hv]
    exact hlabel

/-- A record in an attribute that holds many, or one. -/
def heldAs (many : Bool) (r : Record) : Record :=
  if many then .many (if r.isPresent then [r] else []) else r

namespace OneHop

variable {described : Mapping} {g : Registry} {c : MappedClass} {model : Model}
  {chains : List String} {cells : List (String × Value)} {route : Route} {t : Tree}

/-- A relationship is held as a list where its field leads to many. -/
theorem wantsList_eq (h : OneHop described g c model chains) {f : Field}
    (hrelated : RelatedBy described.settled c route f) :
    wantsList (some model) route.relationship.attr = f.link.leadsToMany := by
  obtain ⟨slot, hfactory, -⟩ := h.read.made
  obtain ⟨column, hlink⟩ := h.read.relationship? hrelated
  rw [wantsList, hfactory, hlink]
  exact Link.leadsToMany_bind model.name f.link

/-- A relationship that is loaded holds the record from its labels. -/
theorem relationshipOf_eq (h : OneHop described g c model chains)
    (hrow : RowFor described.settled c chains cells) {f : Field}
    (hchain : route.relationship.attr ∈ chains) (hrelated : RelatedBy described.settled c route f)
    (ht : (treeOf model cells).related.lookup route.relationship.attr = some t) :
    ∃ r, RecordFrom route.target (attrLabel c route) cells r ∧
      relationshipOf (some g) (some model) route.relationship.attr t =
        .ok (heldAs f.link.leadsToMany r) := by
  have hloaded : Loaded described.settled c chains route := ⟨hchain, f, hrelated⟩
  obtain ⟨owner, hfound, howner⟩ := h.all.target hrelated
  have hchild : relatedModel? (some g) (some model) route.relationship.attr = some owner :=
    (h.all.relatedModel?_iff h.read).mpr ⟨route, f, hrelated, rfl, hfound⟩
  have hordered : t.Ordered := (ordered_treeOf cells).lookup ht
  have hbelow := h.related_label hrow ht
  have hentries : ∃ es, t.entries (some g) (some owner) = .ok es :=
    entries_isOk hordered fun name t' hname => by
      rw [hbelow name] at hname
      cases hname
  obtain ⟨es, hes⟩ := hentries
  have hlookup : ∀ name, es.lookup name = (t.own.lookup name).map .cell := fun name =>
    lookup_own hordered hes (hbelow name)
  have hvalues : ∀ column ∈ route.target.columns,
      es.lookup column.attr = (cells.lookup (attrLabel c route column.attr)).map .cell := by
    intro column hcolumn
    rw [hlookup, h.own_label hrow hloaded ht hcolumn]
  have honly : ∀ e ∈ es, ∃ column ∈ route.target.columns, column.attr = e.1 := by
    intro e he
    have hfound := Assoc.lookup_of_mem (entries_nodup hordered hes) he
    rw [hlookup] at hfound
    obtain ⟨v, hv, -⟩ := Option.map_eq_some_iff.mp hfound
    exact h.of_own_label hrow hloaded ht hv
  have hgiven : ∀ column ∈ route.target.columns,
      ∃ v, cells.lookup (attrLabel c route column.attr) = some v := by
    intro column hcolumn
    obtain ⟨v, he⟩ := Assoc.exists_of_mem_keys (hrow.given route hloaded column hcolumn)
    exact ⟨v, Assoc.lookup_of_mem hrow.nodup he⟩
  have hes' : t.entries (some g) (relatedModel? (some g) (some model) route.relationship.attr) =
      .ok es := hchild ▸ hes
  obtain ⟨hobject, habsent⟩ :=
    howner.recordFrom (entries_nodup hordered hes) hvalues hgiven honly
  rw [ModelQuery.relationshipOf_eq hes', ← h.wantsList_eq hrelated, hchild]
  by_cases hsome : somePresent es = true
  · obtain ⟨attributes, hbuild, hrecord⟩ := hobject hsome
    rw [if_pos hsome]
    refine ⟨_, hrecord, ?_⟩
    show (owner.build es).map _ = _
    rw [hbuild]
    rfl
  · rw [if_neg hsome]
    exact ⟨.absent, habsent hsome, rfl⟩

end OneHop

/-- A list of instances is given to an attribute of many. -/
theorem all_canBelong {r : Record} (hr : r = .absent ∨ r.isInstance = true) :
    r.canBelong = true ∧ (if r.isPresent then [r] else []).all Record.canBelong = true := by
  rcases hr with rfl | hr
  · exact ⟨rfl, rfl⟩
  · have hbelongs : r.canBelong = true := by
      rw [Record.canBelong, hr, Bool.or_true]
    refine ⟨hbelongs, ?_⟩
    split
    · rw [List.all_cons, hbelongs]
      rfl
    · rfl

/-- An attribute takes what its relationship holds, unless it takes a list and is given a record. -/
theorem fit_held {m : Mapping} {c : MappedClass} {route : Route} {f : Field}
    (h : relationshipField m c route = .ok (some f)) {r : Record}
    (hr : r = .absent ∨ r.isInstance = true) [Decidable route.Refused] :
    (heldAs f.link.leadsToMany r).fit (slotOf route.relationship.uselist f.link) =
      if route.Refused then .error .wrongType else .ok () := by
  obtain ⟨column, ⟨t, association, hway, hlink⟩ | ⟨j, hway, hlink⟩⟩ :=
    (Mapping.of_relationshipField h).link
  · have htoOne : ¬ route.Refused := by
      rw [Route.Refused, Route.toOne, hway]
      rintro ⟨htoOne, -⟩
      cases htoOne
    rw [if_neg htoOne, hlink]
    show Record.fit (if route.relationship.uselist.getD true then .many else .anything) (.many _) = _
    split
    · rfl
    · rfl
  · have hrefused : route.Refused ↔ j.toOne = true ∧ route.relationship.uselist = some true := by
      rw [Route.Refused, Route.toOne, hway]
    rw [hlink]
    cases htoOne : j.toOne with
    | true =>
        show Record.fit (if route.relationship.uselist.getD false then .many else .anything) r = _
        by_cases htold : route.relationship.uselist = some true
        · rw [if_pos (hrefused.mpr ⟨htoOne, htold⟩), htold]
          rcases hr with rfl | hr
          · rfl
          · cases r with
            | object name attributes => rfl
            | _ => cases hr
        · have hfalse : route.relationship.uselist.getD false = false := by
            cases huselist : route.relationship.uselist with
            | none => rfl
            | some b =>
                cases b with
                | false => rfl
                | true => exact absurd huselist htold
          rw [if_neg fun h => htold (hrefused.mp h).2, hfalse]
          rfl
    | false =>
        have hnot : ¬ route.Refused := fun h => by
          rw [(hrefused.mp h).1] at htoOne
          cases htoOne
        obtain ⟨hbelongs, hall⟩ := all_canBelong hr
        rw [if_neg hnot, if_neg Bool.false_ne_true]
        split
        · show (if (if r.isPresent then [r] else []).all Record.canBelong then _ else _) = _
          rw [if_pos hall]
        · show (if r.canBelong then _ else _) = _
          rw [if_pos hbelongs]

/-! ## The instance of a row -/

/-- An instance of a class from the values of a row: its columns under their attributes, each
relationship that is loaded with the record of its target, as many or as one, and nothing else. -/
structure BuiltFrom (m : Mapping) (c : MappedClass) (chains : List String)
    (cells : List (String × Value)) (many : Route → Bool) (attributes : List (String × Record)) :
    Prop where
  nodup : (Assoc.keys attributes).Nodup
  columns : ∀ column ∈ c.columns,
    attributes.lookup column.attr = (cells.lookup column.column).map .cell
  related : ∀ route, Loaded m c chains route →
    ∃ r, RecordFrom route.target (attrLabel c route) cells r ∧
      attributes.lookup route.relationship.attr = some (heldAs (many route) r)
  only : ∀ attr ∈ Assoc.keys attributes, (∃ column ∈ c.columns, column.attr = attr) ∨
    ∃ route, Loaded m c chains route ∧ route.relationship.attr = attr

/-- The records of relationships are instances, or nothing. -/
theorem RecordFrom.cases {d : MappedClass} {label : String → String} {cells : List (String × Value)}
    {r : Record} (h : RecordFrom d label cells r) : r = .absent ∨ r.isInstance = true := by
  cases h with
  | absent _ => exact .inl rfl
  | object _ _ _ _ => exact .inr rfl

/-- What all items but some refused ones pass is passed by all, or refused. -/
theorem forM_of_refused {α : Type} (f : α → Except Error Unit) (e : Error) (xs : List α)
    (P : α → Prop) (hP : ∀ x ∈ xs, (¬ P x → f x = .ok ()) ∧ (P x → f x = .error e)) :
    ((∀ x ∈ xs, ¬ P x) → xs.forM f = .ok ()) ∧ ((∃ x ∈ xs, P x) → xs.forM f = .error e) := by
  induction xs with
  | nil => exact ⟨fun _ => rfl, fun ⟨x, hx, _⟩ => nomatch hx⟩
  | cons x rest ih =>
      obtain ⟨hx, hrest⟩ := List.forall_mem_cons.mp hP
      obtain ⟨ihok, iherror⟩ := ih hrest
      have hcons : (x :: rest).forM f = f x >>= fun _ => rest.forM f := rfl
      rw [hcons]
      constructor
      · intro hnone
        obtain ⟨hnot, hnone⟩ := List.forall_mem_cons.mp hnone
        rw [hx.1 hnot]
        exact ihok hnone
      · rintro ⟨y, hy, hPy⟩
        by_cases hPx : P x
        · rw [hx.2 hPx]
          rfl
        · rw [hx.1 hPx]
          rcases List.mem_cons.mp hy with rfl | hy
          · exact absurd hPy hPx
          · exact iherror ⟨y, hy, hPy⟩

namespace OneHop

variable {described : Mapping} {g : Registry} {c : MappedClass} {model : Model}
  {chains : List String} {cells : List (String × Value)} {route : Route}

/-- A relationship that is loaded has another attribute than each column. -/
theorem attr_ne (h : OneHop described g c model chains) {column : MappedColumn}
    (hcolumn : column ∈ c.columns) (hloaded : Loaded described.settled c chains route) :
    route.relationship.attr ≠ column.attr := by
  obtain ⟨-, f, hrelated⟩ := hloaded
  obtain ⟨c', hc', rfl⟩ := List.mem_map.mp h.mem
  obtain ⟨taken, hmakes⟩ := Mapping.class_check (Mapping.describes_in_order h.all.registry).1 hc'
  exact (MappedClass.attr_ne_of_check hmakes hcolumn hrelated.mem).symm

/-- The tree of the row has the fields of an instance, with as many as the fields lead to. -/
theorem entries_built (h : OneHop described g c model chains)
    (hrow : RowFor described.settled c chains cells) :
    ∃ es, (treeOf model cells).entries (some g) (some model) = .ok es ∧
      BuiltFrom described.settled c chains cells Route.leadsToMany es := by
  have hordered : (treeOf model cells).Ordered := ordered_treeOf cells
  have hrelated : ∀ route, Loaded described.settled c chains route →
      ∃ t, (treeOf model cells).related.lookup route.relationship.attr = some t := fun route hloaded =>
    Option.isSome_iff_exists.mp ((h.isSome_related_iff hrow).mpr ⟨route, hloaded, rfl⟩)
  have hunrelated : ∀ column ∈ c.columns,
      (treeOf model cells).related.lookup column.attr = none := by
    intro column hcolumn
    rw [← Option.not_isSome_iff_eq_none, h.isSome_related_iff hrow]
    rintro ⟨route, hloaded, heq⟩
    exact h.attr_ne hcolumn hloaded heq
  have hentries : ∃ es, (treeOf model cells).entries (some g) (some model) = .ok es :=
    entries_isOk hordered fun name t ht => by
      obtain ⟨route, ⟨hchain, f, hrelatedBy⟩, rfl⟩ :=
        (h.isSome_related_iff hrow).mp (Option.isSome_iff_exists.mpr ⟨t, ht⟩)
      obtain ⟨r, -, hr⟩ := h.relationshipOf_eq hrow hchain hrelatedBy ht
      exact ⟨_, hr⟩
  obtain ⟨es, hes⟩ := hentries
  refine ⟨es, hes, entries_nodup hordered hes, ?_, ?_, ?_⟩
  · intro column hcolumn
    rw [lookup_own hordered hes (hunrelated column hcolumn), h.own_column hrow hcolumn]
  · intro route hloaded
    obtain ⟨t, ht⟩ := hrelated route hloaded
    obtain ⟨hchain, f, hrelatedBy⟩ := hloaded
    obtain ⟨r, hrecord, hr⟩ := h.relationshipOf_eq hrow hchain hrelatedBy ht
    obtain ⟨r', hr', hlookup⟩ := lookup_relationship hordered hes ht
    rw [hr] at hr'
    cases hr'
    rw [Mapping.leadsToMany_of_relationshipField hrelatedBy.field] at hlookup
    exact ⟨r, hrecord, hlookup⟩
  · intro attr hattr
    obtain ⟨r, he⟩ := Assoc.exists_of_mem_keys hattr
    have hlookup := Assoc.lookup_of_mem (entries_nodup hordered hes) he
    cases ht : (treeOf model cells).related.lookup attr with
    | some t =>
        exact .inr ((h.isSome_related_iff hrow).mp (Option.isSome_iff_exists.mpr ⟨t, ht⟩))
    | none =>
        rw [lookup_own hordered hes ht] at hlookup
        obtain ⟨v, hv, -⟩ := Option.map_eq_some_iff.mp hlookup
        exact .inl (h.of_own hrow hv)

section Built

variable {es : List (String × Record)}
  (hbuilt : BuiltFrom described.settled c chains cells Route.leadsToMany es)
include hbuilt

/-- All that the row gives has a field of the model. -/
theorem entries_kept (h : OneHop described g c model chains) :
    es.filter (fun e => model.fields.contains e.1) = es := by
  refine List.filter_eq_self.mpr fun e he => ?_
  rcases hbuilt.only e.1 (List.mem_map_of_mem he) with
    ⟨column, hcolumn, hattr⟩ | ⟨route, ⟨-, f, hrelated⟩, hattr⟩
  · rw [← hattr]
    exact h.read.contains hcolumn
  · have hfield : model.fields.get? route.relationship.attr = some (f.bind model.name) :=
      h.read.related _ hrelated.mem _ f hrelated.way hrelated.field
    rw [← hattr, FieldTable.contains, hfield]
    rfl

/-- An attribute takes what the row gives it, unless its relationship is refused. -/
theorem fit_entry (h : OneHop described g c model chains) {slot : String → Record.Slot}
    (hslots : described.settled.SlotsOf c slot) {e : String × Record} (he : e ∈ es) :
    (¬ (∃ route, Loaded described.settled c chains route ∧ route.relationship.attr = e.1 ∧
      route.Refused) → Record.fit (slot e.1) e.2 = .ok ()) ∧
    ((∃ route, Loaded described.settled c chains route ∧ route.relationship.attr = e.1 ∧
      route.Refused) → Record.fit (slot e.1) e.2 = .error .wrongType) := by
  classical
  rcases hbuilt.only e.1 (List.mem_map_of_mem he) with
    ⟨column, hcolumn, hattr⟩ | ⟨route, hloaded, hattr⟩
  · constructor
    · intro _
      rw [← hattr, hslots.columns column hcolumn]
      rfl
    · rintro ⟨route, hloaded, heq, -⟩
      exact absurd (heq.trans hattr.symm) (h.attr_ne hcolumn hloaded)
  · obtain ⟨r, hrecord, hlookup⟩ := hbuilt.related route hloaded
    obtain ⟨f, hrelated⟩ := hloaded.2
    have hvalue : e.2 = heldAs route.leadsToMany r := by
      have hfound := Assoc.lookup_of_mem hbuilt.nodup he
      rw [← hattr, hlookup] at hfound
      exact (Option.some.inj hfound).symm
    have hfit : Record.fit (slot e.1) e.2 =
        if route.Refused then .error .wrongType else .ok () := by
      rw [hvalue, ← hattr, hslots.relationships _ hrelated.mem _ f hrelated.way hrelated.field,
        ← Mapping.leadsToMany_of_relationshipField hrelated.field]
      exact fit_held hrelated.field hrecord.cases
    constructor
    · intro hnot
      rw [hfit, if_neg fun hrefused => hnot ⟨route, hloaded, hattr, hrefused⟩]
    · rintro ⟨route', hloaded', heq, hrefused⟩
      obtain rfl := h.route_inj hloaded hloaded' (heq.trans hattr.symm)
      rw [hfit, if_pos hrefused]

/-- The fields of the row make an instance, unless the attribute of a relationship takes a list and
is given a record. -/
theorem build_entries (h : OneHop described g c model chains) :
    ((∀ route, Loaded described.settled c chains route → ¬ route.Refused) →
      ∃ attributes, model.build es = .ok (.object c.name attributes) ∧ attributes.Perm es) ∧
    ((∃ route, Loaded described.settled c chains route ∧ route.Refused) →
      model.build es = .error .wrongType) := by
  obtain ⟨slot, hfactory, hslots⟩ := h.read.made
  have hbuild : model.build es = (es.forM fun e => Record.fit (slot e.1) e.2) >>= fun _ =>
      .ok (.object c.name (es.mergeSort fun a b => decide (a.1 ≤ b.1))) := by
    rw [Model.build, hfactory]
    dsimp only
    rw [entries_kept hbuilt h]
    rfl
  obtain ⟨hok, herror⟩ := forM_of_refused (fun e => Record.fit (slot e.1) e.2) .wrongType es
    (fun e => ∃ route, Loaded described.settled c chains route ∧
      route.relationship.attr = e.1 ∧ route.Refused) fun _ he => fit_entry hbuilt h hslots he
  constructor
  · intro hnone
    refine ⟨es.mergeSort fun a b => decide (a.1 ≤ b.1), ?_, List.mergeSort_perm ..⟩
    have hpassed := hok fun e _ hrefused => by
      obtain ⟨route, hloaded, -, hrefused⟩ := hrefused
      exact hnone route hloaded hrefused
    rw [hbuild, hpassed]
    rfl
  · rintro ⟨route, hloaded, hrefused⟩
    obtain ⟨r, -, hlookup⟩ := hbuilt.related route hloaded
    rw [hbuild, herror ⟨_, Assoc.mem_of_lookup hlookup, route, hloaded, rfl, hrefused⟩]
    rfl

end Built

end OneHop

/-- The order of the attributes does not matter. -/
theorem BuiltFrom.perm {m : Mapping} {c : MappedClass} {chains : List String}
    {cells : List (String × Value)} {many : Route → Bool} {es attributes : List (String × Record)}
    (h : BuiltFrom m c chains cells many es) (hperm : attributes.Perm es) :
    BuiltFrom m c chains cells many attributes := by
  have hnodup : (Assoc.keys attributes).Nodup := (hperm.map Prod.fst).nodup_iff.mpr h.nodup
  have hlookup := Assoc.lookup_perm hperm hnodup
  refine ⟨hnodup, fun column hcolumn => ?_, fun route hloaded => ?_, fun attr hattr => ?_⟩
  · rw [hlookup]
    exact h.columns column hcolumn
  · rw [hlookup]
    exact h.related route hloaded
  · exact h.only attr ((hperm.map Prod.fst).mem_iff.mp hattr)

/-- A list of records is told from a record. -/
theorem heldAs_inj {d d' : MappedClass} {label label' : String → String}
    {cells : List (String × Value)} {r r' : Record} {many many' : Bool}
    (hr : RecordFrom d label cells r) (hr' : RecordFrom d' label' cells r')
    (h : heldAs many r = heldAs many' r') : many = many' := by
  cases many with
  | true =>
      cases many' with
      | true => rfl
      | false =>
          rcases hr'.cases with rfl | hinstance
          · cases h
          · have h : Record.many _ = r' := h
            rw [← h] at hinstance
            cases hinstance
  | false =>
      cases many' with
      | false => rfl
      | true =>
          rcases hr.cases with rfl | hinstance
          · cases h
          · have h : r = Record.many _ := h
            rw [h] at hinstance
            cases hinstance

/-- The row gives one value to every label; its other columns are those of a class. -/
structure AnswersFor (c : MappedClass) (labels : List String) (cells : List (String × Value)) :
    Prop where
  nodup : (Assoc.keys cells).Nodup
  given : ∀ label ∈ labels, label ∈ Assoc.keys cells
  others : ∀ key ∈ Assoc.keys cells, key ∈ labels ∨ ∃ column ∈ c.columns, key = column.column

/-- **INSTANCES OF CLASSES**: let a registry be read from classes, and let a row of one of them have
some of its columns and the labels of any relationships loaded with it.  Only columns are fields of
the table.  The row becomes the instance with the value of each column under the column's attribute
and with each relationship as one record or as many, as the attribute of the relationship holds
them, exactly if the class says nothing against the direction of a relationship along a foreign key
of its own or through an association table.  Where the attribute takes a list and is given a record,
there is no instance. -/
theorem instance_built_iff {described : Mapping} {g : Registry} {c : MappedClass} {model : Model}
    {chains : List String} {b b' : Builder} {reply : Reply} {row : Row}
    {cells : List (String × Value)} (h : OneHop described g c model chains)
    (hregistry : b.registry = g) (hcanonical : b.canonical = some model)
    (hcalls : Step.each Call.run (eagerCalls chains) b = .ok reply b')
    (hrow : row.named = .ok cells) (hanswers : AnswersFor c (newLabels b b') cells) :
    (∀ f ∈ model.fields.inDb, f.link = .plain) ∧
    ((∃ attributes, loadRecord model (some g) row = .ok (.object c.name attributes) ∧
        BuiltFrom described.settled c chains cells Route.holdsMany attributes) ↔
      ∀ route, Loaded described.settled c chains route → ¬ route.Overruled) ∧
    ((∃ route, Loaded described.settled c chains route ∧ route.Refused) →
      loadRecord model (some g) row = .error .wrongType) := by
  have hlabels := h.all.mem_newLabels h.read h.chains hregistry hcanonical hcalls
  have hfor : RowFor described.settled c chains cells := by
    refine ⟨hanswers.nodup, ?_, ?_⟩
    · intro route hloaded column hcolumn
      exact hanswers.given _ ((hlabels _).mpr ⟨route, hloaded, column, hcolumn, rfl⟩)
    · intro key hkey
      rcases hanswers.others key hkey with hlabel | hcolumn
      · exact .inl ((hlabels key).mp hlabel)
      · exact .inr hcolumn
  obtain ⟨es, hes, hbuilt⟩ := h.entries_built hfor
  obtain ⟨hok, herror⟩ := OneHop.build_entries hbuilt h
  have hload : loadRecord model (some g) row = model.build es := by
    rw [loadRecord_eq hrow, hes]
    rfl
  rw [hload]
  refine ⟨?_, ⟨?_, ?_⟩, herror⟩
  · intro f hf
    obtain ⟨column, -, rfl⟩ := h.read.mem_inDb hf
    rfl
  · rintro ⟨attributes, hattributes, hspec⟩ route hloaded hoverruled
    obtain ⟨attributes', hattributes', hperm⟩ := hok fun route' hloaded' hrefused => by
      rw [herror ⟨route', hloaded', hrefused⟩] at hattributes
      cases hattributes
    rw [hattributes'] at hattributes
    cases hattributes
    -- a list where the class says one, or one where it says a list, gives the difference away
    obtain ⟨r, hr, hlookup⟩ := (hbuilt.perm hperm).related route hloaded
    obtain ⟨r', hr', hlookup'⟩ := hspec.related route hloaded
    rw [hlookup] at hlookup'
    exact route.overruled_iff.mp hoverruled (heldAs_inj hr hr' (Option.some.inj hlookup'))
  · intro hnone
    obtain ⟨attributes, hattributes, hperm⟩ := hok fun route hloaded hrefused =>
      hnone route hloaded (.inl hrefused)
    obtain ⟨hnodup, hcolumns, hrelated, honly⟩ := hbuilt.perm hperm
    refine ⟨attributes, hattributes, hnodup, hcolumns, fun route hloaded => ?_, honly⟩
    have hmany : route.leadsToMany = route.holdsMany := by
      by_contra hne
      exact hnone route hloaded (route.overruled_iff.mpr hne)
    rw [← hmany]
    exact hrelated route hloaded

/-- A relationship of posts to users along the foreign key of its own name. -/
def signature (attr : String) (uselist : Option Bool) : MappedRelationship :=
  { attr, target := "User", uselist, foreignKey := some ⟨"Post", attr ++ "_id"⟩ }

def signerClass : MappedClass where
  name := "User"
  table := "users"
  columns := [⟨"id", "id", none, true⟩]
  relationships := []

/-- Posts with an author, and with an editor whose attribute takes a list. -/
def signedClass : MappedClass where
  name := "Post"
  table := "posts"
  columns := [⟨"id", "id", none, true⟩, ⟨"author_id", "author_id", some ⟨"users", "id"⟩, false⟩,
    ⟨"editor_id", "editor_id", some ⟨"users", "id"⟩, false⟩]
  relationships := [signature "author" none, signature "editor" (some true)]

def signatures : Mapping := ⟨[], [signedClass, signerClass]⟩

theorem settled_signatures : signatures.settled = signatures := by
  have hpost := Mapping.settled_of_kept (c := signedClass) (by decide +kernel) (by decide +kernel)
  have huser := Mapping.settled_of_kept (c := signerClass) (by decide +kernel) (by decide +kernel)
  simp only [Mapping.settled, signatures, List.map_cons, List.map_nil, hpost, huser]

/-- The way of a signature. -/
def signatureRoute (r : MappedRelationship) : Route :=
  ⟨r, signerClass, .direct ⟨r.attr ++ "_id", "id", true⟩⟩

/-- Each relationship of a signed post has its field. -/
theorem signature_related {r : MappedRelationship} (h : r ∈ signedClass.relationships) :
    ∃ f, RelatedBy signatures signedClass (signatureRoute r) f := by
  rcases List.mem_pair.mp h with rfl | rfl
  · exact ⟨_, h, rfl, rfl, by decide⟩
  · exact ⟨_, h, rfl, rfl, by decide⟩

/-- Along the attribute of a signature, that signature is loaded. -/
theorem loaded_signature {r : MappedRelationship} (h : r ∈ signedClass.relationships)
    {route : Route} :
    Loaded signatures signedClass [r.attr] route ↔ route = signatureRoute r := by
  constructor
  · rintro ⟨hchain, f, hrelated⟩
    have hway : ∀ r ∈ signedClass.relationships,
        signatures.route signedClass r = .ok (signatureRoute r) := fun r hr => by
      obtain ⟨f, hrelated⟩ := signature_related hr
      exact hrelated.way
    have hattrs : (signedClass.relationships.map (·.attr)).Nodup := by decide
    have hsame : route.relationship = r :=
      List.inj_on_of_nodup_map hattrs hrelated.mem h (List.mem_singleton.mp hchain)
    have hroute := hrelated.way
    rw [hsame, hway r h] at hroute
    exact (Except.ok.inj hroute).symm
  · rintro rfl
    exact ⟨List.mem_singleton_self _, signature_related h⟩

/-- A post with one of its signatures, whose label is given. -/
def signedCells (label : String) : List (String × Value) :=
  [("id", .int 1), ("author_id", .int 2), ("editor_id", .int 3), (label, .int 2)]

def signedRow (label : String) : Row := (signedCells label).map fun e => (.text e.1, e.2)

/-- Signed posts with one of their relationships are loaded in one hop. -/
theorem signed_oneHop {g : Registry} {model : Model} (hregistry : signatures.registry = .ok g)
    (hfound : g.lookup? (.modelClass "Post") = some model) {r : MappedRelationship}
    (h : r ∈ signedClass.relationships) : OneHop signatures g signedClass model [r.attr] := by
  have hsettled := settled_signatures
  constructor
  case all =>
    constructor
    case registry => exact hregistry
    case distinct =>
      rw [hsettled]
      decide +kernel
    case fixed =>
      rw [hsettled]
      decide +kernel
  case mem =>
    rw [hsettled]
    exact .head _
  case found => exact hfound
  case attrs => decide
  case columns => decide
  case names =>
    rw [hsettled]
    decide
  case chains =>
    intro chain hchain
    rw [List.mem_singleton.mp hchain]
    rcases List.mem_pair.mp h with rfl | rfl
    · decide
    · decide

/-- A query of posts. -/
def postQuery (g : Registry) (model : Model) : Builder where
  registry := g
  model := .modelClass "Post"
  kind := .select
  canonical := some model
  draft := .empty

/-- A row for the query answers it with the cells of a signature. -/
theorem answers_signature {g : Registry} {model : Model}
    (hregistry : signatures.registry = .ok g)
    (hfound : g.lookup? (.modelClass "Post") = some model) {r : MappedRelationship}
    (h : r ∈ signedClass.relationships) {b' : Builder}
    (hcalls : Step.each Call.run (eagerCalls [r.attr]) (postQuery g model) = .ok .done b') :
    AnswersFor signedClass (newLabels (postQuery g model) b')
      (signedCells (attrLabel signedClass (signatureRoute r) "id")) := by
  have hhop := signed_oneHop hregistry hfound h
  have honly : ∀ label, label ∈ newLabels (postQuery g model) b' ↔
      label = attrLabel signedClass (signatureRoute r) "id" := by
    intro label
    rw [hhop.all.mem_newLabels hhop.read hhop.chains rfl rfl hcalls, settled_signatures]
    constructor
    · rintro ⟨route, hloaded, column, hcolumn, rfl⟩
      rw [(loaded_signature h).mp hloaded] at hcolumn ⊢
      rw [List.mem_singleton.mp hcolumn]
    · rintro rfl
      exact ⟨_, (loaded_signature h).mpr rfl, _, List.mem_singleton_self _, rfl⟩
  constructor
  case nodup =>
    rcases List.mem_pair.mp h with rfl | rfl
    · decide +kernel
    · decide +kernel
  case given =>
    intro label hlabel
    rw [(honly label).mp hlabel]
    exact .tail _ (.tail _ (.tail _ (.head _)))
  case others =>
    intro key hkey
    rcases hkey with _ | ⟨_, _ | ⟨_, _ | ⟨_, _ | ⟨_, hkey⟩⟩⟩⟩
    · exact .inr ⟨_, .head _, rfl⟩
    · exact .inr ⟨_, .tail _ (.head _), rfl⟩
    · exact .inr ⟨_, .tail _ (.tail _ (.head _)), rfl⟩
    · exact .inl ((honly _).mpr rfl)
    · cases hkey

/-- The author of a post becomes an instance; the attribute of the editors refuses one. -/
theorem author_built_editor_refused :
    ∃ g model, signatures.registry = .ok g ∧ g.lookup? (.modelClass "Post") = some model ∧
      (∃ attributes, loadRecord model (some g) (signedRow "post:author:id") =
          .ok (.object "Post" attributes) ∧
        BuiltFrom signatures signedClass ["author"] (signedCells "post:author:id") Route.holdsMany
          attributes) ∧
      loadRecord model (some g) (signedRow "post:editor:id") = .error .wrongType := by
  -- a registry holds functions, so that only what is asked of it can be decided
  have hasked : (signatures.registry.map fun g =>
      (g.lookup? (.modelClass "Post")).isSome).toOption = some true := by
    rw [Mapping.registry_of_sorted (by decide)]
    decide +kernel
  cases hregistry : signatures.registry with
  | error e =>
      rw [hregistry] at hasked
      cases hasked
  | ok g =>
      rw [hregistry] at hasked
      obtain ⟨model, hfound⟩ := Option.isSome_iff_exists.mp (Option.some.inj hasked)
      have hcalls : ∀ chain, Step.each Call.run (eagerCalls [chain]) (postQuery g model) =
          .ok .done ((postQuery g model).eager model chain) := fun chain =>
        Step.bind_ok (Builder.run_eager (b := postQuery g model) rfl chain)
      have hbuilt : ∀ r (hr : r ∈ signedClass.relationships), _ := fun r hr =>
        instance_built_iff (signed_oneHop hregistry hfound hr) rfl rfl (hcalls r.attr)
          (show (signedRow _).named = .ok (signedCells _) from rfl)
          (answers_signature hregistry hfound hr (hcalls r.attr))
      rw [settled_signatures] at hbuilt
      refine ⟨g, model, rfl, hfound, ?_, ?_⟩
      · refine (hbuilt _ (.head _)).2.1.mpr fun route hloaded => ?_
        rw [(loaded_signature (.head _)).mp hloaded]
        rintro (⟨-, htold⟩ | ⟨⟨t, hway⟩, -⟩)
        · cases htold
        · cases hway
      · exact (hbuilt _ (.tail _ (.head _))).2.2
          ⟨_, (loaded_signature (.tail _ (.head _))).mpr rfl, rfl, rfl⟩

end ModelQuery
