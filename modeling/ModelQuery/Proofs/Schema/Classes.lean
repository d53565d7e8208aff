import ModelQuery.Proofs.Schema.Mapped

/-!
# The model of each class

Classes are registered in the order of their names, and of two with one logical name only the first
comes to a model: its table, its columns and its instances are what both are found as
(`own_model_iff`).  So every class has a model of its own exactly if the logical names differ.
-/

namespace ModelQuery

open Outcome

/-! ## Fields in columns -/

namespace Assoc

variable {α : Type} {k : String} {v : α} {entries m : List (String × α)} {p : α → Bool}

/-- Values of another kind do not count, whether they are new or take the place of their like. -/
theorem filter_put (hv : p v = false) (hk : ∀ e ∈ m, e.1 = k → p e.2 = false) :
    (values (put k v m)).filter p = (values m).filter p := by
  induction m with
  | nil => exact List.filter_cons_of_neg (Bool.not_eq_true _ ▸ hv)
  | cons e rest ih =>
      obtain ⟨k', v'⟩ := e
      obtain ⟨hhead, hrest⟩ := List.forall_mem_cons.mp hk
      rw [put]
      split
      · rename_i heq
        have hv' : p v' = false := hhead (eq_of_beq heq).symm
        show List.filter p (v :: values rest) = List.filter p (v' :: values rest)
        rw [List.filter_cons_of_neg (Bool.not_eq_true _ ▸ hv),
          List.filter_cons_of_neg (Bool.not_eq_true _ ▸ hv')]
      · show List.filter p (v' :: values (put k v rest)) = List.filter p (v' :: values rest)
        rw [List.filter_cons, List.filter_cons, ih hrest]

/-- Puts that neither add a selected value nor replace one leave the selected values as they were.
-/
theorem filter_putAll (hv : ∀ e ∈ entries, p e.2 = false)
    (hk : ∀ e ∈ m, e.1 ∈ keys entries → p e.2 = false) :
    (values (putAll entries m)).filter p = (values m).filter p := by
  induction entries generalizing m with
  | nil => rfl
  | cons e rest ih =>
      obtain ⟨he, hrest⟩ := List.forall_mem_cons.mp hv
      show (values (putAll rest (put e.1 e.2 m))).filter p = _
      rw [ih hrest, filter_put he fun e' he' heq => hk e' he' (heq ▸ List.mem_cons_self)]
      intro e' he' hmem
      rcases mem_put he' with rfl | hold
      · exact he
      · exact hk e' hold (List.mem_cons_of_mem _ hmem)

end Assoc

namespace FieldTable

/-- Fields that are stored elsewhere, under names of their own, do not count. -/
theorem inDb_ofList_append {fields others : List Field} (hfields : ∀ f ∈ fields, f.inDb = true)
    (hothers : ∀ f ∈ others, f.inDb = false) (hnames : ∀ f ∈ fields, ∀ g ∈ others, f.name ≠ g.name) :
    (ofList (fields ++ others)).inDb = (ofList fields).toList := by
  have happend : (ofList (fields ++ others)).entries =
      Assoc.putAll (others.map fun f => (f.name, f)) (ofList fields).entries := by
    show Assoc.putAll ((fields ++ others).map fun f => (f.name, f)) [] = _
    rw [List.map_append, Assoc.putAll, List.foldl_append]
    rfl
  rw [inDb, toList, happend, Assoc.filter_putAll]
  · exact List.filter_eq_self.mpr fun f hf => hfields f (mem_ofList hf)
  · intro e he
    obtain ⟨f, hf, rfl⟩ := List.mem_map.mp he
    exact hothers f hf
  · intro e he hkey
    obtain ⟨hmem, hname⟩ := Assoc.mem_ofList_map Field.name he
    obtain ⟨e', he', hsame⟩ := List.mem_map.mp hkey
    obtain ⟨g, hg, rfl⟩ := List.mem_map.mp he'
    exact absurd (hname.trans hsame.symm) (hnames e.2 hmem g hg)

end FieldTable

/-! ## What a class says about its model -/

namespace MappedClass

variable {c : MappedClass}

/-- The columns by attribute; of two columns of one attribute the later takes the place of the
first. -/
def attributes (c : MappedClass) : List MappedColumn :=
  Assoc.values (Assoc.ofList (c.columns.map fun column => (column.attr, column)))

/-- A model is made of a class: it is stored in the table of the class, its fields in columns are
the attributes of the columns, and its records are instances of the class, which take any values for
these attributes. -/
structure IsModel (c : MappedClass) (model : Model) : Prop where
  table : model.table = c.table
  columns : model.fields.inDb = c.attributes.map fun column => (columnField column).bind model.name
  factory : ∃ make, model.factory = some make ∧
    (∀ entries record, make entries = .ok record →
      ∃ attributes, record = .object c.name attributes ∧ attributes.Perm entries) ∧
    ∀ entries, (∀ e ∈ entries, ∃ column ∈ c.columns, column.attr = e.1) →
      ∃ record, make entries = .ok record

/-- The fields of a class's columns are those of its attributes. -/
theorem toList_ofList_columns (c : MappedClass) :
    (FieldTable.ofList (c.columns.map columnField)).toList = c.attributes.map columnField := by
  have hentries : (c.columns.map columnField).map (fun f => (f.name, f)) =
      (c.columns.map fun column => (column.attr, column)).map (Prod.map id columnField) := by
    rw [List.map_map, List.map_map]
    rfl
  show Assoc.values (Assoc.putAll _ ([].map (Prod.map id columnField))) = _
  rw [hentries, Assoc.putAll_map, attributes]
  show List.map _ (List.map _ _) = List.map _ (List.map _ _)
  rw [List.map_map, List.map_map]
  rfl

/-- An attribute of a column takes anything. -/
theorem slotFor_column {others : List Field} {column : MappedColumn} (h : column ∈ c.columns) :
    slotFor c (c.columns.map columnField ++ others) column.attr = .anything := by
  have hfind : ∃ f, (c.columns.map columnField ++ others).find? (fun f => f.name == column.attr) =
      some f ∧ f.link = .plain := by
    have hsome : ((c.columns.map columnField).find? fun f => f.name == column.attr).isSome := by
      rw [List.find?_isSome]
      exact ⟨columnField column, List.mem_map_of_mem h, beq_self_eq_true column.attr⟩
    obtain ⟨f, hf⟩ := Option.isSome_iff_exists.mp hsome
    obtain ⟨column', -, rfl⟩ := List.mem_map.mp (List.mem_of_find?_eq_some hf)
    refine ⟨columnField column', ?_, rfl⟩
    rw [List.find?_append, hf]
    rfl
  obtain ⟨f, hf, hplain⟩ := hfind
  rw [slotFor, hf]
  dsimp only
  rw [hplain]
  rfl

end MappedClass

namespace Record

variable {className : String} {slot : String → Slot} {entries : List (String × Record)}

/-- An instance has the entries that it is made of, in some order. -/
theorem of_instanceOf {record : Record} (h : instanceOf className slot entries = .ok record) :
    ∃ attributes, record = .object className attributes ∧ attributes.Perm entries := by
  obtain ⟨done, -, h⟩ := bind_eq_ok h
  cases h
  exact ⟨_, rfl, List.mergeSort_perm ..⟩

/-- Where every slot takes anything, an instance is made. -/
theorem instanceOf_of_anything (h : ∀ e ∈ entries, slot e.1 = .anything) :
    ∃ record, instanceOf className slot entries = .ok record := by
  have hfits : entries.forM (fun e => fit (slot e.1) e.2) = .ok () := by
    refine forM_eq_ok_iff.mpr fun e he => ?_
    rw [h _ he]
    rfl
  refine ⟨.object className (entries.mergeSort fun a b => decide (a.1 ≤ b.1)), ?_⟩
  show (entries.forM (fun e => fit (slot e.1) e.2) >>= fun _ => _) = _
  rw [hfits]
  rfl

end Record

/-! ## Classes and their models -/

namespace Mapping

variable {described m : Mapping} {c first : MappedClass} {g : Registry}

/-- What is described of a class that can be made is a model of it. -/
theorem isModel_of_describes {x : Registration} {model : Model} (hx : m.Describes c x)
    (happart : c.Apart) (hmodel : Registry.modelOf c.logicalName x = .ok model) : c.IsModel model := by
  obtain ⟨routes, hroutes, hx⟩ := hx
  obtain ⟨related, hrelated, hnamed, -, htable, hfields, hfactory⟩ := of_registration hx
  obtain ⟨hname, htable', hfields', hfactory'⟩ := Registry.of_modelOf hmodel
  have hothers : ∀ f ∈ related.filterMap id, f.inDb = false ∧
      ∀ column ∈ c.columns, column.attr ≠ f.name := by
    intro f hf
    obtain ⟨r, hr, route, -, hfield, hname⟩ := of_related hroutes hrelated hf
    refine ⟨(of_relationshipField hfield).inDb, fun column hcolumn => ?_⟩
    rw [hname]
    exact happart.column column hcolumn r hr
  constructor
  case table => rw [htable', htable, orElse, if_neg hnamed]
  case columns =>
    rw [hfields', FieldTable.inDb_bind, hfields, FieldTable.inDb_ofList_append,
      MappedClass.toList_ofList_columns, List.map_map, hname]
    · rfl
    · intro f hf
      obtain ⟨column, -, rfl⟩ := List.mem_map.mp hf
      rfl
    · exact fun f hf => (hothers f hf).1
    · intro f hf f' hf'
      obtain ⟨column, hcolumn, rfl⟩ := List.mem_map.mp hf
      exact (hothers f' hf').2 column hcolumn
  case factory =>
    refine ⟨_, hfactory'.trans hfactory, fun entries record => Record.of_instanceOf, ?_⟩
    intro entries hentries
    refine Record.instanceOf_of_anything fun e he => ?_
    obtain ⟨column, hcolumn, hattr⟩ := hentries e he
    rw [← hattr, hfields]
    exact MappedClass.slotFor_column hcolumn

/-- A class is looked up by its logical name. -/
theorem lookup?_class (g : Registry) (c : MappedClass) :
    g.lookup? (.modelClass c.name) = g.find? c.logicalName := rfl

/-- What is found for a class is a model of the first class of its logical name. -/
theorem lookup?_first (h : described.registry = .ok g) {name : String}
    (hfirst : described.settled.first? name = some first) :
    ∃ model, g.find? name = some model ∧ first.IsModel model := by
  obtain ⟨x, model, hx, hmade, hfound⟩ := registers_first h hfirst
  obtain ⟨hmem, rfl⟩ := mem_of_first? hfirst
  have happart := apart_of_check (describes_in_order h).1 hmem
  exact ⟨model, hfound, isModel_of_describes hx happart hmade⟩

/-- **EACH CLASS ITS OWN MODEL**: what a registry that was read from classes finds for a class is a
model of the first class, by name, that has the same logical name; it is one of the class itself
exactly if that is the first.  So every class has a model of its own exactly if all have different
logical names. -/
theorem own_model_iff (h : described.registry = .ok g) :
    let classes := described.settled.classes
    let found (c : MappedClass) : Prop :=
      ∃ model, g.lookup? (.modelClass c.name) = some model ∧ c.IsModel model
    (∀ c ∈ classes, ∃ first model, described.settled.first? c.logicalName = some first ∧
        g.lookup? (.modelClass c.name) = some model ∧ first.IsModel model) ∧
      (∀ c ∈ classes, found c ↔ described.settled.first? c.logicalName = some c) ∧
      ((∀ c ∈ classes, found c) ↔ (classes.map MappedClass.logicalName).Nodup) := by
  intro classes found
  obtain ⟨hcheck, -⟩ := describes_in_order h
  have hfirst : ∀ c ∈ classes, ∃ first model, described.settled.first? c.logicalName = some first ∧
      g.lookup? (.modelClass c.name) = some model ∧ first.IsModel model := by
    intro c hc
    obtain ⟨first, hfirst⟩ := exists_first? hc
    obtain ⟨model, hfound, hmodel⟩ := lookup?_first h hfirst
    exact ⟨first, model, hfirst, (lookup?_class g c).trans hfound, hmodel⟩
  have hfound : ∀ c ∈ classes, found c ↔ described.settled.first? c.logicalName = some c := by
    intro c hc
    obtain ⟨first, model, hfirst, hlookup, hmodel⟩ := hfirst c hc
    constructor
    · rintro ⟨model', hlookup', hmodel'⟩
      rw [hlookup] at hlookup'
      cases hlookup'
      -- the table tells the two classes apart
      have htable : first.table = c.table := hmodel.table.symm.trans hmodel'.table
      rw [hfirst, eq_of_table hcheck (mem_of_first? hfirst).1 hc htable]
    · intro heq
      rw [hfirst] at heq
      cases heq
      exact ⟨model, hlookup, hmodel⟩
  refine ⟨hfirst, hfound, fun hall => ?_, fun hnodup c hc => ?_⟩
  · refine (List.Nodup.of_map _ (settled_tables_nodup hcheck)).map_on fun c hc c' hc' heq => ?_
    have hone := (hfound c hc).mp (hall c hc)
    rw [heq, (hfound c' hc').mp (hall c' hc')] at hone
    exact (Option.some.inj hone).symm
  · exact (hfound c hc).mpr (first?_of_nodup hnodup hc)

end Mapping

def newPost : MappedClass where
  name := "Post"
  table := "posts"
  columns := [⟨"id", "id", none, true⟩]
  relationships := []

def oldPost : MappedClass where
  name := "post"
  table := "old_posts"
  columns := [⟨"id", "id", none, true⟩]
  relationships := []

def twoPosts : Mapping := ⟨[], [newPost, oldPost]⟩

/-- Of two classes whose names differ in a capital, the one has no model of its own. -/
theorem old_post_replaced :
    ∃ g, twoPosts.registry = .ok g ∧
      (∃ model, g.lookup? (.modelClass "Post") = some model ∧ newPost.settled.IsModel model) ∧
      ¬ ∃ model, g.lookup? (.modelClass "post") = some model ∧ oldPost.settled.IsModel model := by
  have hregistry : twoPosts.registry.isOk = true := by
    rw [Mapping.registry_of_sorted (by decide)]
    decide +kernel
  have horder : twoPosts.settled.inOrder = [newPost.settled, oldPost.settled] :=
    List.mergeSort_of_pairwise (by decide)
  have hname : newPost.settled.logicalName = "post" ∧ oldPost.settled.logicalName = "post" := by
    decide +kernel
  have hfirst : twoPosts.settled.first? "post" = some newPost.settled := by
    rw [Mapping.first?, horder]
    exact List.find?_cons_of_pos (decide_eq_true hname.1)
  cases hg : twoPosts.registry with
  | error e =>
      rw [hg] at hregistry
      cases hregistry
  | ok g =>
      obtain ⟨-, hfound, -⟩ := Mapping.own_model_iff hg
      refine ⟨g, rfl, (hfound newPost.settled List.mem_cons_self).mpr ?_, fun hold => ?_⟩
      · rw [hname.1, hfirst]
      · have hown := (hfound oldPost.settled (List.mem_cons_of_mem _ List.mem_cons_self)).mp hold
        rw [hname.2, hfirst] at hown
        exact absurd (congrArg (·.map (·.table)) hown) (by decide)

end ModelQuery
