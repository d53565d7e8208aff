import ModelQuery.Proofs.Records.Labels

/-!
# Eager loading and back

A row that answers the labels of some chains becomes a nested record.  Without factories that record
is known all the way down: at every path the chains reach it holds the values of the row, or nothing
(`eager_round_trip`).

When it holds nothing is not decided by the labels alone.  A field that refers to another record is
also a column of its own model, with a label; where a chain follows the field, the record found
there takes the place of the column's value.  What counts is whether a value is left: the labels of
fields that are followed do not.
-/

namespace ModelQuery

open Outcome

/-! ## Records without factories -/

/-- None of the models that relationships lead to has a factory. -/
def Bare : Option Registry → Option Model → Prop := Along fun c => c.factory = none

/-- The record at the end of a relationship, from its fields. -/
def recordOf (es : List (String × Record)) : Record :=
  if somePresent es then .fields es else .absent

/-- A value is left in the tree: it is not null, and no tree stands in its place. -/
def Tree.HasValue (t : Tree) : Prop :=
  ∃ path field v, t.value? (path ++ [field]) = some v ∧ v ≠ .null ∧
    t.below? (path ++ [field]) = none

section Bare

variable {registry : Option Registry} {m : Option Model} {t : Tree} {es : List (String × Record)}

/-- Without factories nothing is held as a list. -/
theorem Bare.holding_eq (h : Bare registry m) (name : String) (r : Record) :
    holding m name r = r := by
  have hwants : wantsList m name = false := by
    cases m with
    | none => rfl
    | some c =>
        rw [wantsList, h [] c rfl]
        rfl
  rw [holding, hwants]
  rfl

/-- Without a factory a record is its fields. -/
theorem Bare.buildRecord_eq (h : Bare registry m) : buildRecord m es = .ok (.fields es) := by
  cases m with
  | none => rfl
  | some c => rw [buildRecord, Model.build, h [] c rfl]

/-- Without factories a relationship holds the record of its fields. -/
theorem Bare.relationshipOf_eq (h : Bare registry m) {name : String} {c : Tree}
    (hes : c.entries registry (relatedModel? registry m name) = .ok es) :
    relationshipOf registry m name c = .ok (recordOf es) := by
  have hchild : Bare registry (relatedModel? registry m name) := h.further [name]
  rw [ModelQuery.relationshipOf_eq hes, hchild.buildRecord_eq, recordOf]
  split
  · exact congrArg Except.ok (h.holding_eq name _)
  · exact congrArg Except.ok (h.holding_eq name _)

/-- Without factories the entries of a tree always come out. -/
theorem Bare.entries_isOk (h : Bare registry m) (ht : t.Ordered) :
    ∃ es, t.entries registry m = .ok es := by
  induction t using Tree.descend generalizing m with
  | step t ih =>
      refine ModelQuery.entries_isOk ht ?_
      intro name c hc
      obtain ⟨es, hes⟩ := ih name c hc (h.further [name]) (ht.lookup hc)
      exact ⟨_, h.relationshipOf_eq hes⟩

/-- A relationship of the tree holds the record of its own entries. -/
theorem Bare.lookup_related (h : Bare registry m) (ht : t.Ordered)
    (hes : t.entries registry m = .ok es) {name : String} {c : Tree}
    (hc : t.related.lookup name = some c) :
    ∃ es', c.entries registry (relatedModel? registry m name) = .ok es' ∧
      es.lookup name = some (recordOf es') := by
  obtain ⟨r, hr, hlookup⟩ := lookup_relationship ht hes hc
  obtain ⟨es', hes'⟩ := Bare.entries_isOk (h.further [name]) (ht.lookup hc)
  rw [h.relationshipOf_eq hes'] at hr
  cases hr
  exact ⟨es', hes', hlookup⟩

theorem recordOf_isPresent : (recordOf es).isPresent = somePresent es := by
  rw [recordOf]
  split
  · rename_i h
    exact h.symm
  · rename_i h
    exact (Bool.eq_false_iff.mpr h).symm

/-- A value below a relationship is one of the tree. -/
theorem Tree.HasValue.lookup {c : Tree} {name : String} (h : c.HasValue)
    (hc : t.related.lookup name = some c) : t.HasValue := by
  obtain ⟨path, field, v, hv, hnull, hend⟩ := h
  have hne : path ++ [field] ≠ [] := by simp
  refine ⟨name :: path, field, v, ?_, hnull, ?_⟩
  · rw [List.cons_append, Tree.value?_cons hne, hc]
    exact hv
  · rw [List.cons_append, Tree.below?, hc]
    exact hend

/-- The fields are those of a record just in case a value is left. -/
theorem Bare.somePresent_iff (h : Bare registry m) (ht : t.Ordered)
    (hes : t.entries registry m = .ok es) : somePresent es ↔ t.HasValue := by
  induction t using Tree.descend generalizing m es with
  | step t ih =>
      rw [ModelQuery.somePresent_iff (entries_nodup ht hes)]
      constructor
      · rintro ⟨name, r, hr, hthere⟩
        cases hc : t.related.lookup name with
        | some c =>
            obtain ⟨es', hes', hlookup⟩ := h.lookup_related ht hes hc
            rw [hlookup] at hr
            cases hr
            rw [recordOf_isPresent] at hthere
            have hc' := (ih name c hc (h.further [name]) (ht.lookup hc) hes').mp hthere
            exact hc'.lookup hc
        | none =>
            rw [lookup_own ht hes hc] at hr
            obtain ⟨v, hv, rfl⟩ := Option.map_eq_some_iff.mp hr
            refine ⟨[], name, v, ?_, ?_, ?_⟩
            · rw [List.nil_append, Tree.value?_field]
              exact hv
            · rintro rfl
              cases hthere
            · rw [List.nil_append, Tree.below?, hc]
              rfl
      · rintro ⟨path, field, v, hv, hnull, hend⟩
        cases path with
        | nil =>
            have hc : t.related.lookup field = none := by
              cases hc : t.related.lookup field with
              | none => rfl
              | some c =>
                  rw [List.nil_append, Tree.below?, hc] at hend
                  cases hend
            refine ⟨field, .cell v, ?_, ?_⟩
            · rw [List.nil_append, Tree.value?_field] at hv
              rw [lookup_own ht hes hc, hv]
              rfl
            · cases v with
              | null => exact absurd rfl hnull
              | _ => rfl
        | cons name rest =>
            have hne : rest ++ [field] ≠ [] := by simp
            rw [List.cons_append, Tree.value?_cons hne] at hv
            obtain ⟨c, hc, hv⟩ := Option.bind_eq_some_iff.mp hv
            rw [List.cons_append, Tree.below?, hc] at hend
            obtain ⟨es', hes', hlookup⟩ := h.lookup_related ht hes hc
            refine ⟨name, recordOf es', hlookup, ?_⟩
            rw [recordOf_isPresent]
            exact (ih name c hc (h.further [name]) (ht.lookup hc) hes').mpr
              ⟨rest, field, v, hv, hnull, hend⟩

/-- A value that is left further down is left in the tree. -/
theorem Tree.HasValue.above {path : List String} {c : Tree} (h : c.HasValue)
    (hc : t.below? path = some c) : t.HasValue := by
  induction path generalizing t with
  | nil =>
      cases hc
      exact h
  | cons name rest ih =>
      obtain ⟨c', hc', hrest⟩ := Option.bind_eq_some_iff.mp hc
      exact (ih hrest).lookup hc'

/-- The part of a record at the end of a path; below nothing there is nothing. -/
def Record.at? : List String → Record → Option Record
  | [], r => some r
  | name :: rest, .fields es => (es.lookup name).bind (at? rest)
  | _ :: _, r => if r.isPresent then none else some .absent

/-- At the end of a path stands the record of the fields there. -/
theorem Bare.at?_recordOf (h : Bare registry m) (ht : t.Ordered)
    (hes : t.entries registry m = .ok es) {path : List String} {c : Tree}
    {es' : List (String × Record)} (hc : t.below? path = some c)
    (hes' : c.entries registry (modelAlong registry m path) = .ok es') :
    (recordOf es).at? path = some (recordOf es') := by
  induction path generalizing t m es with
  | nil =>
      cases hc
      rw [modelAlong, hes] at hes'
      cases hes'
      rfl
  | cons name rest ih =>
      by_cases hpresent : somePresent es = true
      · obtain ⟨c₁, hc₁, hrest⟩ := Option.bind_eq_some_iff.mp hc
        obtain ⟨es₁, hes₁, hlookup⟩ := h.lookup_related ht hes hc₁
        rw [recordOf, if_pos hpresent, Record.at?, hlookup]
        exact ih (h.further [name]) (ht.lookup hc₁) hes₁ hrest hes'
      · -- a value left further down would be left here too
        have hbelow : somePresent es' ≠ true := by
          intro hp
          have hbare : Bare registry (modelAlong registry m (name :: rest)) := h.further _
          have hvalue := (hbare.somePresent_iff (ht.descendant hc) hes').mp hp
          exact hpresent ((h.somePresent_iff ht hes).mpr (hvalue.above hc))
        rw [recordOf, recordOf, if_neg hpresent, if_neg hbelow]
        rfl

/-- The same below a record whose own fields are there in any case. -/
theorem Bare.at?_fields (h : Bare registry m) (ht : t.Ordered)
    (hes : t.entries registry m = .ok es) {path : List String} {c : Tree}
    {es' : List (String × Record)} (hne : path ≠ []) (hc : t.below? path = some c)
    (hes' : c.entries registry (modelAlong registry m path) = .ok es') :
    (Record.fields es).at? path = some (recordOf es') := by
  cases path with
  | nil => exact absurd rfl hne
  | cons name rest =>
      obtain ⟨c₁, hc₁, hrest⟩ := Option.bind_eq_some_iff.mp hc
      obtain ⟨es₁, hes₁, hlookup⟩ := h.lookup_related ht hes hc₁
      rw [Record.at?, hlookup]
      exact Bare.at?_recordOf (h.further [name]) (ht.lookup hc₁) hes₁ hrest hes'

end Bare

/-! ## Rows that answer labels -/

/-- The models of a registry are without factories, each is stored in some column, and no field
has a mark in its name. -/
structure Plain (r : Registry) : Prop where
  factory : ∀ c ∈ r.models, c.factory = none
  stored : ∀ c ∈ r.models, c.fields.inDb ≠ []
  unmarked : ∀ c ∈ r.models, ∀ f ∈ c.fields.inDb, pathMark ∉ f.name.toList

/-- The row gives one value to every label; its other columns have no mark. -/
structure Gives (labels : List String) (cells : List (String × Value)) : Prop where
  nodup : (Assoc.keys cells).Nodup
  given : ∀ label ∈ labels, label ∈ Assoc.keys cells
  others : ∀ column ∈ Assoc.keys cells, column ∈ labels ∨ pathMark ∉ column.toList

/-- The labels are those of the paths that chains reach from a model. -/
def LabelsOf (r : Registry) (m : Model) (chains labels : List String) : Prop :=
  ∀ label, label ∈ labels ↔
    ∃ path owner, Reached r m chains path owner ∧
      ∃ f ∈ owner.fields.inDb, label = labelText m.name (path ++ [f.name])

/-- All labels below a path are null, but for those of fields that the chains follow. -/
def LeftNull (r : Registry) (m : Model) (chains : List String) (cells : List (String × Value))
    (path : List String) : Prop :=
  ∀ more owner f, Reached r m chains (path ++ more) owner → f ∈ owner.fields.inDb →
    (∀ next, ¬ Reached r m chains (path ++ more ++ [f.name]) next) →
    cells.lookup (labelText m.name (path ++ more ++ [f.name])) = some .null

section Rows

variable {r : Registry} {m : Model} {chains labels : List String} {cells : List (String × Value)}
  {path : List String}

/-- What a path reaches is registered. -/
theorem Reached.mem {owner : Model} (h : Reached r m chains path owner) (hm : m ∈ r.models) :
    owner ∈ r.models := by
  rcases modelAlong_mem h.2.1 with rfl | ⟨r', hr, hmem⟩
  · exact hm
  · cases hr
    exact hmem

/-- The label of a field is read as the path to its model and its name. -/
theorem Reached.segments_eq {owner : Model} {f : Field} (h : Reached r m chains path owner)
    (hplain : Plain r) (hm : m ∈ r.models) (hf : f ∈ owner.fields.inDb) :
    segments m (labelText m.name (path ++ [f.name])) = path ++ [f.name] := by
  have hne : path ++ [f.name] ≠ [] := by simp
  have hunmarked : ∀ segment ∈ path ++ [f.name], pathMark ∉ segment.toList := by
    intro segment hs
    rcases List.mem_append.mp hs with hs | hs
    · exact h.unmarked segment hs
    · rw [List.mem_singleton.mp hs]
      exact hplain.unmarked owner (h.mem hm) f hf
  exact segments_labelText hne hunmarked

/-- A column with a path beyond the record itself is a label. -/
theorem label_of_cell (hplain : Plain r) (hm : m ∈ r.models) (hl : LabelsOf r m chains labels)
    (hg : Gives labels cells) {e : String × Value} {more : List String} (he : e ∈ cells)
    (hne : path ≠ []) (hmore : more ≠ []) (hpath : segments m e.1 = path ++ more) :
    ∃ way owner f, Reached r m chains (path ++ way) owner ∧ f ∈ owner.fields.inDb ∧
      more = way ++ [f.name] ∧ e.1 = labelText m.name (path ++ way ++ [f.name]) := by
  rcases hg.others e.1 (List.mem_map_of_mem he) with hlabel | hown
  · obtain ⟨full, owner, hreached, f, hf, heq⟩ := (hl e.1).mp hlabel
    have hfull : full ++ [f.name] = path ++ more := by
      rw [← hpath, heq, hreached.segments_eq hplain hm hf]
    obtain ⟨way, last, rfl⟩ : ∃ way last, more = way ++ [last] :=
      ⟨more.dropLast, more.getLast hmore, (List.dropLast_concat_getLast hmore).symm⟩
    rw [← List.append_assoc] at hfull
    obtain ⟨rfl, hlast⟩ := List.append_inj' hfull rfl
    cases hlast
    exact ⟨way, owner, f, hreached, hf, rfl, heq⟩
  · -- a column without a mark has a path of one segment
    have hlength : (path ++ more).length = 1 := by
      rw [← hpath]
      exact segments_own hown
    have hpath_length : path.length ≠ 0 := fun h => hne (List.length_eq_zero_iff.mp h)
    have hmore_length : more.length ≠ 0 := fun h => hmore (List.length_eq_zero_iff.mp h)
    rw [List.length_append] at hlength
    omega

/-- The tree of the row holds the value of a label at its path. -/
theorem value_of_label (hplain : Plain r) (hm : m ∈ r.models) (hl : LabelsOf r m chains labels)
    (hg : Gives labels cells) {owner : Model} {f : Field} (h : Reached r m chains path owner)
    (hf : f ∈ owner.fields.inDb) :
    ∃ v, cells.lookup (labelText m.name (path ++ [f.name])) = some v ∧
      (treeOf m cells).value? (path ++ [f.name]) = some v := by
  obtain ⟨v, he⟩ :=
    Assoc.exists_of_mem_keys (hg.given _ ((hl _).mpr ⟨path, owner, h, f, hf, rfl⟩))
  have hpath := h.segments_eq hplain hm hf
  -- another column with this path would have the same label
  have hsame : ∀ e ∈ cells, segments m e.1 = path ++ [f.name] → e.2 = v := by
    intro e he' heq
    obtain ⟨way, owner', f', -, -, hway, hlabel⟩ :=
      label_of_cell hplain hm hl hg he' h.1 (List.cons_ne_nil _ _) heq
    have hempty : [] ++ [f.name] = way ++ [f'.name] := hway
    obtain ⟨rfl, hname⟩ := List.append_inj' hempty rfl
    rw [List.append_nil, ← hname] at hlabel
    have hsecond := Assoc.lookup_of_mem hg.nodup he'
    rw [hlabel, Assoc.lookup_of_mem hg.nodup he] at hsecond
    exact (Option.some.inj hsecond).symm
  have hvalue : (treeOf m cells).value? (segments m (labelText m.name (path ++ [f.name]))) =
      some v :=
    value?_treeOf_of he fun e he' heq => hsame e he' (heq.trans hpath)
  rw [hpath] at hvalue
  exact ⟨v, Assoc.lookup_of_mem hg.nodup he, hvalue⟩

/-- A value in the tree of the row beyond the record itself is that of a label. -/
theorem label_of_value (hplain : Plain r) (hm : m ∈ r.models) (hl : LabelsOf r m chains labels)
    (hg : Gives labels cells) {field : String} {v : Value} (hne : path ≠ [])
    (hv : (treeOf m cells).value? (path ++ [field]) = some v) :
    ∃ owner f, Reached r m chains path owner ∧ f ∈ owner.fields.inDb ∧ f.name = field ∧
      cells.lookup (labelText m.name (path ++ [field])) = some v := by
  obtain ⟨e, he, hpath, rfl⟩ := value?_treeOf hv
  obtain ⟨way, owner, f, hreached, hf, hway, heq⟩ :=
    label_of_cell hplain hm hl hg he hne (List.cons_ne_nil _ _) hpath
  have hempty : [] ++ [field] = way ++ [f.name] := hway
  obtain ⟨rfl, hname⟩ := List.append_inj' hempty rfl
  cases hname
  rw [List.append_nil] at hreached heq
  refine ⟨owner, f, hreached, hf, rfl, ?_⟩
  rw [← heq]
  exact Assoc.lookup_of_mem hg.nodup he

/-- The tree of the row has a tree below the paths that are reached, and no others. -/
theorem below_iff_reached (hplain : Plain r) (hm : m ∈ r.models) (hl : LabelsOf r m chains labels)
    (hg : Gives labels cells) (hne : path ≠ []) :
    ((treeOf m cells).below? path).isSome ↔ ∃ owner, Reached r m chains path owner := by
  rw [isSome_below?_treeOf]
  constructor
  · rintro (h | ⟨e, he, more, hmore, hpath⟩)
    · exact absurd h hne
    · obtain ⟨way, owner, f, hreached, -⟩ := label_of_cell hplain hm hl hg he hne hmore hpath
      exact hreached.on_the_way hne
  · rintro ⟨owner, h⟩
    obtain ⟨f, hf⟩ := List.exists_mem_of_ne_nil _ (hplain.stored owner (h.mem hm))
    obtain ⟨v, he⟩ :=
      Assoc.exists_of_mem_keys (hg.given _ ((hl _).mpr ⟨path, owner, h, f, hf, rfl⟩))
    exact .inr ⟨_, he, [f.name], List.cons_ne_nil _ _, h.segments_eq hplain hm hf⟩

/-- A value is left below a path unless the labels there are null, but for those of fields that are
followed. -/
theorem hasValue_iff (hplain : Plain r) (hm : m ∈ r.models) (hl : LabelsOf r m chains labels)
    (hg : Gives labels cells) {c : Tree} (hne : path ≠ [])
    (hc : (treeOf m cells).below? path = some c) :
    c.HasValue ↔ ¬ LeftNull r m chains cells path := by
  have hvalue : ∀ more field, (treeOf m cells).value? (path ++ more ++ [field]) =
      c.value? (more ++ [field]) := by
    intro more field
    rw [List.append_assoc, Tree.value?_append (by simp), hc]
    rfl
  have hbelow : ∀ more field, c.below? (more ++ [field]) = none ↔
      ∀ next, ¬ Reached r m chains (path ++ more ++ [field]) next := by
    intro more field
    have hrow : (treeOf m cells).below? (path ++ more ++ [field]) =
        c.below? (more ++ [field]) := by
      rw [List.append_assoc, Tree.below?_append, hc]
      rfl
    rw [← hrow, ← Option.not_isSome_iff_eq_none,
      below_iff_reached hplain hm hl hg (by simp), not_exists]
  have hway : ∀ more, path ++ more ≠ [] := by
    intro more hnil
    exact hne (List.append_eq_nil_iff.mp hnil).1
  constructor
  · rintro ⟨more, field, v, hv, hnull, hend⟩ hleft
    rw [← hvalue] at hv
    obtain ⟨owner, f, hreached, hf, rfl, hlookup⟩ :=
      label_of_value hplain hm hl hg (hway more) hv
    rw [hleft more owner f hreached hf ((hbelow more f.name).mp hend)] at hlookup
    exact hnull (Option.some.inj hlookup).symm
  · intro hleft
    refine Classical.byContradiction fun hno => hleft ?_
    intro more owner f hreached hf hend
    obtain ⟨v, hlookup, hv⟩ := value_of_label hplain hm hl hg hreached hf
    rw [hvalue] at hv
    by_cases hnull : v = .null
    · rw [hlookup, hnull]
    · exact absurd ⟨more, f.name, v, hv, hnull, (hbelow more f.name).mpr hend⟩ hno

/-- What the fields of the record at a path are: under the relationships that are followed the
records further down, under the other stored fields the values of their labels, and nothing else. -/
structure Shows (r : Registry) (m : Model) (chains : List String) (cells : List (String × Value))
    (whole : Record) (path : List String) (owner : Model) (fs : List (String × Record)) : Prop where
  nodup : (Assoc.keys fs).Nodup
  followed : ∀ name next, Reached r m chains (path ++ [name]) next →
    ∃ record, fs.lookup name = some record ∧ whole.at? (path ++ [name]) = some record
  kept : ∀ f ∈ owner.fields.inDb, (∀ next, ¬ Reached r m chains (path ++ [f.name]) next) →
    ∃ v, cells.lookup (labelText m.name (path ++ [f.name])) = some v ∧
      fs.lookup f.name = some (.cell v)
  only : ∀ name record, fs.lookup name = some record →
    (∃ next, Reached r m chains (path ++ [name]) next) ∨ ∃ f ∈ owner.fields.inDb, f.name = name

/-- In a plain registry there are no factories along any path. -/
theorem Plain.bare (hplain : Plain r) (hm : m ∈ r.models) : Bare (some r) (some m) := by
  intro path c hc
  rcases modelAlong_mem hc with rfl | ⟨r', hr, hmem⟩
  · exact hplain.factory _ hm
  · cases hr
    exact hplain.factory _ hmem

/-- What the row gives at the end of a path is shown by the fields that come out there. -/
theorem shows_fields (hplain : Plain r) (hm : m ∈ r.models) (hl : LabelsOf r m chains labels)
    (hg : Gives labels cells) {owner : Model} {c : Tree} {es fs : List (String × Record)}
    (hes : (treeOf m cells).entries (some r) (some m) = .ok es)
    (h : Reached r m chains path owner) (hc : (treeOf m cells).below? path = some c)
    (hfs : c.entries (some r) (some owner) = .ok fs) :
    Shows r m chains cells (.fields es) path owner fs := by
  have ht : (treeOf m cells).Ordered := ordered_treeOf cells
  have hbare : Bare (some r) (some m) := hplain.bare hm
  have hchild : Bare (some r) (some owner) := h.2.1 ▸ hbare.further path
  have hway : ∀ name, path ++ [name] ≠ [] := by simp
  have hdown : ∀ name, (treeOf m cells).below? (path ++ [name]) = c.related.lookup name := by
    intro name
    rw [Tree.below?_append, hc]
    show ((c.related.lookup name).bind (Tree.below? [])) = _
    cases c.related.lookup name with
    | none => rfl
    | some c' => rfl
  refine ⟨entries_nodup (ht.descendant hc) hfs, ?_, ?_, ?_⟩
  · intro name next hnext
    obtain ⟨c', hc'⟩ := Option.isSome_iff_exists.mp
      ((below_iff_reached hplain hm hl hg (hway name)).mpr ⟨next, hnext⟩)
    obtain ⟨fs', hfs', hlookup⟩ :=
      hchild.lookup_related (ht.descendant hc) hfs ((hdown name).symm.trans hc')
    refine ⟨recordOf fs', hlookup, hbare.at?_fields ht hes (hway name) hc' ?_⟩
    rw [modelAlong_append, h.2.1]
    exact hfs'
  · intro f hf hend
    have hnone : c.related.lookup f.name = none := by
      rw [← hdown, ← Option.not_isSome_iff_eq_none,
        below_iff_reached hplain hm hl hg (hway f.name), not_exists]
      exact hend
    obtain ⟨v, hlabel, hv⟩ := value_of_label hplain hm hl hg h hf
    rw [Tree.value?_append (List.cons_ne_nil _ _), hc, Option.bind_some, Tree.value?_field] at hv
    refine ⟨v, hlabel, ?_⟩
    rw [lookup_own (ht.descendant hc) hfs hnone, hv]
    rfl
  · intro name record hlookup
    cases hrelated : c.related.lookup name with
    | some c' =>
        have hsome : ((treeOf m cells).below? (path ++ [name])).isSome := by
          rw [hdown, hrelated]
          rfl
        exact .inl ((below_iff_reached hplain hm hl hg (hway name)).mp hsome)
    | none =>
        rw [lookup_own (ht.descendant hc) hfs hrelated] at hlookup
        obtain ⟨v, hv, -⟩ := Option.map_eq_some_iff.mp hlookup
        have hrow : (treeOf m cells).value? (path ++ [name]) = some v := by
          rw [Tree.value?_append (List.cons_ne_nil _ _), hc]
          exact hv
        obtain ⟨owner', f, hreached, hf, hname, -⟩ := label_of_value hplain hm hl hg h.1 hrow
        rw [h.owner_eq hreached]
        exact .inr ⟨f, hf, hname⟩

end Rows

/-- **EAGER LOADING AND BACK**: load along any chains and let a row answer the labels that selects,
beside columns of the model itself.  The record of the row has at every path the chains reach
nothing, if the labels below are null but for those of fields that are followed, and else fields
that show exactly what the row has there.  Two labels of different paths or fields differ. -/
theorem eager_round_trip {b b' : Builder} {m : Model} {chains : List String} {reply : Reply}
    {row : Row} {cells : List (String × Value)} (hplain : Plain b.registry)
    (hm : m ∈ b.registry.models) (hc : b.canonical = some m)
    (hcalls : Step.each Call.run (eagerCalls chains) b = .ok reply b')
    (hrow : row.named = .ok cells) (hgives : Gives (newLabels b b') cells) :
    (∃ es, loadRecord m (some b.registry) row = .ok (.fields es) ∧
      ∀ path owner, Reached b.registry m chains path owner →
        (LeftNull b.registry m chains cells path →
          (Record.fields es).at? path = some .absent) ∧
        (¬ LeftNull b.registry m chains cells path →
          ∃ fs, (Record.fields es).at? path = some (.fields fs) ∧
            Shows b.registry m chains cells (.fields es) path owner fs)) ∧
    ∀ path owner path' owner', Reached b.registry m chains path owner →
      Reached b.registry m chains path' owner' →
      ∀ f ∈ owner.fields.inDb, ∀ f' ∈ owner'.fields.inDb,
        labelText m.name (path ++ [f.name]) = labelText m.name (path' ++ [f'.name]) →
        path = path' ∧ f.name = f'.name := by
  have hl : LabelsOf b.registry m chains (newLabels b b') := mem_newLabels hc hcalls
  have hbare : Bare (some b.registry) (some m) := hplain.bare hm
  have ht : (treeOf m cells).Ordered := ordered_treeOf cells
  constructor
  · obtain ⟨es, hes⟩ := hbare.entries_isOk ht
    refine ⟨es, ?_, ?_⟩
    · rw [loadRecord_eq hrow, hes]
      show m.build es = _
      rw [Model.build, hplain.factory m hm]
    · intro path owner h
      obtain ⟨c, hbelow⟩ := Option.isSome_iff_exists.mp
        ((below_iff_reached hplain hm hl hgives h.1).mpr ⟨owner, h⟩)
      have hchild : Bare (some b.registry) (some owner) := h.2.1 ▸ hbare.further path
      obtain ⟨fs, hfs⟩ := hchild.entries_isOk (ht.descendant hbelow)
      have hat : (Record.fields es).at? path = some (recordOf fs) := by
        refine hbare.at?_fields ht hes h.1 hbelow ?_
        rw [h.2.1]
        exact hfs
      have hpresent : somePresent fs ↔ ¬ LeftNull b.registry m chains cells path :=
        (hchild.somePresent_iff (ht.descendant hbelow) hfs).trans
          (hasValue_iff hplain hm hl hgives h.1 hbelow)
      constructor
      · intro hleft
        rw [hat, recordOf, if_neg (fun hp => hpresent.mp hp hleft)]
      · intro hleft
        refine ⟨fs, ?_, shows_fields hplain hm hl hgives hes h hbelow hfs⟩
        rw [hat, recordOf, if_pos (hpresent.mpr hleft)]
  · intro path owner path' owner' h h' f hf f' hf' heq
    have hpath : path ++ [f.name] = path' ++ [f'.name] := by
      rw [← h.segments_eq hplain hm hf, heq, h'.segments_eq hplain hm hf']
    obtain ⟨hways, hnames⟩ := List.append_inj' hpath rfl
    exact ⟨hways, (List.cons.inj hnames).1⟩

/-! ## A reference that leads nowhere -/

/-- Posts with their author. -/
def signedPost : Model :=
  { name := "post", table := "posts"
    fields := .ofList
      [.plain "id" "" true "post", .belongsTo "author" "" true "post" ⟨"user", "id"⟩]
    sorting := [], loadWith := [], group := defaultGroup, primaryKey := "id", factory := none }

/-- Users with their organization. -/
def employedUser : Model :=
  { name := "user", table := "users"
    fields := .ofList
      [.plain "name" "" true "user",
        .belongsTo "organization" "" true "user" ⟨"organization", "id"⟩]
    sorting := [], loadWith := [], group := defaultGroup, primaryKey := "id", factory := none }

/-- Organizations. -/
def employer : Model :=
  { name := "organization", table := "organizations"
    fields := .ofList [.plain "id" "" true "organization"]
    sorting := [], loadWith := [], group := defaultGroup, primaryKey := "id", factory := none }

/-- The three models. -/
def staff : Registry := .ofModels [signedPost, employedUser, employer]

/-- A query for posts. -/
def staffQuery : Builder :=
  { registry := staff, model := .text "post", kind := .select, canonical := some signedPost
    draft := .empty }

/-- A post whose author has no name and refers to an organization that is not there. -/
def staffCells : List (String × Value) :=
  [("id", .int 1), ("post:author:name", .null), ("post:author:organization", .int 5),
    ("post:author:organization:id", .null)]

theorem plain_staff : Plain staff := by
  have hmodels : staff.models = [signedPost, employedUser, employer] := rfl
  refine ⟨?_, ?_, ?_⟩
  · intro c hc
    rw [hmodels] at hc
    simp only [List.mem_cons, List.not_mem_nil, or_false] at hc
    rcases hc with rfl | rfl | rfl
    · rfl
    · rfl
    · rfl
  · intro c hc
    rw [hmodels] at hc
    simp only [List.mem_cons, List.not_mem_nil, or_false] at hc
    rcases hc with rfl | rfl | rfl
    · exact List.cons_ne_nil _ _
    · exact List.cons_ne_nil _ _
    · exact List.cons_ne_nil _ _
  · intro c hc
    rw [hmodels] at hc
    simp only [List.mem_cons, List.not_mem_nil, or_false] at hc
    rcases hc with rfl | rfl | rfl
    · decide
    · decide
    · decide

/-- The row of that post. -/
def staffRow : Row := staffCells.map fun e => (.text e.1, e.2)

/-- The organization of the author is left null in this row. -/
theorem staff_leftNull :
    LeftNull staff signedPost ["author:organization"] staffCells ["author"] := by
  intro more owner f h hf hend
  obtain ⟨-, halong, chain, hchain, hstart⟩ := h
  cases List.mem_singleton.mp hchain
  have hsplit : Text.splitAt pathMark "author:organization" = ["author", "organization"] := rfl
  rw [hsplit] at hstart
  obtain ⟨-, hstart⟩ := List.cons_prefix_cons.mp hstart
  rcases more with _ | ⟨second, more⟩
  · have howner : some employedUser = some owner := halong
    cases howner
    rcases hf with _ | ⟨_, _ | ⟨_, hf⟩⟩
    · rfl
    · -- the reference is followed, so its value does not count
      refine absurd ?_ (hend employer)
      exact ⟨List.cons_ne_nil _ _, rfl, _, .head _, List.prefix_rfl⟩
    · cases hf
  · obtain ⟨rfl, hmore⟩ := List.cons_prefix_cons.mp hstart
    cases List.prefix_nil.mp hmore
    have howner : some employer = some owner := halong
    cases howner
    rcases hf with _ | ⟨_, hf⟩
    · rfl
    · cases hf

/-- The author of that post is nothing, although one of the author's labels has a value. -/
theorem round_trip_without_organization :
    ∃ es, loadRecord signedPost (some staff) staffRow = .ok (.fields es) ∧
      (Record.fields es).at? ["author"] = some .absent ∧
      staffCells.lookup "post:author:organization" = some (.int 5) := by
  have hcalls : Step.each Call.run (eagerCalls ["author:organization"]) staffQuery =
      .ok .done (staffQuery.eager signedPost "author:organization") := rfl
  have hlabels : newLabels staffQuery (staffQuery.eager signedPost "author:organization") =
      ["post:author:name", "post:author:organization", "post:author:organization:id"] := rfl
  have hgives : Gives (newLabels staffQuery (staffQuery.eager signedPost "author:organization"))
      staffCells := by
    rw [hlabels]
    exact ⟨by decide, by decide, by decide⟩
  have hrow : staffRow.named = .ok staffCells := rfl
  have h := eager_round_trip plain_staff (.head _) rfl hcalls hrow hgives
  obtain ⟨es, hload, hpaths⟩ := h.1
  have hreached : Reached staff signedPost ["author:organization"] ["author"] employedUser :=
    ⟨List.cons_ne_nil _ _, rfl, _, .head _, ["organization"], rfl⟩
  exact ⟨es, hload, (hpaths _ _ hreached).1 staff_leftNull, rfl⟩

end ModelQuery
