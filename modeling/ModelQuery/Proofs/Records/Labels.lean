import ModelQuery.Proofs.Query.Extends
import ModelQuery.Proofs.Records.Entries

/-!
# The labels of eager loading

Following chains of relationships selects the columns of every model on the way, each under a label
made of the canonical model's name, the path to the model and the field, with a mark between them.
The labels selected are exactly those of the paths the chains reach (`mem_labels_calls`).  A row has
only these labels to go by, and reading a label gives back its path (`segments_labelText`), so
nothing that a label says is lost on the way.
-/

namespace ModelQuery

/-! ## Labels as texts -/

/-- A label: what it starts with, then the segments of a path, each behind a mark. -/
def labelText (start : String) (path : List String) : String :=
  path.foldl (fun label segment => label ++ String.singleton pathMark ++ segment) start

/-- The segments of a path, each behind a mark. -/
def marked (path : List String) : List Char := path.flatMap fun segment => pathMark :: segment.toList

theorem toList_labelText (start : String) (path : List String) :
    (labelText start path).toList = start.toList ++ marked path := by
  induction path generalizing start with
  | nil => exact (List.append_nil _).symm
  | cons segment rest ih =>
      show (labelText (start ++ String.singleton pathMark ++ segment) rest).toList = _
      have hmark : marked (segment :: rest) = pathMark :: (segment.toList ++ marked rest) := rfl
      rw [ih, hmark, String.toList_append, String.toList_append, String.toList_singleton,
        List.append_assoc, List.append_assoc, List.singleton_append]

/-- A path whose segments have no mark is read back from its label. -/
theorem pieces_marked {first : String} {rest : List String}
    (h : ∀ segment ∈ first :: rest, pathMark ∉ segment.toList) :
    Text.pieces pathMark (first.toList ++ marked rest) =
      (first :: rest).map String.toList := by
  induction rest generalizing first with
  | nil =>
      rw [marked, List.flatMap_nil, List.append_nil]
      exact Text.pieces_of_not_mem (h first List.mem_cons_self)
  | cons second rest ih =>
      have hrest := ih fun segment hs => h segment (List.mem_cons_of_mem _ hs)
      have hmark : marked (second :: rest) = pathMark :: (second.toList ++ marked rest) := rfl
      rw [hmark, Text.pieces_append (h first List.mem_cons_self), hrest]
      rfl

/-- The segments of a label are its path. -/
theorem segments_labelText {m : Model} {path : List String} (hne : path ≠ [])
    (h : ∀ segment ∈ path, pathMark ∉ segment.toList) :
    segments m (labelText m.name path) = path := by
  cases path with
  | nil => exact absurd rfl hne
  | cons first rest =>
      have hchars : (labelText m.name (first :: rest)).toList =
          (labelMark m).toList ++ (first.toList ++ marked rest) := by
        rw [toList_labelText, labelMark, String.toList_append, List.append_assoc]
        rfl
      have hafter : Text.afterStart? (labelMark m) (labelText m.name (first :: rest)) =
          some (String.ofList (first.toList ++ marked rest)) := by
        rw [Text.afterStart?, hchars, if_pos]
        · rw [List.drop_left]
        · rw [List.isPrefixOf_iff_prefix]
          exact List.prefix_append _ _
      have hsplit : Text.splitAt ':' (String.ofList (first.toList ++ marked rest)) =
          first :: rest := by
        rw [Text.splitAt, String.toList_ofList]
        show (Text.pieces pathMark _).map String.ofList = _
        rw [pieces_marked h, List.map_map]
        have hback : String.ofList ∘ String.toList = id := funext fun s => String.ofList_toList
        rw [hback, List.map_id]
      have hpath : pathOf m (labelText m.name (first :: rest)) = (first, rest) := by
        simp only [pathOf, hafter, hsplit]
      rw [segments, hpath]

/-- A column without a mark is one segment. -/
theorem segments_own {m : Model} {column : String} (h : pathMark ∉ column.toList) :
    (segments m column).length = 1 := by
  have hafter : Text.afterStart? (labelMark m) column = none := by
    rw [Text.afterStart?, if_neg]
    rw [List.isPrefixOf_iff_prefix]
    rintro ⟨rest, hrest⟩
    refine h ?_
    rw [← hrest, labelMark, String.toList_append]
    exact List.mem_append_left _ (List.mem_append_right _ List.mem_cons_self)
  have hpath : (pathOf m column).2 = [] := by
    simp only [pathOf, hafter]
    split
    · rfl
    · rfl
  rw [segments, hpath]
  rfl

/-! ## What following a path selects -/

/-- The labels among selected columns. -/
def labelsOf (selected : List (Value × Value)) : List String :=
  selected.filterMap fun item => item.2.text?

/-- The columns of a model, labelled below a chain. -/
def labelled (m : Model) (chain : String) : List (Value × Value) :=
  m.fields.inDb.map fun f => (dotted m.table f.column, .text (labelText chain [f.name]))

/-- The columns that following a path from a model selects. -/
def followed (r : Registry) (parent : Model) (chain : String) : List String → List (Value × Value)
  | [] => []
  | segment :: rest =>
    match relatedModel? (some r) (some parent) segment with
    | none => []
    | some related =>
      let chain := labelText chain [segment]
      labelled related chain ++ followed r related chain rest

namespace Builder

/-- To select a model adds its columns with their labels, and nothing else. -/
theorem selectModel_eq (m : Model) (chain : String) (b : Builder) :
    b.selectModel m chain = b.adding (labelled m chain) [] [] := by
  rw [selectModel, labelled]
  induction m.fields.inDb generalizing b with
  | nil => exact b.adding_nil.symm
  | cons f rest ih =>
      rw [List.foldl_cons, ih, selectResolved_eq, adding_adding]
      rfl

/-- Behind a model the select list ends with its labelled columns. -/
theorem select_selectModel (m : Model) (chain : String) (b : Builder) :
    (b.selectModel m chain).draft.select = b.draft.select ++ labelled m chain := by
  rw [selectModel_eq]
  rfl

/-- To join a relationship leaves the select list alone. -/
theorem select_joinField (f : Field) (b : Builder) :
    (b.joinField f).draft.select = b.draft.select := by
  rw [joinField_eq]
  exact List.append_nil _

/-- To follow a path adds to the select list what its models are labelled with. -/
theorem select_follow (parent : Model) (chain : String) (path : List String) (b : Builder) :
    (follow parent chain path b).draft.select =
      b.draft.select ++ followed b.registry parent chain path := by
  induction path generalizing parent chain b with
  | nil => exact (List.append_nil _).symm
  | cons segment rest ih =>
      rw [follow, followed]
      cases hlink : parent.relationship? segment with
      | none =>
          have hnone : relatedModel? (some b.registry) (some parent) segment = none := by
            rw [relatedModel?, Option.bind_eq_bind, Option.bind_some, hlink]
            rfl
          rw [hnone]
          exact (List.append_nil _).symm
      | some link =>
          obtain ⟨f, other⟩ := link
          have hlookup : relatedModel? (some b.registry) (some parent) segment =
              b.registry.lookupName? other.model := by
            rw [relatedModel?, Option.bind_eq_bind, Option.bind_some, hlink]
            rfl
          rw [hlookup]
          show (match b.registry.lookupName? other.model with
            | none => b
            | some related => _).draft.select = _
          cases b.registry.lookupName? other.model with
          | none => exact (List.append_nil _).symm
          | some related =>
              have hname : f.name = segment := Model.name_of_relationship? hlink
              have hext : Extends b ((b.selectModel related
                  (chain ++ String.singleton pathMark ++ f.name)).joinField f) :=
                (extends_selectModel ..).trans (extends_joinField ..)
              show (follow related _ rest ((b.selectModel related _).joinField f)).draft.select = _
              -- the hop is named after the field, and the field after the segment
              rw [ih, select_joinField, select_selectModel, hext.registry_eq, hname,
                List.append_assoc]
              rfl

/-- What a path selects beside the columns of the canonical model itself. -/
theorem select_eager (m : Model) (path : String) (b : Builder) :
    ∃ own, (b.eager m path).draft.select =
      b.draft.select ++ (own, .null) ::
        followed b.registry m m.name (Text.splitAt pathMark path) := by
  refine ⟨b.scope.column (some true) (.text "*"), ?_⟩
  rw [eager, select_follow]
  show (b.draft.select ++ [_]) ++ _ = _
  rw [List.append_assoc]
  rfl

end Builder

/-! ## The labels of the paths that are reached -/

/-- The path leads along relationships from the model to another, and some chain follows it. -/
def Reached (r : Registry) (m : Model) (chains : List String) (path : List String)
    (owner : Model) : Prop :=
  path ≠ [] ∧ modelAlong (some r) (some m) path = some owner ∧
    ∃ chain ∈ chains, path <+: Text.splitAt pathMark chain

/-- The labels of a model are those of its own fields. -/
theorem mem_labelsOf_labelled {m : Model} {chain label : String} :
    label ∈ labelsOf (labelled m chain) ↔
      ∃ f ∈ m.fields.inDb, label = labelText chain [f.name] := by
  rw [labelsOf, labelled, List.filterMap_map, List.mem_filterMap]
  constructor
  · rintro ⟨f, hf, heq⟩
    exact ⟨f, hf, (Option.some.inj heq).symm⟩
  · rintro ⟨f, hf, rfl⟩
    exact ⟨f, hf, rfl⟩

/-- A followed path selects the labels of the models at its prefixes. -/
theorem mem_labelsOf_followed {r : Registry} {parent : Model} {chain label : String}
    {segments : List String} :
    label ∈ labelsOf (followed r parent chain segments) ↔
      ∃ path owner, path ≠ [] ∧ path <+: segments ∧
        modelAlong (some r) (some parent) path = some owner ∧
        ∃ f ∈ owner.fields.inDb, label = labelText chain (path ++ [f.name]) := by
  induction segments generalizing parent chain with
  | nil =>
      constructor
      · intro h
        cases h
      · rintro ⟨path, owner, hne, hstart, -⟩
        exact absurd (List.prefix_nil.mp hstart) hne
  | cons segment rest ih =>
      rw [followed]
      cases hrelated : relatedModel? (some r) (some parent) segment with
      | none =>
          constructor
          · intro h
            cases h
          · rintro ⟨path, owner, hne, hstart, halong, -⟩
            cases path with
            | nil => exact absurd rfl hne
            | cons first more =>
                obtain ⟨rfl, -⟩ := List.cons_prefix_cons.mp hstart
                rw [modelAlong, hrelated, modelAlong_none] at halong
                cases halong
      | some related =>
          show label ∈ labelsOf (labelled related _ ++ followed r related _ rest) ↔ _
          rw [labelsOf, List.filterMap_append, List.mem_append, ← labelsOf, ← labelsOf,
            mem_labelsOf_labelled, ih]
          -- a path of one segment ends at this model, a longer one at a model further on
          constructor
          · rintro (⟨f, hf, rfl⟩ | ⟨path, owner, hne, hstart, halong, f, hf, rfl⟩)
            · refine ⟨[segment], related, List.cons_ne_nil _ _, ?_, hrelated, f, hf, rfl⟩
              exact List.cons_prefix_cons.mpr ⟨rfl, List.nil_prefix⟩
            · refine ⟨segment :: path, owner, List.cons_ne_nil _ _, ?_, ?_, f, hf, rfl⟩
              · exact List.cons_prefix_cons.mpr ⟨rfl, hstart⟩
              · rw [modelAlong, hrelated]
                exact halong
          · rintro ⟨path, owner, hne, hstart, halong, f, hf, rfl⟩
            cases path with
            | nil => exact absurd rfl hne
            | cons first more =>
                obtain ⟨rfl, hmore⟩ := List.cons_prefix_cons.mp hstart
                rw [modelAlong, hrelated] at halong
                cases more with
                | nil =>
                    cases halong
                    exact .inl ⟨f, hf, rfl⟩
                | cons second more =>
                    exact .inr ⟨second :: more, owner, List.cons_ne_nil _ _, hmore, halong, f, hf,
                      rfl⟩

/-- The labels that the second builder selects beyond the first. -/
def newLabels (b b' : Builder) : List String :=
  labelsOf (b'.draft.select.drop b.draft.select.length)

/-- The calls that load along chains. -/
def eagerCalls (chains : List String) : List Call := chains.map fun chain => .eager (.text chain)

section Calls

variable {m : Model} {chains : List String} {b b' : Builder} {reply : Reply}

/-- Calls that load chains add the labels of what the chains lead to. -/
theorem select_calls (hm : b.canonical = some m)
    (h : Step.each Call.run (eagerCalls chains) b = .ok reply b') :
    ∃ items, b'.draft.select = b.draft.select ++ items ∧
      ∀ label, label ∈ labelsOf items ↔
        ∃ chain ∈ chains, label ∈
          labelsOf (followed b.registry m m.name (Text.splitAt pathMark chain)) := by
  induction chains generalizing b with
  | nil =>
      cases h
      refine ⟨[], (List.append_nil _).symm, ?_⟩
      intro label
      constructor
      · intro hl
        cases hl
      · rintro ⟨chain, hc, -⟩
        cases hc
  | cons chain rest ih =>
      have hrest : Step.each Call.run (eagerCalls rest) (b.eager m chain) = .ok reply b' :=
        (Step.bind_ok (Builder.run_eager hm chain)).symm.trans h
      have hext : Builder.Extends b (b.eager m chain) := Builder.extends_eager m chain b
      obtain ⟨items, hselect, hlabels⟩ := ih (hext.canonical_eq.trans hm) hrest
      obtain ⟨own, hown⟩ := Builder.select_eager m chain b
      refine ⟨((own, .null) :: followed b.registry m m.name (Text.splitAt pathMark chain)) ++ items,
        ?_, ?_⟩
      · rw [hselect, hown, List.append_assoc]
      · intro label
        rw [labelsOf, List.filterMap_append, List.mem_append, ← labelsOf, ← labelsOf, hlabels,
          hext.registry_eq]
        constructor
        · rintro (hl | ⟨chain', hc, hl⟩)
          · exact ⟨chain, List.mem_cons_self, hl⟩
          · exact ⟨chain', List.mem_cons_of_mem _ hc, hl⟩
        · rintro ⟨chain', hc, hl⟩
          rcases List.mem_cons.mp hc with rfl | hc
          · exact .inl hl
          · exact .inr ⟨chain', hc, hl⟩

/-- The labels selected by loading along chains: those of the stored fields of the models the
chains reach. -/
theorem mem_newLabels (hm : b.canonical = some m)
    (h : Step.each Call.run (eagerCalls chains) b = .ok reply b') (label : String) :
    label ∈ newLabels b b' ↔
      ∃ path owner, Reached b.registry m chains path owner ∧
        ∃ f ∈ owner.fields.inDb, label = labelText m.name (path ++ [f.name]) := by
  obtain ⟨items, hselect, hlabels⟩ := select_calls hm h
  rw [newLabels, hselect, List.drop_left, hlabels]
  constructor
  · rintro ⟨chain, hc, hl⟩
    obtain ⟨path, owner, hne, hstart, halong, hf⟩ := mem_labelsOf_followed.mp hl
    exact ⟨path, owner, ⟨hne, halong, chain, hc, hstart⟩, hf⟩
  · rintro ⟨path, owner, ⟨hne, halong, chain, hc, hstart⟩, hf⟩
    exact ⟨chain, hc, mem_labelsOf_followed.mpr ⟨path, owner, hne, hstart, halong, hf⟩⟩

end Calls

namespace Reached

variable {r : Registry} {m owner : Model} {chains path more : List String}

/-- What lies on the way to a path that is reached is reached. -/
theorem on_the_way (h : Reached r m chains (path ++ more) owner) (hne : path ≠ []) :
    ∃ between, Reached r m chains path between := by
  obtain ⟨-, halong, chain, hc, hstart⟩ := h
  rw [modelAlong_append] at halong
  cases hpath : modelAlong (some r) (some m) path with
  | none =>
      rw [hpath, modelAlong_none] at halong
      cases halong
  | some between =>
      exact ⟨between, hne, hpath, chain, hc, (List.prefix_append path more).trans hstart⟩

/-- No segment of a path that is reached has a mark. -/
theorem unmarked (h : Reached r m chains path owner) :
    ∀ segment ∈ path, pathMark ∉ segment.toList := by
  obtain ⟨-, -, chain, -, hstart⟩ := h
  intro segment hs
  obtain ⟨piece, hpiece, rfl⟩ := List.mem_map.mp (hstart.subset hs)
  rw [String.toList_ofList]
  exact Text.not_mem_of_mem_pieces hpiece

/-- A path that is reached leads to one model. -/
theorem owner_eq {owner' : Model} (h : Reached r m chains path owner)
    (h' : Reached r m chains path owner') : owner = owner' :=
  Option.some.inj (h.2.1.symm.trans h'.2.1)

end Reached

end ModelQuery
