import ModelQuery.Proofs.Query.Beginning
import ModelQuery.Proofs.Records.Labels
import ModelQuery.Proofs.Sql.Shadowing

/-!
# The tables along a path

Loading along a path joins a table for every hop, after the association table if the hop goes
through one.  No join has an alias, so the names in the query are the names of these tables, next to
the name of the entry it began with.  They are different exactly if the path meets no table twice
(`tables_met_once_iff`): it may neither come back, nor use an association table for two hops, nor
meet a table that is called like the first entry.

In that case the columns a hop selects are columns of what it joined itself.
-/

namespace ModelQuery

open Outcome Sql

/-! ## Hops -/

/-- A hop of a path: the field it goes along, what its labels begin with, and where it leads. -/
structure Hop where
  field : Field
  chain : String
  related : Model

/-- The hops along a path from a model, up to where it ends. -/
def hops (r : Registry) (parent : Model) (chain : String) : List String → List Hop
  | [] => []
  | segment :: rest =>
    match parent.relationship? segment with
    | none => []
    | some (f, other) =>
      match r.lookupName? other.model with
      | none => []
      | some related =>
        let chain := chain ++ String.singleton pathMark ++ f.name
        ⟨f, chain, related⟩ :: hops r related chain rest

namespace Hop

/-- The columns a hop selects, with their labels. -/
def selected (h : Hop) : List (Value × Value) := labelled h.related h.chain

/-- The association table a hop goes through, if there is one. -/
def between (r : Registry) (h : Hop) : List String :=
  match h.field.link with
  | .manyToMany _ through => [r.tableNamed through.table]
  | _ => []

/-- The tables a hop joins; the last is the one it leads to. -/
def tables (r : Registry) (h : Hop) : List String := h.between r ++ [h.related.table]

/-- The hop leads to the model its field names. -/
def Leads (r : Registry) (h : Hop) : Prop :=
  ∃ other, h.field.link.foreign? = some other ∧ r.lookupName? other.model = some h.related

end Hop

/-- The field of a relationship leads where the relationship is said to lead. -/
theorem Model.foreign?_of_relationship? {m : Model} {name : String} {f : Field} {other : Foreign}
    (h : m.relationship? name = some (f, other)) : f.link.foreign? = some other := by
  rw [relationship?] at h
  split at h
  · obtain ⟨other', hother, heq⟩ := Option.map_eq_some_iff.mp h
    cases heq
    exact hother
  · cases h

/-- Each hop leads to the model that its field names. -/
theorem leads_of_mem_hops {r : Registry} {parent : Model} {chain : String} {path : List String}
    {h : Hop} (hmem : h ∈ hops r parent chain path) : h.Leads r := by
  induction path generalizing parent chain with
  | nil => cases hmem
  | cons segment rest ih =>
      rw [hops] at hmem
      split at hmem
      · cases hmem
      · rename_i f other hlink
        split at hmem
        · cases hmem
        · rename_i related hrelated
          rcases List.mem_cons.mp hmem with rfl | hrest
          · exact ⟨other, Model.foreign?_of_relationship? hlink, hrelated⟩
          · exact ih hrest

namespace Builder

/-! ## What a path adds -/

/-- The joins of hops. -/
def joinsOf (scope : Scope) (hs : List Hop) : List Join :=
  hs.flatMap fun h => fieldJoins scope h.field

/-- **A PATH** adds what its hops select and join, hop by hop. -/
theorem follow_eq (parent : Model) (chain : String) (path : List String) (b : Builder) :
    follow parent chain path b =
      b.adding ((hops b.registry parent chain path).flatMap Hop.selected)
        (joinsOf b.scope (hops b.registry parent chain path)) [] := by
  -- what a hop adds changes neither the registry nor the canonical model, by which the next is found
  induction path generalizing parent chain b with
  | nil => exact b.adding_nil.symm
  | cons segment rest ih =>
      rw [follow, hops]
      cases parent.relationship? segment with
      | none => exact b.adding_nil.symm
      | some link =>
          obtain ⟨f, other⟩ := link
          dsimp only
          cases b.registry.lookupName? other.model with
          | none => exact b.adding_nil.symm
          | some related =>
              dsimp only
              rw [ih, joinField_eq, selectModel_eq, adding_adding, adding_adding]
              rfl

/-- Loading along a path adds what its hops select and join. -/
theorem eager_eq (m : Model) (path : String) (b : Builder) :
    let hs := hops b.registry m m.name (Text.splitAt pathMark path)
    b.eager m path =
      b.adding (ownItem b.scope :: hs.flatMap Hop.selected) (joinsOf b.scope hs) [] := by
  intro hs
  rw [eager, follow_eq, selectOwn_eq, adding_adding]
  rfl

/-! ## The entries of the joins -/

/-- A table without an alias. -/
def bareEntry (table : String) : TableEntry := ⟨.text table, none⟩

/-- The names of joins as they are given. -/
def joinNames (joins : List Join) : List (Value × Value) := joins.map fun j => (j.table, j.asName)

/-- A join adds the name of its table, without an alias. -/
theorem joinNames_leftJoined {scope : Scope} {v : Value} {table : String}
    (hv : (scope.table v).text? = some table) {joins : List Join}
    {names : List (String × Option String)} (hjoins : (joinNames joins).mapM textEntry? = some names)
    (left right : Value) :
    (joinNames (leftJoined scope v left right :: joins)).mapM textEntry? =
      some ((table, none) :: names) := by
  have hentry : textEntry? (scope.table v, .null) = some (table, none) := by
    rw [ textEntry?, hv]
    rfl
  rw [joinNames] at hjoins ⊢
  rw [List.map_cons, List.mapM_cons, leftJoined, hentry, hjoins]
  rfl

/-- The joins of a hop are for its tables, and have no aliases. -/
theorem joinNames_of_hop {scope : Scope} {h : Hop} (hleads : h.Leads scope.registry) :
    (joinNames (fieldJoins scope h.field)).mapM textEntry? =
      some ((h.tables scope.registry).map fun table => (table, none)) := by
  obtain ⟨other, hother, hrelated⟩ := hleads
  have htable : (scope.table (.text other.model)).text? = some h.related.table := by
    rw [Scope.table_of_text rfl, Registry.tableNamed, hrelated]
  rw [fieldJoins, Hop.tables, Hop.between]
  cases hlink : h.field.link with
  | plain =>
      rw [hlink] at hother
      cases hother
  | belongsTo foreign =>
      rw [hlink] at hother
      cases hother
      exact joinNames_leftJoined htable rfl _ _
  | hasMany foreign =>
      rw [hlink] at hother
      cases hother
      exact joinNames_leftJoined htable rfl _ _
  | hasOne foreign =>
      rw [hlink] at hother
      cases hother
      exact joinNames_leftJoined htable rfl _ _
  | manyToMany foreign through =>
      rw [hlink] at hother
      cases hother
      have hthrough : (scope.table (Name.toValue ⟨through.table, h.field.declared⟩)).text? =
          some (scope.registry.tableNamed through.table) :=
        Scope.table_of_text (Name.text?_toValue _) scope
      exact joinNames_leftJoined hthrough (joinNames_leftJoined htable rfl _ _) _ _

/-- The joins of a path add the names of its tables, hop by hop. -/
theorem joinNames_of_hops {scope : Scope} {hs : List Hop}
    (hleads : ∀ h ∈ hs, h.Leads scope.registry) :
    (joinNames (joinsOf scope hs)).mapM textEntry? =
      some ((hs.flatMap (Hop.tables scope.registry)).map fun table => (table, none)) := by
  induction hs with
  | nil => rfl
  | cons h rest ih =>
      have hrest := ih fun h' hmem => hleads h' (List.mem_cons_of_mem _ hmem)
      have hhop := joinNames_of_hop (hleads h List.mem_cons_self)
      rw [joinNames] at hrest hhop ⊢
      rw [joinsOf, List.flatMap_cons, List.map_append, List.mapM_append, ← joinsOf, hhop, hrest,
        List.flatMap_cons, List.map_append]
      rfl

/-- The frame of a query with one table and with joins that have no aliases. -/
theorem readFrame_of_joins {q : Query} {entry : Value × Value} {first : TableEntry}
    {names : List Value} {tables : List String} (htables : q.tables = [entry])
    (hfirst : readEntry [] entry = .ok (first, names))
    (hjoins : (joinNames q.joins).mapM textEntry? = some (tables.map fun table => (table, none)))
    (k : Kind) :
    readFrame q k = .ok
      { catalog := .ofMentions (mentions q k (first :: tables.map bareEntry))
        tables := [first]
        joined := tables.map bareEntry } := by
  have hbare : (tables.map fun table => (table, none)).map entryOf = tables.map bareEntry := by
    rw [List.map_map]
    rfl
  have hrest := readEntries_of_text hjoins names
  have hentries : readEntries [] (tableValues q) = .ok (first :: tables.map bareEntry) := by
    rw [tableValues, htables, List.singleton_append, readEntries, hfirst]
    show (readEntries names (joinNames q.joins) >>= fun es => pure (first :: es)) = _
    rw [hrest, hbare]
    rfl
  rw [readFrame, hentries, htables]
  rfl

/-! ## What the columns of a hop name -/

section Columns

variable {q : Query} {entries : List TableEntry} {table column : String}

/-- A column of what nothing else is called like is one of the table so called. -/
theorem operand_of_bare (hdistinct : (entries.map (·.visible)).Nodup)
    (hnone : ∀ e ∈ entries, e.asName ≠ some (.text table)) {v : Value} {s : String}
    (hv : v ∈ references q) (hs : v.text? = some s)
    (hplain : plainColumn? v = some ⟨some table, column⟩) (htable : table ≠ "") (k : Kind) :
    (Catalog.ofMentions (mentions q k entries)).operand v =
      .ok (.sql (.column (some (bareEntry table).source) column)) := by
  obtain ⟨cs, hcs, hcolumn⟩ := mentions_reference hv hplain k entries
  have halias : (mentions q k entries).aliases.lookup (.text table) = none := by
    rw [(mentions_extend q k entries).aliases, aliases_of_distinct hdistinct,
      Assoc.lookup_eq_none_iff]
    intro hkey
    obtain ⟨t, hpair⟩ := Assoc.exists_of_mem_keys hkey
    obtain ⟨e, he, hmap⟩ := List.mem_filterMap.mp hpair
    obtain ⟨a, ha, heq⟩ := Option.map_eq_some_iff.mp hmap
    cases heq
    exact hnone e he ha
  rw [Mentions.behind, halias, Option.getD_none] at hcs
  have hentry : Catalog.entry? (.ofMentions (mentions q k entries)) (.text table) =
      some (Catalog.tableEntry (.text table) cs) := by
    rw [Catalog.entry?, entries_ofMentions hdistinct, Catalog.addAliasesOf_of_ne hnone,
      Catalog.tablesOf, Catalog.lookup_tables, hcs]
    rfl
  exact operand_of_qualified hs hplain htable hentry hcolumn

end Columns

/-- What a hop selects names what the hop joined last, and no other entry. -/
structure NamesOwnJoin (r : Registry) (f : Frame) (before : List Hop) (h : Hop) : Prop where
  /-- The join stands behind those of the hops before and of the table in between, and nothing else
  is called like it. -/
  place : ∃ others later,
    f.tables ++ f.joined = others ++ bareEntry h.related.table :: later ∧
      others.length = f.tables.length + (before.flatMap (Hop.tables r) ++ h.between r).length ∧
      ∀ e ∈ others ++ later, e.visible ≠ .text h.related.table
  /-- It is listed as the table of the hop's model. -/
  listed : (f.catalog.entry (bareEntry h.related.table).visible).source =
    (bareEntry h.related.table).source
  /-- The selected columns are columns of what is listed there. -/
  columns : ∀ item ∈ h.selected, ∀ column,
    plainColumn? item.1 = some ⟨some h.related.table, column⟩ → h.related.table ≠ "" →
      f.catalog.operand item.1 =
        .ok (.sql (.column (some (bareEntry h.related.table).source) column))

/-- Where all visible names are distinct, what a hop selects is sought in the table that it joins.
-/
theorem namesOwnJoin_of_distinct {r : Registry} {q : Query} {k : Kind} {first : TableEntry}
    {before behind : List Hop} {h : Hop} {tables : List String}
    (htables : tables = (before ++ h :: behind).flatMap (Hop.tables r))
    (hselected : ∀ item ∈ h.selected, item.1 ∈ references q)
    (hdistinct : ((first :: tables.map bareEntry).map (·.visible)).Nodup) :
    NamesOwnJoin r
      { catalog := .ofMentions (mentions q k (first :: tables.map bareEntry))
        tables := [first]
        joined := tables.map bareEntry } before h := by
  obtain ⟨others, hothers⟩ : ∃ others, others = first ::
      (before.flatMap (Hop.tables r) ++ h.between r).map bareEntry := ⟨_, rfl⟩
  obtain ⟨later, hlater⟩ : ∃ later, later = (behind.flatMap (Hop.tables r)).map bareEntry :=
    ⟨_, rfl⟩
  -- the table a hop leads to is the last it joins, so its entry stands right before the later hops
  have hsplit : first :: tables.map bareEntry =
      others ++ bareEntry h.related.table :: later := by
    rw [htables, hothers, hlater, List.flatMap_append, List.flatMap_cons, Hop.tables]
    simp only [List.map_append, List.map_cons, List.append_assoc, List.cons_append,
      List.nil_append]
  have hapart : ∀ e ∈ others ++ later, e.visible ≠ .text h.related.table := by
    rw [hsplit, (List.perm_middle.map _).nodup_iff, List.map_cons, List.nodup_cons] at hdistinct
    exact fun e he heq => hdistinct.1 (List.mem_map.mpr ⟨e, he, heq⟩)
  have hnone : ∀ e ∈ first :: tables.map bareEntry, e.asName ≠ some (.text h.related.table) := by
    rw [hsplit]
    intro e he halias
    rcases List.mem_cons.mp (List.perm_middle.mem_iff.mp he) with rfl | he
    · cases halias
    · exact hapart e he (visible_of_alias halias)
  constructor
  case place =>
    refine ⟨others, later, hsplit, ?_, hapart⟩
    rw [hothers, List.length_cons, List.length_map, Nat.add_comm]
    rfl
  case listed =>
    rw [hsplit] at hdistinct ⊢
    obtain ⟨cs, hcs⟩ := @entry?_standIn (bareEntry h.related.table) q k others later hdistinct
    rw [Catalog.entry, hcs]
    rfl
  case columns =>
    intro item hitem column hplain htable
    obtain ⟨field, -, rfl⟩ := List.mem_map.mp hitem
    exact operand_of_bare hdistinct hnone (hselected _ hitem) rfl hplain htable k

/-! ## Distinct names -/

/-- The names of an entry and of tables without aliases. -/
theorem visible_nodup_iff {first : TableEntry} {tables : List String} :
    ((first :: tables.map bareEntry).map (·.visible)).Nodup ↔
      tables.Nodup ∧ ∀ table ∈ tables, first.visible ≠ .text table := by
  have hvisible : (tables.map bareEntry).map (·.visible) = tables.map SourceName.text := by
    rw [List.map_map]
    rfl
  rw [List.map_cons, hvisible, List.nodup_cons, List.mem_map]
  constructor
  · rintro ⟨hfirst, hnodup⟩
    refine ⟨(List.pairwise_map.mp hnodup).imp fun hne heq => hne (congrArg _ heq), ?_⟩
    exact fun table htable heq => hfirst ⟨table, htable, heq.symm⟩
  · rintro ⟨hnodup, hfirst⟩
    refine ⟨?_, List.pairwise_map.mpr (hnodup.imp fun hne heq => hne (SourceName.text.inj heq))⟩
    rintro ⟨table, htable, heq⟩
    exact hfirst table htable heq.symm

/-- **TABLES MET ONCE**: loading a new builder along a path joins the tables of its hops, in order
and without aliases.  The names in the query are different exactly if no table is met twice, nor one
that is called like the entry the builder began with; then what each hop selects names what that hop
joined, and no other entry. -/
theorem tables_met_once_iff {registry : Registry} {model kind : Value} {b : Builder} {m : Model}
    (hb : create registry model kind = .ok b) (hm : b.canonical = some m) (path : String) :
    let hs := hops registry m m.name (Text.splitAt pathMark path)
    ∃ entry b', b.draft.tables = [entry] ∧ b'.draft.tables = [entry] ∧
      Call.run (.eager (.text path)) b = .ok .done b' ∧
      b'.draft.select = ownItem b.scope :: hs.flatMap Hop.selected ∧
      ∀ k first names, readEntry [] entry = .ok (first, names) →
        ∃ f, readFrame b'.query k = .ok f ∧ f.tables = [first] ∧
          f.joined = (hs.flatMap (Hop.tables registry)).map bareEntry ∧
          (((f.tables ++ f.joined).map (·.visible)).Nodup ↔
            (hs.flatMap (Hop.tables registry)).Nodup ∧
              ∀ table ∈ hs.flatMap (Hop.tables registry), first.visible ≠ .text table) ∧
          (((f.tables ++ f.joined).map (·.visible)).Nodup →
            ∀ before h behind, hs = before ++ h :: behind → NamesOwnJoin registry f before h) := by
  intro hs
  obtain ⟨hregistry, entry, hdraft⟩ := create_entry hb
  subst hregistry
  obtain ⟨b', hb', heager⟩ : ∃ b', Call.run (.eager (.text path)) b = .ok .done b' ∧
      b' = b.adding (ownItem b.scope :: hs.flatMap Hop.selected) (joinsOf b.scope hs) [] := by
    refine ⟨b.eager m path, ?_, eager_eq m path b⟩
    show Call.eagerOn (.text path) b = _
    rw [Call.eagerOn, hm]
    rfl
  have hselect : b'.query.select = ownItem b.scope :: hs.flatMap Hop.selected := by
    rw [heager]
    exact congrArg (·.select ++ _) hdraft
  have hjoins : b'.query.joins = joinsOf b.scope hs := by
    rw [heager]
    exact congrArg (·.joins ++ _) hdraft
  have htables : b'.query.tables = [entry] := by
    rw [heager]
    exact congrArg (·.tables) hdraft
  have hnames : (joinNames b'.query.joins).mapM textEntry? =
      some ((hs.flatMap (Hop.tables b.registry)).map fun table => (table, none)) := by
    rw [hjoins]
    exact joinNames_of_hops fun h hmem => leads_of_mem_hops hmem
  refine ⟨entry, b', congrArg (·.tables) hdraft, htables, hb', hselect, ?_⟩
  intro k first names hfirst
  refine ⟨_, readFrame_of_joins htables hfirst hnames k, rfl, rfl, visible_nodup_iff, ?_⟩
  intro hdistinct before h behind hsplit
  refine namesOwnJoin_of_distinct (congrArg _ hsplit) (fun item hitem => ?_) hdistinct
  refine mem_references (.inl (List.mem_map_of_mem ?_))
  rw [hselect, hsplit]
  exact List.mem_cons_of_mem _ (List.mem_flatMap.mpr
    ⟨h, List.mem_append_right _ List.mem_cons_self, hitem⟩)

/-- Posts of users of organizations. -/
def staffModels : List Model :=
  [plainModel "post" "posts" [.belongsTo "author" "" true "post" ⟨"user", "id"⟩],
    plainModel "user" "users"
      [.plain "id" "" true "user", .belongsTo "team" "" true "user" ⟨"organization", "id"⟩],
    plainModel "organization" "organizations" [.plain "id" "" true "organization"]]

/-- The team of a post's author is joined once, and its columns are sought there. -/
theorem team_met_once :
    ∃ b b' f, create (.ofModels staffModels) (.text "post") (.text "select") = .ok b ∧
      Call.run (.eager (.text "author:team")) b = .ok .done b' ∧
      readFrame b'.query .select = .ok f ∧
      (f.tables ++ f.joined).map (·.visible) =
        [.text "posts", .text "users", .text "organizations"] ∧
      f.catalog.operand (.text "organizations.id") =
        .ok (.sql (.column (some (bareEntry "organizations").source) "id")) := by
  obtain ⟨entry, b', hentry, -, hrun, -, hread⟩ := @tables_met_once_iff (.ofModels staffModels)
    (.text "post") (.text "select") _ _ rfl rfl "author:team"
  cases hentry
  obtain ⟨f, hf, htables, hjoined, hiff, hnames⟩ := hread .select (bareEntry "posts") _ rfl
  have hown := hnames (hiff.mpr (by decide)) [_] _ [] rfl
  refine ⟨_, b', f, rfl, hrun, hf, ?_, ?_⟩
  · rw [htables, hjoined]
    rfl
  · exact hown.columns (.text "organizations.id", _) List.mem_cons_self "id" rfl (by decide)

/-- A node below another. -/
def nodeModel : Model :=
  plainModel "node" "nodes"
    [.plain "id" "" true "node", .belongsTo "parent" "" true "node" ⟨"node", "id"⟩]

/-- A node and its parent are both called by the name of their table. -/
theorem parent_called_like_node :
    ∃ b b' f, create (.ofModels [nodeModel]) (.text "node") (.text "select") = .ok b ∧
      Call.run (.eager (.text "parent")) b = .ok .done b' ∧
      readFrame b'.query .select = .ok f ∧
      ¬((f.tables ++ f.joined).map (·.visible)).Nodup :=
  ⟨_, _, _, rfl, rfl, rfl, by decide⟩

end Builder

end ModelQuery
