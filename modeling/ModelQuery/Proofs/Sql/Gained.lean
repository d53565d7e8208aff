import ModelQuery.Proofs.Sql.Filters
import ModelQuery.Proofs.Sql.Known
import ModelQuery.Proofs.Sql.Shadowing
import ModelQuery.Proofs.Sql.Sources

/-!
# Whether a SELECT gains a table

A column of the table `t` is read as one of what the name `t` stands for.  This is the table behind
the name, unless an entry is called `t` whose own table is an alias again (`source_of_unchained`).
It is listed exactly if some entry is visible as `t` (`mem_listed_iff`); if none is, a SELECT that
selects or tests the column reads it (`mem_read`), and so gains the table.
-/

namespace ModelQuery.Sql

open Mentions Outcome

/-! ## Aliases one after the other -/

namespace Catalog

variable {cat : List (SourceName × CatalogEntry)} {name asName : SourceName}

theorem lookup_addAliases_of_not_mem {aliases : List (SourceName × SourceName)}
    (h : name ∉ Assoc.keys aliases) :
    (aliases.foldl (fun es (a, table) => addAlias es a table) cat).lookup name =
      cat.lookup name := by
  induction aliases generalizing cat with
  | nil => rfl
  | cons pair rest ih =>
      obtain ⟨a, table⟩ := pair
      have hne : name ≠ a := fun heq => h (heq ▸ List.mem_cons_self)
      have hrest : name ∉ Assoc.keys rest := fun hmem => h (List.mem_cons_of_mem _ hmem)
      exact (ih hrest).trans (lookup_addAlias_of_ne hne table)

/-- What is found under a name is called so. -/
def Called (cat : List (SourceName × CatalogEntry)) : Prop :=
  ∀ name e, cat.lookup name = some e → e.source.name = name

theorem Called.addAlias (h : Called cat) (asName table : SourceName) :
    Called (addAlias cat asName table) := by
  intro name e he
  by_cases hname : name = asName
  · subst hname
    rw [Catalog.addAlias] at he
    split at he
    · rw [Assoc.lookup_put_self] at he
      cases he
      rfl
    · exact h name e he
  · rw [lookup_addAlias_of_ne hname] at he
    exact h name e he

/-- The source under a name is called so, whatever it stands for. -/
theorem name_entry (m : Mentions) (name : SourceName) :
    ((ofMentions m).entry name).source.name = name := by
  have haliases : ∀ (aliases : List (SourceName × SourceName)) cat, Called cat →
      Called (aliases.foldl (fun es (a, table) => Catalog.addAlias es a table) cat) := by
    intro aliases
    induction aliases with
    | nil => exact fun _ h => h
    | cons pair rest ih => exact fun _ h => ih _ (h.addAlias pair.1 pair.2)
  have hcalled : Called (ofMentions m).entries := by
    refine haliases m.aliases _ fun name e he => ?_
    change (tablesOf m).lookup name = some e at he
    rw [tablesOf, lookup_tables] at he
    obtain ⟨cs, -, rfl⟩ := Option.map_eq_some_iff.mp he
    rfl
  rw [entry]
  cases hentry : Catalog.entry? (ofMentions m) name with
  | none => rfl
  | some e => exact hcalled name e hentry

/-- A name that is no alias of an alias stands for the table behind it. -/
theorem source_entry {m : Mentions} (honce : (Assoc.keys m.aliases).Nodup)
    (hknown : ∀ pair ∈ m.aliases, (m.columns.lookup pair.2).isSome) {name : SourceName}
    (hdirect : ∀ table, m.aliases.lookup name = some table →
      table = name ∨ table ∉ Assoc.keys m.aliases) :
    ((ofMentions m).entry name).source = { name, aliasOf := m.aliases.lookup name } := by
  have hentries : (ofMentions m).entries =
      m.aliases.foldl (fun es (a, table) => addAlias es a table) (tablesOf m) := rfl
  rw [entry, entry?, hentries]
  cases halias : m.aliases.lookup name with
  | none =>
      rw [lookup_addAliases_of_not_mem (Assoc.lookup_eq_none_iff.mp halias), tablesOf,
        lookup_tables]
      cases m.columns.lookup name <;> rfl
  | some table =>
      have hpair := Assoc.mem_of_lookup halias
      obtain ⟨pre, post, hsplit⟩ := List.append_of_mem hpair
      -- the table is found where it was put at first, before the alias is made and behind it
      have hkeys : Assoc.keys m.aliases = Assoc.keys pre ++ name :: Assoc.keys post := by
        rw [hsplit, Assoc.keys, List.map_append]
        rfl
      rw [hkeys] at honce
      obtain ⟨-, hnodup, hapart⟩ := List.nodup_append.mp honce
      have hpost : name ∉ Assoc.keys post := (List.nodup_cons.mp hnodup).1
      have hpre : table ∉ Assoc.keys pre := by
        rcases hdirect table halias with rfl | hfree
        · exact fun hmem => hapart _ hmem _ List.mem_cons_self rfl
        · exact fun hmem => hfree (hkeys ▸ List.mem_append_left _ hmem)
      obtain ⟨cs, hcs⟩ := Option.isSome_iff_exists.mp (hknown (name, table) hpair)
      have htable : ((pre.foldl (fun es (a, table) => addAlias es a table)
          (tablesOf m))).lookup table = some (tableEntry table cs) := by
        rw [lookup_addAliases_of_not_mem hpre, tablesOf, lookup_tables, hcs]
        rfl
      rw [hsplit, List.foldl_append, List.foldl_cons, lookup_addAliases_of_not_mem hpost]
      dsimp only
      rw [addAlias_eq htable, Assoc.lookup_put_self]
      rfl

end Catalog

/-! ## Names of entries -/

/-- An entry that is called so is of the table so called, or of one that no entry is called like. -/
def Unchained (entries : List TableEntry) (name : SourceName) : Prop :=
  ∀ e ∈ entries, e.asName = some name →
    e.table = name ∨ ∀ o ∈ entries, o.asName ≠ some e.table

instance (entries : List TableEntry) (name : SourceName) : Decidable (Unchained entries name) :=
  inferInstanceAs (Decidable (∀ e ∈ entries, e.asName = some name →
    e.table = name ∨ ∀ o ∈ entries, o.asName ≠ some e.table))

section Entries

variable {entries : List TableEntry} {q : Query} {name : SourceName} {table column : String}

/-- An unchained name is found for what it stands for. -/
theorem source_of_unchained (h : Unchained entries name) (q : Query) (kind : Kind) :
    ((Catalog.ofMentions (mentions q kind entries)).entry name).source =
      sourceAmong entries name := by
  have hgrows := mentions_extend q kind entries
  have hsource := @Catalog.source_entry (mentions q kind entries) ?_ ?_ name ?_
  case refine_1 =>
    rw [hgrows.aliases, addEntries_aliases]
    exact Assoc.nodup_keys_putAll _ List.nodup_nil
  case refine_2 =>
    intro pair hpair
    rw [hgrows.aliases] at hpair
    obtain ⟨e, he, -, htable⟩ := mem_aliases hpair
    obtain ⟨cs, hcs⟩ := Option.isSome_iff_exists.mp (addEntries_tables he .empty)
    obtain ⟨more, hmore⟩ := hgrows.columns _ cs hcs
    rw [← htable, hmore]
    rfl
  case refine_3 =>
    intro table halias
    rw [hgrows.aliases] at halias ⊢
    obtain ⟨e, he, hname, rfl⟩ := mem_aliases (Assoc.mem_of_lookup halias)
    refine (h e he hname).imp id fun hfree hkey => ?_
    obtain ⟨other, hpair⟩ := Assoc.exists_of_mem_keys hkey
    obtain ⟨o, ho, halias, -⟩ := mem_aliases hpair
    exact hfree o ho halias
  rw [hsource, hgrows.aliases]
  rfl

/-- A plain reference to a table whose name is unchained is a column of what the name stands for. -/
theorem operand_of_unchained (h : Unchained entries (.text table)) (kind : Kind) {v : Value}
    (hv : v ∈ references q) {s : String} (hs : v.text? = some s)
    (hplain : plainColumn? v = some ⟨some table, column⟩) (htable : table ≠ "") :
    (Catalog.ofMentions (mentions q kind entries)).operand v =
      .ok (.sql (.column (some (sourceAmong entries (.text table))) column)) := by
  have hsource := source_of_unchained h q kind
  have hcolumns := Catalog.columns_entry (mentions q kind entries) (.text table)
  -- at the root of the name is the table that the reference is a mention of
  have hroot : Catalog.root (sourceAmong entries (.text table)) =
      (mentions q kind entries).behind (.text table) := by
    rw [behind, (mentions_extend q kind entries).aliases]
    rfl
  obtain ⟨cs, hcs, hcolumn⟩ := mentions_reference hv hplain kind entries
  rw [hsource, hroot, known, hcs, Option.getD_some] at hcolumns
  rw [← hcolumns] at hcolumn
  cases hentry : Catalog.entry? (.ofMentions (mentions q kind entries)) (.text table) with
  | none =>
      rw [Catalog.entry, hentry] at hcolumn
      cases hcolumn
  | some e =>
      rw [Catalog.entry, hentry, Option.getD_some] at hsource hcolumn
      rw [← hsource]
      exact operand_of_qualified hs hplain htable hentry hcolumn

/-- What no entry is visible as stands for the table so called. -/
theorem sourceAmong_of_unseen (h : ∀ e ∈ entries, e.visible ≠ name) :
    sourceAmong entries name = { name, aliasOf := none } := by
  have hnone : (entries.foldl addEntry .empty).aliases.lookup name = none := by
    refine Assoc.lookup_eq_none_iff.mpr fun hkey => ?_
    obtain ⟨table, hpair⟩ := Assoc.exists_of_mem_keys hkey
    obtain ⟨e, he, halias, -⟩ := mem_aliases hpair
    exact h e he (visible_of_alias halias)
  rw [sourceAmong, hnone]

end Entries

/-! ## The entries of a frame -/

/-- All entries of a frame, the joined ones last. -/
def Frame.entries (f : Frame) : List TableEntry := f.tables ++ f.joined

/-- Some entry is visible under the name. -/
def Frame.Shows (f : Frame) (name : SourceName) : Prop := ∃ e ∈ f.entries, e.visible = name

section Frames

variable {q : Query} {kind : Kind} {f : Frame} {select : Select} {name : SourceName}

/-- The entries of a frame are those that are read. -/
theorem entries_of_readFrame (h : readFrame q kind = .ok f) :
    readEntries [] (tableValues q) = .ok f.entries := by
  rw [readFrame_eq_map] at h
  obtain ⟨entries, hentries, rfl⟩ := map_eq_ok h
  rw [Frame.entries, frameWith, List.take_append_drop]
  exact hentries

/-- A query with tables has a frame with tables. -/
theorem tables_ne_nil (h : readFrame q kind = .ok f) (htables : q.tables ≠ []) :
    f.tables ≠ [] := by
  have hlength : f.entries.length = (tableValues q).length :=
    length_readEntries (entries_of_readFrame h)
  have hjoined := (of_readFrame h).2
  rw [tableValues, Frame.entries, List.length_append, List.length_append, List.length_map] at hlength
  have hpos := List.length_pos_iff.mpr htables
  exact List.length_pos_iff.mp (by omega)

/-- What an unchained name stands for is listed exactly if some entry is visible as the name. -/
theorem mem_listed_iff (hf : readFrame q kind = .ok f) (htables : q.tables ≠ [])
    (hname : Unchained f.entries name) (h : readSelect f q = .ok select) :
    sourceAmong f.entries name ∈ select.listed ↔ f.Shows name := by
  obtain ⟨hcatalog, hlength⟩ := of_readFrame hf
  obtain ⟨hnothing, hfound⟩ := sources_of_readTables hlength (tables_of_readSelect h)
  obtain ⟨t, ht⟩ := Option.ne_none_iff_exists'.mp (mt hnothing.mp (tables_ne_nil hf htables))
  obtain ⟨hfirst, hjoins⟩ := hfound t ht
  have hlisted : ∀ s, s ∈ select.listed ↔
      ∃ e ∈ f.entries, (f.catalog.entry e.visible).source = s := by
    intro s
    have hmem : s ∈ select.listed ↔
        s ∈ (t.first :: t.others) ++ t.joins.map (·.source) := by
      rw [Select.listed, ht]
      show s ∈ (t.first :: t.joins.map (·.source)) ++ t.others ↔ _
      simp only [List.mem_append, List.mem_cons, or_assoc]
      exact or_congr_right or_comm
    rw [hmem, hfirst, hjoins, ← List.map_append, List.mem_map]
    rfl
  rw [hlisted, hcatalog]
  refine exists_congr fun e => and_congr_right fun _ => ⟨fun heq => ?_, ?_⟩
  · rw [← Catalog.name_entry (mentions q kind f.entries) e.visible]
    exact congrArg Source.name heq
  · rintro rfl
    exact source_of_unchained hname q kind

end Frames

/-! ## Sources that are read -/

section Read

variable {c : Catalog} {v : Value} {e : Expr} {source : Source} {column : String}

/-- A selected column is read, with an alias or without. -/
theorem mem_itemSources {items : List (Value × Value)} {read : List SelectItem}
    (h : readItems c items = .ok read) (hv : v ∈ items.map Prod.fst)
    (hcolumn : c.operand v = .ok (.sql (.column (some source) column))) :
    source ∈ read.flatMap itemSources := by
  obtain ⟨item, hitem, rfl⟩ := List.mem_map.mp hv
  obtain ⟨parts, hparts, h⟩ := bind_eq_ok h
  obtain ⟨part, hpart, hread⟩ := mem_of_mapM hparts hitem
  have hsome : ¬ parts.isEmpty = true := fun hempty =>
    List.ne_nil_of_mem hpart (List.isEmpty_iff.mp hempty)
  rw [if_neg hsome] at h
  obtain ⟨i, hi, hfinal⟩ := mem_of_mapM h hpart
  refine List.mem_flatMap.mpr ⟨i, hi, ?_⟩
  rw [readItem, hcolumn] at hread
  obtain ⟨asName, -, hread⟩ := bind_eq_ok hread
  cases asName with
  | none =>
      cases hread
      cases hfinal
      exact List.mem_cons_self
  | some a =>
      cases hread
      cases hfinal
      exact List.mem_cons_self

/-- A membership reads what its operand reads. -/
theorem mem_sources_of_memberOf {negated : Bool} {x : Value} {t : Comparison}
    (h : memberOf negated e x = .ok t) (hsource : source ∈ exprSources e) :
    source ∈ t.sources := by
  unfold memberOf at h
  split at h
  · obtain ⟨ts, -, rfl⟩ := map_eq_ok h
    exact hsource
  · obtain ⟨ts, -, rfl⟩ := map_eq_ok h
    exact hsource
  · obtain ⟨ts, -, rfl⟩ := map_eq_ok h
    exact hsource
  · cases h
  · obtain ⟨values, -, h⟩ := bind_eq_ok h
    obtain ⟨items, -, h⟩ := bind_eq_ok h
    obtain ⟨operands, -, h⟩ := bind_eq_ok h
    cases h
    exact List.mem_append_left _ hsource

/-- A test reads what its left side reads, whatever the operator. -/
theorem mem_sources_of_compareBy {op : String} {x : Value} {t : Comparison}
    (h : compareBy op e x = .ok t) (hsource : source ∈ exprSources e) : source ∈ t.sources := by
  rw [compareBy] at h
  split at h
  · obtain ⟨right, -, h⟩ := bind_eq_ok h
    split at h
    · rw [compareNull.eq_def] at h
      split at h <;> cases h <;> exact List.mem_append_left _ hsource
    · cases h
      exact List.mem_append_left _ hsource
  · split at h
    · exact mem_sources_of_memberOf h hsource
    split at h
    · exact mem_sources_of_memberOf h hsource
    split at h
    · obtain ⟨bounds, -, h⟩ := bind_eq_ok h
      obtain ⟨low, -, h⟩ := bind_eq_ok h
      obtain ⟨high, -, h⟩ := bind_eq_ok h
      obtain ⟨low, -, h⟩ := bind_eq_ok h
      obtain ⟨high, -, h⟩ := bind_eq_ok h
      cases h
      exact List.mem_append_left _ (List.mem_append_left _ hsource)
    · obtain ⟨right, -, h⟩ := bind_eq_ok h
      cases h
      exact List.mem_append_left _ hsource

mutual

/-- The columns of a condition are those of its tests. -/
theorem columns_eq_leaves (c : Condition) : c.columns = c.leaves.map Prod.fst := by
  cases c with
  | test logic column op value => rfl
  | group logic children => exact columnsAll_eq_leaves children

/-- The columns of conditions are those of their tests, in order. -/
theorem columnsAll_eq_leaves (cs : List Condition) :
    Condition.columnsAll cs = (Condition.leavesAll cs).map Prod.fst := by
  cases cs with
  | nil => rfl
  | cons c rest =>
      rw [Condition.columnsAll, Condition.leavesAll, List.map_append, columns_eq_leaves c,
        columnsAll_eq_leaves rest]

end

/-- A tested column is read. -/
theorem mem_filterSources {conditions : List Condition} {filter : Option Filter}
    (h : readFilter c conditions = .ok filter) (hv : v ∈ Condition.columnsAll conditions)
    (hcolumn : c.operand v = .ok (.sql (.column (some source) column))) :
    source ∈ filterSources filter := by
  rw [columnsAll_eq_leaves] at hv
  obtain ⟨leaf, hleaf, rfl⟩ := List.mem_map.mp hv
  obtain ⟨t, ht, hread⟩ := mem_of_mapM (readFilter_means h).tests hleaf
  obtain ⟨x, hx, hread⟩ := bind_eq_ok hread
  cases hcolumn.symm.trans hx
  obtain ⟨op, -, hread⟩ := bind_eq_ok hread
  have hsource : source ∈ t.sources := mem_sources_of_compareBy hread List.mem_cons_self
  cases filter with
  | none => cases ht
  | some f => exact List.mem_flatMap.mpr ⟨t, ht, hsource⟩

/-- A SELECT reads the columns that it selects or tests. -/
theorem mem_read {f : Frame} {q : Query} {select : Select} (h : readSelect f q = .ok select)
    (hv : v ∈ q.select.map Prod.fst ∨ v ∈ Condition.columnsAll q.filter)
    (hcolumn : f.catalog.operand v = .ok (.sql (.column (some source) column))) :
    source ∈ select.read := by
  obtain ⟨hitems, -, hfilter⟩ := of_readSelect h
  rcases hv with hselected | htested
  · exact List.mem_append_left _ (mem_itemSources hitems hselected hcolumn)
  · exact List.mem_append_right _ (mem_filterSources hfilter htested hcolumn)

end Read

end ModelQuery.Sql
