import ModelQuery.Proofs.Sql.References
import ModelQuery.Proofs.Sql.Sources
import ModelQuery.Proofs.Sql.Worded

/-!
# Aliases called like tables

A catalog keeps tables and aliases under one kind of name, and makes the aliases one after the other
out of what their tables' names stand for by then.  So an alias that is called like the table of a
later entry takes that table's place, and the later entry becomes another name for the table of the
earlier one.

`standIns` says which table each entry comes to stand for, and that is what a statement lists
(`listed_as_own_table_iff`): every entry under its own name and in its own place, but as its own
table exactly if no alias of an earlier entry is called like it without meaning it.
-/

namespace ModelQuery.Sql

open Outcome

/-! ## What stands for a table -/

/-- What a table's name stands for behind other entries, the latest first: if it is their alias,
what the table of the latest entry so called stood for. -/
def standing : List TableEntry → SourceName → SourceName
  | [], table => table
  | e :: before, table =>
    if e.asName = some table then standing before e.table else standing before table

/-- The source of an entry behind other entries, the latest first. -/
def standIn (before : List TableEntry) (e : TableEntry) : Source :=
  { name := e.visible, aliasOf := e.asName.map fun _ => standing before e.table }

/-- The sources of entries, each behind those before it. -/
def standIns (before : List TableEntry) : List TableEntry → List Source
  | [] => []
  | e :: rest => standIn before e :: standIns (e :: before) rest

/-- The alias of the earlier entry is not the later one's table, unless it is the earlier one's
too. -/
def Unshadowed (earlier later : TableEntry) : Prop :=
  earlier.asName = some later.table → earlier.table = later.table

variable {entries before later : List TableEntry} {e o : TableEntry} {table : SourceName}

/-- A table that is the alias of no other one stands for itself. -/
theorem standing_of_unshadowed (h : ∀ o ∈ before, o.asName = some table → o.table = table) :
    standing before table = table := by
  induction before with
  | nil => rfl
  | cons o rest ih =>
      have hrest := ih fun o' ho' => h o' (List.mem_cons_of_mem _ ho')
      rw [standing]
      split
      · rename_i halias
        rw [h o List.mem_cons_self halias]
        exact hrest
      · exact hrest

/-- An alias stands for what its table stood for before it. -/
theorem standing_of_alias (halias : o.asName = some table)
    (hlater : ∀ e ∈ later, e.asName ≠ some table) :
    standing (later ++ o :: before) table = standing before o.table := by
  induction later with
  | nil => exact if_pos halias
  | cons e rest ih =>
      have hrest := ih fun e' he' => hlater e' (List.mem_cons_of_mem _ he')
      exact (if_neg (hlater e List.mem_cons_self)).trans hrest

theorem standIns_append (before xs ys : List TableEntry) :
    standIns before (xs ++ ys) = standIns before xs ++ standIns (xs.reverse ++ before) ys := by
  induction xs generalizing before with
  | nil => rfl
  | cons e rest ih =>
      rw [List.cons_append, standIns, standIns, ih, List.reverse_cons, List.append_assoc]
      rfl

/-- Entries stand in under the names by which they are visible. -/
theorem map_name_standIns (before entries : List TableEntry) :
    (standIns before entries).map (·.name) = entries.map (·.visible) := by
  induction entries generalizing before with
  | nil => rfl
  | cons e rest ih => exact congrArg (e.visible :: ·) (ih (e :: before))

theorem visible_of_alias {a : SourceName} (h : e.asName = some a) : e.visible = a := by
  rw [TableEntry.visible, h]
  rfl

theorem asName_ne_of_visible {es : List TableEntry} {name : SourceName}
    (h : name ∉ es.map (·.visible)) : ∀ e ∈ es, e.asName ≠ some name :=
  fun e he halias => h (List.mem_map.mpr ⟨e, he, visible_of_alias halias⟩)

/-- Behind entries that all stand for themselves, an entry stands for itself exactly if none of them
shadows its table. -/
theorem standIn_eq_iff (hdistinct : ((before.reverse ++ [e]).map (·.visible)).Nodup)
    (hbefore : before.reverse.Pairwise Unshadowed) :
    standIn before e = e.source ↔ ∀ o ∈ before.reverse, Unshadowed o e := by
  constructor
  · intro hown o ho halias
    obtain ⟨pre, post, hsplit⟩ := List.append_of_mem ho
    have hreverse : before = post.reverse ++ o :: pre.reverse := by
      rw [← List.reverse_reverse before, hsplit, List.reverse_append, List.reverse_cons,
        List.append_assoc]
      rfl
    rw [hsplit, List.map_append, List.map_append, List.map_cons, List.append_assoc] at hdistinct
    have hbehind : o.visible ∉ post.map (·.visible) ++ [e].map (·.visible) :=
      (List.nodup_cons.mp (List.nodup_append.mp hdistinct).2.1).1
    rw [visible_of_alias halias, List.mem_append, not_or] at hbehind
    -- without an alias of its own the entry would be visible under the alias of the other
    cases hname : e.asName with
    | none =>
        have hvisible : o.visible = e.visible := by
          rw [visible_of_alias halias, TableEntry.visible.eq_def e, hname]
          rfl
        exact absurd (List.mem_singleton.mpr hvisible) (visible_of_alias halias ▸ hbehind.2)
    | some a =>
        have hstands : standing before e.table = e.table := by
          have haliasOf := congrArg Source.aliasOf hown
          rw [standIn, TableEntry.source, hname] at haliasOf
          exact Option.some.inj haliasOf
        have hpost : ∀ e' ∈ post.reverse, e'.asName ≠ some e.table :=
          fun e' he' => asName_ne_of_visible hbehind.1 e' (List.mem_reverse.mp he')
        have hpre : standing pre.reverse o.table = o.table := by
          rw [hsplit] at hbefore
          refine standing_of_unshadowed fun o' ho' => ?_
          exact (List.pairwise_append.mp hbefore).2.2 o' (List.mem_reverse.mp ho') o
            List.mem_cons_self
        rw [← hpre, ← standing_of_alias halias hpost, ← hreverse, hstands]
  · intro hclear
    rw [standIn, TableEntry.source, standing_of_unshadowed]
    exact fun o ho => hclear o (List.mem_reverse.mpr ho)

/-- Entries all stand for themselves exactly if no table is shadowed. -/
theorem standIns_eq_iff (hdistinct : ((before.reverse ++ entries).map (·.visible)).Nodup)
    (hbefore : before.reverse.Pairwise Unshadowed) :
    standIns before entries = entries.map TableEntry.source ↔
      (before.reverse ++ entries).Pairwise Unshadowed := by
  induction entries generalizing before with
  | nil =>
      rw [List.append_nil]
      exact ⟨fun _ => hbefore, fun _ => rfl⟩
  | cons e rest ih =>
      have hsplit : before.reverse ++ e :: rest = (e :: before).reverse ++ rest := by
        rw [List.reverse_cons, List.append_assoc]
        rfl
      have hdistinct' : ((before.reverse ++ [e]).map (·.visible)).Nodup := by
        rw [hsplit, List.reverse_cons, List.map_append] at hdistinct
        exact (List.nodup_append.mp hdistinct).1
      have hown := standIn_eq_iff hdistinct' hbefore
      have hlonger : (∀ o ∈ before.reverse, Unshadowed o e) →
          (e :: before).reverse.Pairwise Unshadowed := by
        intro hclear
        rw [List.reverse_cons]
        refine List.pairwise_append.mpr ⟨hbefore, List.pairwise_singleton _ _, ?_⟩
        intro o ho e' he'
        rw [List.mem_singleton.mp he']
        exact hclear o ho
      rw [standIns, List.map_cons, List.cons.injEq, hown, hsplit]
      rw [hsplit] at hdistinct
      constructor
      · rintro ⟨hclear, hrest⟩
        exact (ih hdistinct (hlonger hclear)).mp hrest
      · intro hpairwise
        have hbefore' : (e :: before).reverse.Pairwise Unshadowed :=
          (List.pairwise_append.mp hpairwise).1
        refine ⟨fun o ho => ?_, (ih hdistinct hbefore').mpr hpairwise⟩
        rw [List.reverse_cons] at hbefore'
        exact (List.pairwise_append.mp hbefore').2.2 o ho e List.mem_cons_self

/-! ## The catalog of the entries -/

namespace Catalog

/-- The alias of an entry made, if it has one. -/
def addAliasOf (cat : List (SourceName × CatalogEntry)) (e : TableEntry) :
    List (SourceName × CatalogEntry) :=
  match e.asName with
  | some a => addAlias cat a e.table
  | none => cat

/-- What is found under each name is, at the root, what the name stands for. -/
def Rooted (before : List TableEntry) (cat : List (SourceName × CatalogEntry)) : Prop :=
  ∀ name entry, cat.lookup name = some entry → root entry.source = standing before name

variable {cat : List (SourceName × CatalogEntry)}

/-- An entry leaves what is found under other names than its alias. -/
theorem addAliasOf_of_ne {name : SourceName} (h : e.asName ≠ some name) :
    (addAliasOf cat e).lookup name = cat.lookup name := by
  rw [addAliasOf]
  cases halias : e.asName with
  | none => rfl
  | some a =>
      have hne : name ≠ a := fun heq => h (heq ▸ halias)
      exact lookup_addAlias_of_ne hne e.table

/-- Entries leave what is found under other names than their aliases. -/
theorem addAliasesOf_of_ne {name : SourceName} (h : ∀ e ∈ entries, e.asName ≠ some name) :
    (entries.foldl addAliasOf cat).lookup name = cat.lookup name := by
  induction entries generalizing cat with
  | nil => rfl
  | cons e rest ih =>
      have hrest := @ih (addAliasOf cat e) fun e' he' => h e' (List.mem_cons_of_mem _ he')
      exact hrest.trans (addAliasOf_of_ne (h e List.mem_cons_self))

/-- Under an alias the entry of its table is found, renamed. -/
theorem addAliasOf_alias {a : SourceName} {entry : CatalogEntry} (halias : e.asName = some a)
    (h : cat.lookup e.table = some entry) :
    (addAliasOf cat e).lookup a =
      some ⟨{ name := a, aliasOf := some (root entry.source) }, entry.columns⟩ := by
  rw [addAliasOf, halias]
  dsimp only
  rw [addAlias, h]
  exact Assoc.lookup_put_self _ _ _

theorem addAliasOf_known {name : SourceName} (h : (cat.lookup name).isSome) (e : TableEntry) :
    ((addAliasOf cat e).lookup name).isSome := by
  by_cases halias : e.asName = some name
  · cases htable : cat.lookup e.table with
    | none =>
        rw [addAliasOf, halias]
        dsimp only
        rw [addAlias, htable]
        exact h
    | some entry =>
        rw [addAliasOf_alias halias htable]
        rfl
  · rw [addAliasOf_of_ne halias]
    exact h

/-- With one alias more, what is found is still what names stand for. -/
theorem Rooted.addAliasOf (h : Rooted before cat) {entry : CatalogEntry}
    (he : cat.lookup e.table = some entry) : Rooted (e :: before) (addAliasOf cat e) := by
  intro name found hfound
  rw [standing]
  split
  · rename_i halias
    rw [addAliasOf_alias halias he] at hfound
    cases hfound
    exact h e.table entry he
  · rename_i halias
    rw [addAliasOf_of_ne halias] at hfound
    exact h name found hfound

/-- With the aliases of all entries, what is found is still what names stand for. -/
theorem Rooted.addAliasesOf (h : Rooted before cat)
    (hknown : ∀ e ∈ entries, (cat.lookup e.table).isSome) :
    Rooted (entries.reverse ++ before) (entries.foldl Catalog.addAliasOf cat) := by
  -- on the entries: each makes its alias of what its table's name stands for by then
  induction entries generalizing before cat with
  | nil => exact h
  | cons e rest ih =>
      obtain ⟨entry, hentry⟩ := Option.isSome_iff_exists.mp (hknown e List.mem_cons_self)
      rw [List.reverse_cons, List.append_assoc]
      refine ih (h.addAliasOf hentry) fun e' he' => ?_
      exact addAliasOf_known (hknown e' (List.mem_cons_of_mem _ he')) e

/-- What is found stays found with the aliases of all entries. -/
theorem addAliasesOf_known {name : SourceName} (h : (cat.lookup name).isSome)
    (entries : List TableEntry) : ((entries.foldl addAliasOf cat).lookup name).isSome := by
  induction entries generalizing cat with
  | nil => exact h
  | cons e rest ih => exact ih (addAliasOf_known h e)

/-- The tables that are mentioned, before any alias is made. -/
def tablesOf (m : Mentions) : List (SourceName × CatalogEntry) :=
  m.columns.map fun (name, columns) => (name, tableEntry name columns)

/-- Before any alias, each table stands for itself. -/
theorem rooted_tablesOf (m : Mentions) : Rooted [] (tablesOf m) := by
  intro name entry h
  rw [tablesOf, lookup_tables] at h
  obtain ⟨columns, -, rfl⟩ := Option.map_eq_some_iff.mp h
  rfl

end Catalog

section Entries

open Mentions Catalog

variable {q : Query} {kind : Kind}

/-- The aliases are kept as they are given, if each is given once. -/
theorem aliases_of_distinct (hdistinct : (entries.map (·.visible)).Nodup) :
    (entries.foldl addEntry .empty).aliases = entries.filterMap aliasOf? := by
  have hsub : (Assoc.keys (entries.filterMap aliasOf?)).Sublist (entries.map (·.visible)) := by
    clear hdistinct
    induction entries with
    | nil => exact .slnil
    | cons e rest ih =>
        rw [List.filterMap_cons, aliasOf?]
        cases halias : e.asName with
        | none => exact ih.cons _
        | some a =>
            rw [List.map_cons, visible_of_alias halias]
            exact ih.cons_cons a
  rw [addEntries_aliases]
  exact Assoc.putAll_of_nodup (m := []) (hdistinct.sublist hsub)

/-- The catalog of a query whose entries are visible under different names: its tables, then the
aliases entry by entry. -/
theorem entries_ofMentions (hdistinct : (entries.map (·.visible)).Nodup) :
    (ofMentions (mentions q kind entries)).entries =
      entries.foldl addAliasOf (tablesOf (mentions q kind entries)) := by
  have hfold : (entries.filterMap aliasOf?).foldl (fun es pair => addAlias es pair.1 pair.2)
      (tablesOf (mentions q kind entries)) =
      entries.foldl addAliasOf (tablesOf (mentions q kind entries)) := by
    rw [List.foldl_filterMap]
    congr 1
    funext es e
    rw [addAliasOf, aliasOf?]
    cases e.asName with
    | none => rfl
    | some a => rfl
  rw [← hfold, ← aliases_of_distinct hdistinct, ← (mentions_extend q kind entries).aliases]
  rfl

/-- The table of each entry is known. -/
theorem tablesOf_known (he : e ∈ entries) :
    ((tablesOf (mentions q kind entries)).lookup e.table).isSome := by
  obtain ⟨cs, hcs⟩ := Option.isSome_iff_exists.mp (addEntries_tables he .empty)
  obtain ⟨more, hmore⟩ := (mentions_extend q kind entries).columns _ cs hcs
  rw [tablesOf, lookup_tables, hmore]
  rfl

/-- Under the name of an entry stands what the entry stands for behind those before it. -/
theorem entry?_standIn {pre post : List TableEntry}
    (hdistinct : ((pre ++ e :: post).map (·.visible)).Nodup) :
    ∃ cs, Catalog.entry? (ofMentions (mentions q kind (pre ++ e :: post))) e.visible =
      some ⟨standIn pre.reverse e, cs⟩ := by
  have he : e ∈ pre ++ e :: post := List.mem_append_right _ List.mem_cons_self
  have hknown := @tablesOf_known _ _ q kind he
  rw [ entry?, entries_ofMentions hdistinct, List.foldl_append, List.foldl_cons]
  rw [List.map_append, List.map_cons] at hdistinct
  obtain ⟨-, hnodup, hapart⟩ := List.nodup_append.mp hdistinct
  have hpost : ∀ o ∈ post, o.asName ≠ some e.visible :=
    asName_ne_of_visible (List.nodup_cons.mp hnodup).1
  rw [addAliasesOf_of_ne hpost, standIn]
  cases halias : e.asName with
  | none =>
      -- nothing else is called like the table, so it is found where it was put at first
      have hpre : ∀ o ∈ pre, o.asName ≠ some e.visible :=
        asName_ne_of_visible fun hmem => hapart _ hmem _ List.mem_cons_self rfl
      have htable : e.visible = e.table := by
        rw [TableEntry.visible, halias]
        rfl
      have hnone : e.asName ≠ some e.visible := by rw [halias]; exact nofun
      obtain ⟨entry, hentry⟩ := Option.isSome_iff_exists.mp hknown
      rw [addAliasOf_of_ne hnone, addAliasesOf_of_ne hpre, htable, hentry]
      rw [tablesOf, lookup_tables] at hentry
      obtain ⟨cs, -, rfl⟩ := Option.map_eq_some_iff.mp hentry
      exact ⟨cs, rfl⟩
  | some a =>
      obtain ⟨entry, hentry⟩ := Option.isSome_iff_exists.mp (addAliasesOf_known hknown pre)
      have hrooted := @Rooted.addAliasesOf pre [] _ (rooted_tablesOf _) fun o ho =>
        @tablesOf_known _ o q kind (List.mem_append_left (e :: post) ho)
      rw [List.append_nil] at hrooted
      rw [visible_of_alias halias, addAliasOf_alias halias hentry, hrooted _ _ hentry]
      exact ⟨entry.columns, rfl⟩

/-- If no two entries are visible by one name, each is found for the source that it stands in for.
-/
theorem map_entry_standIns {pre : List TableEntry}
    (hdistinct : ((pre ++ entries).map (·.visible)).Nodup) :
    entries.map (fun e =>
        ((ofMentions (mentions q kind (pre ++ entries))).entry e.visible).source) =
      standIns pre.reverse entries := by
  -- an entry that was found is one of those before the rest, so these grow along the list
  induction entries generalizing pre with
  | nil => rfl
  | cons e rest ih =>
      obtain ⟨cs, hcs⟩ := @entry?_standIn _ q kind pre rest hdistinct
      have hsplit : pre ++ e :: rest = pre ++ [e] ++ rest := by
        rw [List.append_assoc]
        rfl
      have hrest := @ih (pre ++ [e]) (hsplit ▸ hdistinct)
      rw [List.reverse_append] at hrest
      rw [List.map_cons, standIns, Catalog.entry, hcs, hsplit, hrest]
      rfl

end Entries

/-! ## The entries of a statement -/

theorem length_readEntries {earlier : List Value} {values : List (Value × Value)}
    (h : readEntries earlier values = .ok entries) : entries.length = values.length := by
  induction values generalizing earlier entries with
  | nil =>
      cases h
      rfl
  | cons value rest ih =>
      obtain ⟨⟨e, names⟩, -, h⟩ := bind_eq_ok h
      obtain ⟨es, hes, h⟩ := bind_eq_ok h
      cases h
      rw [List.length_cons, List.length_cons, ih hes]

section Statements

variable {q : Query} {kind : Kind} {f : Frame} {tables : Option Tables}

/-- The catalog of a frame is that of what is mentioned, and each join has an entry. -/
theorem of_readFrame (h : readFrame q kind = .ok f) :
    f.catalog = .ofMentions (mentions q kind (f.tables ++ f.joined)) ∧
      f.joined.length = q.joins.length := by
  obtain ⟨entries, hentries, h⟩ := bind_eq_ok h
  cases h
  refine ⟨?_, ?_⟩
  · rw [List.take_append_drop]
  · rw [List.length_drop, length_readEntries hentries, tableValues, List.length_append,
      List.length_map, Nat.add_sub_cancel_left]

/-- The sources of a statement are the ones found under the names of its entries, entry by entry. -/
theorem sources_of_readTables (hlength : f.joined.length = q.joins.length)
    (h : readTables f q = .ok tables) :
    (tables = none ↔ f.tables = []) ∧ ∀ t, tables = some t →
      t.first :: t.others = f.tables.map (fun e => (f.catalog.entry e.visible).source) ∧
        t.joins.map (·.source) = f.joined.map fun e => (f.catalog.entry e.visible).source := by
  rw [readTables] at h
  split at h
  · rename_i hnone
    cases h
    refine ⟨⟨fun _ => List.map_eq_nil_iff.mp hnone, fun _ => rfl⟩, ?_⟩
    intro t ht
    cases ht
  · rename_i first others hfirst
    obtain ⟨joins, hjoins, h⟩ := bind_eq_ok h
    cases h
    refine ⟨⟨?_, ?_⟩, ?_⟩
    · intro hnone
      cases hnone
    · intro hnil
      rw [hnil] at hfirst
      cases hfirst
    · intro t ht
      cases ht
      refine ⟨hfirst.symm, ?_⟩
      have hsource : joins.map (·.source) =
          (q.joins.zip f.joined).map fun pair => (f.catalog.entry pair.2.visible).source := by
        refine map_of_mapM hjoins fun pair item hitem => ?_
        obtain ⟨kind, -, hitem⟩ := bind_eq_ok hitem
        obtain ⟨on, -, hitem⟩ := bind_eq_ok hitem
        cases hitem
        rfl
      have hjoined : (q.joins.zip f.joined).map Prod.snd = f.joined :=
        List.map_snd_zip (Nat.le_of_eq hlength)
      rw [hsource]
      conv => rhs; rw [← hjoined, List.map_map]
      rfl

/-- How the entries of a frame are listed in a statement that reads further sources. -/
structure Listed (f : Frame) (tables : Option Tables) (read : List Source) : Prop where
  /-- Without a table nothing is listed for the entries, whatever is joined. -/
  nothing : tables = none ↔ f.tables = []
  /-- In the places of the entries are their names, for what stands there. -/
  sources : ∀ t, tables = some t →
    t.first :: t.others = standIns [] f.tables ∧
      t.joins.map (·.source) = standIns f.tables.reverse f.joined
  /-- These are the entries' own tables exactly if none is shadowed. -/
  own : ∀ t, tables = some t →
    ((t.first :: t.others = f.tables.map TableEntry.source ∧
        t.joins.map (·.source) = f.joined.map TableEntry.source) ↔
      (f.tables ++ f.joined).Pairwise Unshadowed)
  /-- They are all written: the first with what is joined to it, then the others, then what is only
  read. -/
  clause : ∀ t, tables = some t →
    ∃ more, fromEntries tables read = t.tokens :: (t.others ++ more).map sourceTokens

/-- If no two entries are visible by one name, the tables that are read list the entries. -/
theorem listed_of_readTables (hf : readFrame q kind = .ok f)
    (hdistinct : ((f.tables ++ f.joined).map (·.visible)).Nodup)
    (h : readTables f q = .ok tables) (read : List Source) : Listed f tables read := by
  obtain ⟨hcatalog, hlength⟩ := of_readFrame hf
  obtain ⟨hnothing, hfound⟩ := sources_of_readTables hlength h
  have hsources : ∀ t, tables = some t → t.first :: t.others = standIns [] f.tables ∧
      t.joins.map (·.source) = standIns f.tables.reverse f.joined := by
    intro t ht
    have hall := @map_entry_standIns (f.tables ++ f.joined) q kind [] hdistinct
    rw [List.nil_append, ← hcatalog, List.map_append, List.reverse_nil, standIns_append,
      List.append_nil] at hall
    have hnames := congrArg List.length (map_name_standIns [] f.tables)
    rw [List.length_map, List.length_map] at hnames
    obtain ⟨htables, hjoined⟩ :=
      List.append_inj hall ((List.length_map _).trans hnames.symm)
    obtain ⟨hfirst, hjoins⟩ := hfound t ht
    exact ⟨hfirst.trans htables, hjoins.trans hjoined⟩
  refine ⟨hnothing, hsources, fun t ht => ?_, fun t ht => ?_⟩
  · obtain ⟨hfirst, hjoins⟩ := hsources t ht
    have hiff := @standIns_eq_iff (f.tables ++ f.joined) [] hdistinct List.Pairwise.nil
    rw [standIns_append, List.append_nil, List.map_append, List.reverse_nil,
      List.nil_append] at hiff
    rw [hfirst, hjoins, ← hiff]
    have hnames := congrArg List.length (map_name_standIns [] f.tables)
    rw [List.length_map] at hnames
    refine ⟨fun h => by rw [h.1, h.2], fun h => ?_⟩
    exact List.append_inj h (by rw [hnames, List.length_map, List.length_map])
  · obtain ⟨hfirst, hjoins⟩ := hsources t ht
    -- the joined sources are listed before the others, so only up to their order are the names
    -- those of the entries
    have hnodup : ((t.joined ++ t.others).map (·.name)).Nodup := by
      have hperm : (t.joined ++ t.others).Perm
          ((t.first :: t.others) ++ t.joins.map (·.source)) :=
        (List.perm_append_comm).cons t.first
      refine ((hperm.map _).nodup_iff).mpr ?_
      rw [hfirst, hjoins, List.map_append, map_name_standIns, map_name_standIns,
        ← List.map_append]
      exact hdistinct
    have hnew : (t.joined ++ t.others).Nodup :=
      List.Pairwise.of_map Source.name (fun s s' hname heq => hname (congrArg Source.name heq))
        hnodup
    refine ⟨listNew (t.joined ++ t.others) read, ?_⟩
    subst ht
    exact congrArg (fun sources => t.tokens :: sources.map sourceTokens) (listNew_append hnew)

/-- The parts of a SELECT that were read from what it shares with a count, and its items. -/
theorem of_readSelect {select : Select} (h : readSelect f q = .ok select) :
    readItems f.catalog q.select = .ok select.items ∧ readTables f q = .ok select.tables ∧
      readFilter f.catalog q.filter = .ok select.filter := by
  rw [readSelect] at h
  obtain ⟨items, hitems, h⟩ := bind_eq_ok h
  obtain ⟨tables, htables, h⟩ := bind_eq_ok h
  obtain ⟨filter, hfilter, h⟩ := bind_eq_ok h
  obtain ⟨groupBy, -, h⟩ := bind_eq_ok h
  obtain ⟨having, -, h⟩ := bind_eq_ok h
  obtain ⟨orderBy, -, h⟩ := bind_eq_ok h
  obtain ⟨distinct, -, h⟩ := bind_eq_ok h
  obtain ⟨limit, -, h⟩ := bind_eq_ok h
  obtain ⟨offset, -, h⟩ := bind_eq_ok h
  cases h
  exact ⟨hitems, htables, hfilter⟩

theorem tables_of_readSelect {select : Select} (h : readSelect f q = .ok select) :
    readTables f q = .ok select.tables :=
  (of_readSelect h).2.1

/-- **AS ITS OWN TABLE**: if all entries are visible under different names, a SELECT and a count
list each of them under its name and in its place, and as its own table exactly if no alias of an
earlier entry is the name of another table that a later entry brings. -/
theorem listed_as_own_table_iff (hf : readFrame q .select = .ok f)
    (hdistinct : ((f.tables ++ f.joined).map (·.visible)).Nodup) :
    (∀ s, readStatement q .select = .ok s →
        ∃ select, s = .select select ∧ Listed f select.tables select.read) ∧
      ∀ s, readCount q = .ok s →
        ∃ tables filter, s = .count tables filter ∧ Listed f tables (filterSources filter) := by
  refine ⟨fun s hs => ?_, fun s hs => ?_⟩
  · obtain ⟨f', hf', hs⟩ := bind_eq_ok hs
    cases hf.symm.trans hf'
    obtain ⟨select, hselect, hs⟩ := bind_eq_ok hs
    cases hs
    exact ⟨select, rfl, listed_of_readTables hf hdistinct (tables_of_readSelect hselect) _⟩
  · obtain ⟨f', hf', hs⟩ := bind_eq_ok hs
    cases hf.symm.trans hf'
    obtain ⟨tables, htables, hs⟩ := bind_eq_ok hs
    obtain ⟨filter, -, hs⟩ := bind_eq_ok hs
    cases hs
    exact ⟨tables, filter, rfl, listed_of_readTables hf hdistinct htables _⟩

/-- The table `users` by the name of the table that is joined to it. -/
def shadowingQuery : Query :=
  { tables := [(.text "users", .text "posts")]
    joins := [{ table := .text "posts", asName := .text "p", type := .null, on := [] }]
    filter := []
    having := [] }

/-- Users are listed under the name of posts, and once more for the posts that are joined. -/
theorem users_listed_for_posts :
    ∃ select t, readStatement shadowingQuery .select = .ok (.select select) ∧
      select.tables = some t ∧
      t.first = { name := .text "posts", aliasOf := some (.text "users") } ∧
      t.joins.map (·.source) = [{ name := .text "p", aliasOf := some (.text "users") }] ∧
      ¬(t.first :: t.others = [TableEntry.source ⟨.text "users", some (.text "posts")⟩] ∧
        t.joins.map (·.source) = [TableEntry.source ⟨.text "posts", some (.text "p")⟩]) := by
  have hdistinct : ([(⟨.text "users", some (.text "posts")⟩ : TableEntry),
      ⟨.text "posts", some (.text "p")⟩].map (·.visible)).Nodup := by decide
  obtain ⟨hselect, -⟩ := @listed_as_own_table_iff shadowingQuery _ rfl hdistinct
  obtain ⟨select, hstatement, hlisted⟩ := hselect _ rfl
  cases hstatement
  obtain ⟨hfirst, hjoins⟩ := hlisted.sources _ rfl
  refine ⟨_, _, rfl, rfl, ?_, ?_, fun hown => ?_⟩
  · exact (List.cons.inj hfirst).1
  · exact hjoins
  have hclear := List.rel_of_pairwise_cons ((hlisted.own _ rfl).mp hown) List.mem_cons_self
  exact absurd (hclear rfl) (by decide)

end Statements

end ModelQuery.Sql
