import ModelQuery.Sql.Compile.Mentions

/-!
# What a catalog knows

Mentions are collected in one pass and looked up in another.  Collecting never takes anything back:
`Grows` is what each mention does to the mentions so far, so whatever a pass mentions is known at
its end (`foldl_has`).

Looking up goes through the catalog, where an alias is an entry of its own.  If every alias is given
once and none is the name of a table, the order in which the entries were made does not matter, and
`entry?_ofMentions` says of any name what is found under it: the columns of the table behind it.
-/

namespace ModelQuery.Sql

/-! ## Collecting -/

namespace Mentions

variable {m m' : Mentions} {table : SourceName} {column : String}

/-- The aliases are the same, and the columns that were known still come first. -/
structure Grows (m m' : Mentions) : Prop where
  aliases : m'.aliases = m.aliases
  columns : ∀ name cs, m.columns.lookup name = some cs →
    ∃ more, m'.columns.lookup name = some (cs ++ more)

/-- The table that a name stands for is known to have a column. -/
def Has (m : Mentions) (table : SourceName) (column : String) : Prop :=
  ∃ cs, m.columns.lookup (m.behind table) = some cs ∧ column ∈ cs

theorem Grows.refl (m : Mentions) : Grows m m :=
  ⟨rfl, fun _ cs h => ⟨[], h.trans (congrArg some (List.append_nil cs).symm)⟩⟩

theorem Grows.trans {m'' : Mentions} (h : Grows m m') (h' : Grows m' m'') : Grows m m'' := by
  refine ⟨h'.aliases.trans h.aliases, fun name cs hcs => ?_⟩
  obtain ⟨more, hmore⟩ := h.columns name cs hcs
  obtain ⟨more', hmore'⟩ := h'.columns name _ hmore
  exact ⟨more ++ more', hmore'.trans (congrArg some (List.append_assoc cs more more'))⟩

/-- A column that is known stays known. -/
theorem Grows.has (h : Grows m m') (hhas : m.Has table column) : m'.Has table column := by
  obtain ⟨cs, hcs, hmem⟩ := hhas
  obtain ⟨more, hmore⟩ := h.columns _ cs hcs
  refine ⟨cs ++ more, ?_, List.mem_append_left more hmem⟩
  rw [behind, h.aliases]
  exact hmore

/-- A mention adds a column at the end, or nothing if it is known. -/
theorem addColumn_columns (table : SourceName) (column : String) (m : Mentions) :
    ∃ more, (m.addColumn table column).columns.lookup (m.behind table) =
        some ((m.columns.lookup (m.behind table)).getD [] ++ more) ∧
      column ∈ (m.columns.lookup (m.behind table)).getD [] ++ more := by
  by_cases hknown : column ∈ (m.columns.lookup (m.behind table)).getD []
  · refine ⟨[], ?_, ?_⟩
    · rw [addColumn, Assoc.lookup_put_self, if_pos hknown, List.append_nil]
    · rw [List.append_nil]
      exact hknown
  · refine ⟨[column], ?_, List.mem_append_right _ List.mem_cons_self⟩
    rw [addColumn, Assoc.lookup_put_self, if_neg hknown]

/-- A column that is added is known. -/
theorem addColumn_has (table : SourceName) (column : String) (m : Mentions) :
    (m.addColumn table column).Has table column := by
  obtain ⟨more, hlookup, hmem⟩ := addColumn_columns table column m
  exact ⟨_, hlookup, hmem⟩

/-- To add a column loses none. -/
theorem addColumn_grows (table : SourceName) (column : String) (m : Mentions) :
    Grows m (m.addColumn table column) := by
  refine ⟨rfl, fun name cs hcs => ?_⟩
  by_cases hname : name = m.behind table
  · -- the table that is mentioned keeps its columns and may get one more
    subst hname
    obtain ⟨more, hlookup, -⟩ := addColumn_columns table column m
    rw [hcs] at hlookup
    exact ⟨more, hlookup⟩
  · refine ⟨[], ?_⟩
    rw [addColumn, Assoc.lookup_put_of_ne hname, hcs, List.append_nil]

theorem addReference_grows (m : Mentions) (v : Value) : Grows m (m.addReference v) := by
  rw [addReference]
  split
  · exact addColumn_grows _ _ m
  · exact .refl m

/-- The column of a qualified reference is known of its table. -/
theorem addReference_has {v : Value} {name : String}
    (h : plainColumn? v = some ⟨some name, column⟩) (m : Mentions) :
    (m.addReference v).Has (.text name) column := by
  rw [addReference, h]
  exact addColumn_has (.text name) column m

theorem addTo_grows (table : SourceName) (m : Mentions) (v : Value) :
    Grows m (m.addTo table v) := by
  rw [addTo]
  split
  · exact addColumn_grows _ _ m
  · exact .refl m

/-- A written column is known of the table that is written. -/
theorem addTo_has {v : Value} {p : PlainColumn} (h : plainColumn? v = some p) (m : Mentions) :
    (m.addTo table v).Has table p.column := by
  rw [addTo, h]
  exact addColumn_has table p.column m

/-! ### Passes -/

section Passes

variable {step : Mentions → Value → Mentions} (hstep : ∀ m v, Grows m (step m v))

include hstep

/-- What grows with each value grows with all of them. -/
theorem foldl_grows (vs : List Value) (m : Mentions) : Grows m (vs.foldl step m) := by
  induction vs generalizing m with
  | nil => exact .refl m
  | cons v rest ih => exact (hstep m v).trans (ih (step m v))

/-- What one value of a pass mentions is known when the pass is over. -/
theorem foldl_has {vs : List Value} {v : Value} (hv : v ∈ vs)
    (hhas : ∀ m, (step m v).Has table column) (m : Mentions) :
    (vs.foldl step m).Has table column := by
  induction vs generalizing m with
  | nil => cases hv
  | cons w rest ih =>
      rcases List.mem_cons.mp hv with rfl | hrest
      · exact (foldl_grows hstep rest (step m v)).has (hhas m)
      · exact ih hrest (step m w)

end Passes

/-! ### Entries -/

/-- An alias with its table. -/
def aliasOf? (e : TableEntry) : Option (SourceName × SourceName) := e.asName.map fun a => (a, e.table)

/-- The aliases are those of the entries. -/
theorem addEntries_aliases (entries : List TableEntry) (m : Mentions) :
    (entries.foldl addEntry m).aliases = Assoc.putAll (entries.filterMap aliasOf?) m.aliases := by
  induction entries generalizing m with
  | nil => rfl
  | cons e rest ih =>
      obtain ⟨table, asName⟩ := e
      cases asName with
      | none => exact ih _
      | some a => exact ih _

theorem addEntry_known {name : SourceName} (h : (m.columns.lookup name).isSome) (e : TableEntry) :
    ((m.addEntry e).columns.lookup name).isSome := by
  obtain ⟨cs, hcs⟩ := Option.isSome_iff_exists.mp h
  rw [addEntry, Assoc.lookup_putNew, hcs]
  rfl

/-- A table that is known stays known behind all entries. -/
theorem addEntries_known {name : SourceName} (h : (m.columns.lookup name).isSome)
    (entries : List TableEntry) : ((entries.foldl addEntry m).columns.lookup name).isSome := by
  induction entries generalizing m with
  | nil => exact h
  | cons e rest ih => exact ih (addEntry_known h e)

/-- Every table of the entries is known, with its columns or none. -/
theorem addEntries_tables {entries : List TableEntry} {e : TableEntry} (he : e ∈ entries)
    (m : Mentions) : ((entries.foldl addEntry m).columns.lookup e.table).isSome := by
  induction entries generalizing m with
  | nil => cases he
  | cons e' rest ih =>
      rcases List.mem_cons.mp he with rfl | hrest
      · refine addEntries_known ?_ rest
        rw [addEntry, Assoc.lookup_putNew, List.lookup_cons_self]
        cases m.columns.lookup e.table <;> rfl
      · exact ih hrest (m.addEntry e')

/-! ## Looking up -/

/-- Every alias is given once, none is the name of a table that has one, and these tables are
known. -/
structure Sound (m : Mentions) : Prop where
  once : (Assoc.keys m.aliases).Nodup
  apart : ∀ e ∈ m.aliases, e.2 ∉ Assoc.keys m.aliases
  known : ∀ e ∈ m.aliases, (m.columns.lookup e.2).isSome

/-- What is mentioned stays sound as it grows. -/
theorem Sound.grows (h : m.Sound) (hm : Grows m m') : m'.Sound := by
  refine ⟨?_, ?_, fun e he => ?_⟩
  · rw [hm.aliases]
    exact h.once
  · rw [hm.aliases]
    exact h.apart
  · rw [hm.aliases] at he
    obtain ⟨cs, hcs⟩ := Option.isSome_iff_exists.mp (h.known e he)
    obtain ⟨more, hmore⟩ := hm.columns e.2 cs hcs
    rw [hmore]
    rfl

/-- No alias of entries is the name of a table among them. -/
def Apart (entries : List TableEntry) : Prop :=
  ∀ e ∈ entries, ∀ e' ∈ entries, e.asName ≠ some e'.table

instance (entries : List TableEntry) : Decidable (Apart entries) :=
  inferInstanceAs (Decidable (∀ e ∈ entries, ∀ e' ∈ entries, e.asName ≠ some e'.table))

/-- An alias is that of an entry. -/
theorem mem_aliases {entries : List TableEntry} {pair : SourceName × SourceName}
    (h : pair ∈ (entries.foldl addEntry .empty).aliases) :
    ∃ e ∈ entries, e.asName = some pair.1 ∧ e.table = pair.2 := by
  rw [addEntries_aliases] at h
  rcases Assoc.mem_putAll h with hpair | hnil
  · obtain ⟨e, he, hpair⟩ := List.mem_filterMap.mp hpair
    obtain ⟨a, ha, rfl⟩ := Option.map_eq_some_iff.mp hpair
    exact ⟨e, he, ha, rfl⟩
  · cases hnil

/-- Of two entries with one alias only the later is kept, so no alias has to be given once. -/
theorem Apart.sound {entries : List TableEntry} (h : Apart entries) :
    (entries.foldl addEntry .empty).Sound := by
  refine ⟨?_, fun pair hpair hkey => ?_, fun pair hpair => ?_⟩
  · rw [addEntries_aliases]
    exact Assoc.nodup_keys_putAll _ List.nodup_nil
  · obtain ⟨e, he, -, htable⟩ := mem_aliases hpair
    obtain ⟨table, hother⟩ := Assoc.exists_of_mem_keys hkey
    obtain ⟨other, ho, halias, -⟩ := mem_aliases hother
    exact h other ho e he (htable ▸ halias)
  · obtain ⟨e, he, -, htable⟩ := mem_aliases hpair
    rw [← htable]
    exact addEntries_tables he .empty

end Mentions

namespace Catalog

variable {entries : List (SourceName × CatalogEntry)}

/-- A table with the columns it has. -/
def tableEntry (name : SourceName) (columns : List String) : CatalogEntry :=
  { bareTable name with columns }

theorem lookup_tables (columns : List (SourceName × List String)) (name : SourceName) :
    (columns.map fun (name, cs) => (name, tableEntry name cs)).lookup name =
      (columns.lookup name).map (tableEntry name) :=
  Assoc.lookup_map tableEntry name columns

theorem lookup_addAlias_of_ne {name asName : SourceName} (h : name ≠ asName) (table : SourceName) :
    (addAlias entries asName table).lookup name = entries.lookup name := by
  rw [addAlias]
  split
  · exact Assoc.lookup_put_of_ne h _ _
  · rfl

/-- An alias is put for the table that it is of, with its columns. -/
theorem addAlias_eq {table : SourceName} {columns : List String}
    (h : entries.lookup table = some (tableEntry table columns)) (asName : SourceName) :
    addAlias entries asName table =
      Assoc.put asName ⟨{ name := asName, aliasOf := some table }, columns⟩ entries := by
  rw [addAlias, h]
  rfl

/-- By induction on the aliases: as none of them is the name of a table, the table of a later one is
found as it was before the earlier ones. -/
theorem lookup_addAliases {aliases : List (SourceName × SourceName)}
    (honce : (Assoc.keys aliases).Nodup) (hapart : ∀ e ∈ aliases, e.2 ∉ Assoc.keys aliases)
    (hknown : ∀ e ∈ aliases, ∃ cs, entries.lookup e.2 = some (tableEntry e.2 cs))
    (name : SourceName) :
    (aliases.foldl (fun es (asName, table) => addAlias es asName table) entries).lookup name =
      match aliases.lookup name with
      | some table =>
        (entries.lookup table).map fun e => ⟨{ name, aliasOf := some table }, e.columns⟩
      | none => entries.lookup name := by
  induction aliases generalizing entries with
  | nil => rfl
  | cons e rest ih =>
      obtain ⟨asName, table⟩ := e
      obtain ⟨hnew, hrest⟩ := List.nodup_cons.mp honce
      obtain ⟨cs, hcs⟩ := hknown (asName, table) List.mem_cons_self
      have hstep : addAlias entries asName table =
          Assoc.put asName ⟨{ name := asName, aliasOf := some table }, cs⟩ entries :=
        addAlias_eq hcs asName
      -- the tables of the other aliases are not this alias, so they are where they were
      have htables : ∀ e ∈ rest, e.2 ∉ Assoc.keys rest ∧
          (addAlias entries asName table).lookup e.2 = entries.lookup e.2 := by
        intro e he
        have hmem := hapart e (List.mem_cons_of_mem _ he)
        have hne : e.2 ≠ asName := fun heq => hmem (heq ▸ List.mem_cons_self)
        refine ⟨fun hkey => hmem (List.mem_cons_of_mem _ hkey), ?_⟩
        rw [hstep, Assoc.lookup_put_of_ne hne]
      have hlater := @ih (addAlias entries asName table) hrest (fun e he => (htables e he).1)
        fun e he => by
          rw [(htables e he).2]
          exact hknown e (List.mem_cons_of_mem _ he)
      refine Eq.trans hlater ?_
      rw [List.lookup_cons]
      by_cases hname : name = asName
      · subst hname
        rw [Assoc.lookup_eq_none_iff.mpr hnew, beq_self_eq_true, hstep]
        dsimp only
        rw [Assoc.lookup_put_self, hcs]
        rfl
      · rw [beq_false_of_ne hname]
        cases hlookup : rest.lookup name with
        | some other =>
            dsimp only
            rw [(htables (name, other) (Assoc.mem_of_lookup hlookup)).2]
        | none =>
            dsimp only
            rw [hstep, Assoc.lookup_put_of_ne hname]

/-- Under any name stands the table behind it, with the columns mentioned of that table, called by
the name. -/
theorem entry?_ofMentions {m : Mentions} (h : m.Sound) (name : SourceName) :
    entry? (ofMentions m) name = (m.columns.lookup (m.behind name)).map fun cs =>
      ⟨{ name, aliasOf := m.aliases.lookup name }, cs⟩ := by
  have hknown : ∀ e ∈ m.aliases, ∃ cs,
      (m.columns.map fun (name, cs) => (name, tableEntry name cs)).lookup e.2 =
        some (tableEntry e.2 cs) := by
    intro e he
    obtain ⟨cs, hcs⟩ := Option.isSome_iff_exists.mp (h.known e he)
    exact ⟨cs, by rw [lookup_tables, hcs]; rfl⟩
  have hlookup := lookup_addAliases h.once h.apart hknown name
  rw [lookup_tables] at hlookup
  refine hlookup.trans ?_
  rw [Mentions.behind]
  cases m.aliases.lookup name with
  | some table =>
      dsimp only
      rw [lookup_tables, Option.map_map]
      rfl
  | none => rfl

end Catalog

end ModelQuery.Sql
