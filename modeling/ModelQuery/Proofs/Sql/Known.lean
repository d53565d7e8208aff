import ModelQuery.Proofs.Sql.Apart

/-!
# The columns that are known

A catalog is made of the mentions of all clauses.  So a table is known to have the columns that are
mentioned of it, by whatever name and in whatever clause, each once, and no others.  For the table
that a statement changes `target_columns` says so, whatever the tables and their aliases are called.
-/

namespace ModelQuery.Sql

namespace Mentions

variable {m : Mentions} {table : SourceName} {column : String}

/-! ## Mentions in order -/

/-- The columns that are known of a table. -/
def known (m : Mentions) (table : SourceName) : List String := (m.columns.lookup table).getD []

/-- Columns mentioned one after the other, each with the name it is mentioned by. -/
def addColumns (pairs : List (SourceName × String)) (m : Mentions) : Mentions :=
  pairs.foldl (fun m pair => m.addColumn pair.1 pair.2) m

/-- A column that is mentioned becomes known of the table behind the name, once. -/
theorem known_addColumn (table name : SourceName) (column : String) (m : Mentions) :
    (m.addColumn name column).known table =
      if m.behind name = table ∧ column ∉ m.known table then m.known table ++ [column]
      else m.known table := by
  by_cases hname : m.behind name = table
  · subst hname
    rw [known, addColumn, Assoc.lookup_put_self, Option.getD_some, ← known]
    by_cases hknown : column ∈ m.known (m.behind name)
    · rw [if_pos hknown, if_neg fun h => h.2 hknown]
    · rw [if_neg hknown, if_pos ⟨rfl, hknown⟩]
  · rw [known, addColumn, Assoc.lookup_put_of_ne (Ne.symm hname), if_neg fun h => hname h.1, known]

/-- Known is what was known before and what is mentioned by a name of the table. -/
theorem mem_known_addColumns {pairs : List (SourceName × String)} :
    column ∈ (m.addColumns pairs).known table ↔
      column ∈ m.known table ∨ ∃ name, (name, column) ∈ pairs ∧ m.behind name = table := by
  induction pairs generalizing m with
  | nil => exact ⟨.inl, fun h => h.resolve_right fun ⟨_, hmem, _⟩ => List.not_mem_nil hmem⟩
  | cons pair rest ih =>
      obtain ⟨name, c⟩ := pair
      -- a mention leaves the aliases alone, so the names behind it stand for the same tables
      have hbehind : ∀ other, (m.addColumn name c).behind other = m.behind other := fun _ => rfl
      have hhead : column ∈ (m.addColumn name c).known table ↔
          column ∈ m.known table ∨ column = c ∧ m.behind name = table := by
        rw [known_addColumn]
        split
        · rename_i hnew
          rw [List.mem_append, List.mem_singleton]
          exact or_congr_right ⟨fun hc => ⟨hc, hnew.1⟩, fun hc => hc.1⟩
        · rename_i hold
          refine ⟨.inl, fun h => h.elim id fun hc => ?_⟩
          rw [hc.1]
          exact Classical.not_not.mp fun hnot => hold ⟨hc.2, hnot⟩
      show column ∈ ((m.addColumn name c).addColumns rest).known table ↔ _
      rw [ih, hhead, or_assoc]
      refine or_congr_right ⟨?_, ?_⟩
      · rintro (⟨rfl, hname⟩ | ⟨other, hother, htable⟩)
        · exact ⟨name, List.mem_cons_self, hname⟩
        · exact ⟨other, List.mem_cons_of_mem _ hother, (hbehind other).symm.trans htable⟩
      · rintro ⟨other, hother, htable⟩
        rcases List.mem_cons.mp hother with heq | hother
        · obtain ⟨rfl, rfl⟩ := Prod.mk.injEq .. ▸ heq
          exact .inl ⟨rfl, htable⟩
        · exact .inr ⟨other, hother, (hbehind other).trans htable⟩

/-- A column that is mentioned again stays where it is. -/
theorem nodup_known_addColumns (pairs : List (SourceName × String))
    (h : (m.known table).Nodup) : ((m.addColumns pairs).known table).Nodup := by
  induction pairs generalizing m with
  | nil => exact h
  | cons pair rest ih =>
      refine @ih (m.addColumn pair.1 pair.2) ?_
      rw [known_addColumn]
      split
      · rename_i hnew
        exact List.nodup_append.mpr ⟨h, List.pairwise_singleton _ _, fun a ha b hb heq =>
          hnew.2 (List.mem_singleton.mp hb ▸ heq ▸ ha)⟩
      · exact h

/-- Entries mention no columns. -/
theorem known_addEntries (entries : List TableEntry) (h : ∀ table, m.known table = [])
    (table : SourceName) : (entries.foldl addEntry m).known table = [] := by
  induction entries generalizing m with
  | nil => exact h table
  | cons e rest ih =>
      refine ih fun name => ?_
      have hname : (m.columns.lookup name).getD [] = [] := h name
      rw [known, addEntry, Assoc.lookup_putNew, List.lookup_cons]
      cases hlookup : m.columns.lookup name with
      | some cs =>
          rw [hlookup] at hname
          exact hname
      | none =>
          rw [Option.none_or]
          cases name == e.table <;> rfl

/-! ## What a query mentions -/

/-- What a reference mentions: a column, by the name of its table. -/
def reference? (v : Value) : Option (SourceName × String) :=
  match plainColumn? v with
  | some ⟨some table, column⟩ => some (.text table, column)
  | _ => none

/-- What a written column mentions of a table. -/
def writtenTo? (table : SourceName) (v : Value) : Option (SourceName × String) :=
  (plainColumn? v).map fun p => (table, p.column)

/-- The columns a query mentions, each with the name it is mentioned by: those of its references,
and those that are written, by the name of its first table. -/
def mentioned (q : Query) (kind : Kind) (first : TableEntry) : List (SourceName × String) :=
  (references q).filterMap reference? ++ (writtenColumns q kind).filterMap (writtenTo? first.table)

/-- A pass over values mentions, for each of them, what it mentions. -/
theorem foldl_eq_addColumns {step : Mentions → Value → Mentions}
    {pair? : Value → Option (SourceName × String)}
    (hstep : ∀ m v, step m v = m.addColumns (pair? v).toList) (vs : List Value) (m : Mentions) :
    vs.foldl step m = m.addColumns (vs.filterMap pair?) := by
  induction vs generalizing m with
  | nil => rfl
  | cons v rest ih =>
      rw [List.foldl_cons, hstep, ih, List.filterMap_cons]
      cases pair? v <;> rfl

theorem addReference_eq (m : Mentions) (v : Value) :
    m.addReference v = m.addColumns (reference? v).toList := by
  rw [addReference, reference?]
  cases plainColumn? v with
  | none => rfl
  | some p =>
      obtain ⟨table, column⟩ := p
      cases table <;> rfl

theorem addTo_eq (table : SourceName) (m : Mentions) (v : Value) :
    m.addTo table v = m.addColumns (writtenTo? table v).toList := by
  rw [addTo, writtenTo?]
  cases plainColumn? v <;> rfl

/-- What a query mentions is its entries, and then its columns one after the other. -/
theorem mentions_eq {q : Query} (htables : q.tables ≠ []) (kind : Kind) (first : TableEntry)
    (rest : List TableEntry) :
    mentions q kind (first :: rest) =
      ((first :: rest).foldl addEntry .empty).addColumns (mentioned q kind first) := by
  rw [mentions, if_neg fun hempty => htables (List.isEmpty_iff.mp hempty)]
  show (writtenColumns q kind).foldl (addTo first.table) _ = _
  rw [foldl_eq_addColumns addReference_eq, foldl_eq_addColumns (addTo_eq first.table)]
  exact List.foldl_append.symm

end Mentions

/-! ## What a catalog has of it -/

namespace Catalog

variable {m : Mentions} {entries : List (SourceName × CatalogEntry)}

/-- Every entry has the columns that are known of the table at the end of its aliases, and every
table has an entry. -/
structure Reflects (m : Mentions) (entries : List (SourceName × CatalogEntry)) : Prop where
  columns : ∀ name e, entries.lookup name = some e → e.columns = m.known (root e.source)
  tables : ∀ name, entries.lookup name = none → m.columns.lookup name = none

/-- The tables with their columns reflect what is mentioned. -/
theorem reflects_tables (m : Mentions) :
    Reflects m (m.columns.map fun (name, cs) => (name, tableEntry name cs)) := by
  refine ⟨fun name e he => ?_, fun name hname => ?_⟩
  · rw [lookup_tables] at he
    obtain ⟨cs, hcs, rfl⟩ := Option.map_eq_some_iff.mp he
    show cs = m.known name
    rw [Mentions.known, hcs]
    rfl
  · rw [lookup_tables] at hname
    exact Option.map_eq_none_iff.mp hname

/-- An alias has what its table has, which may be an alias itself. -/
theorem Reflects.addAlias (h : Reflects m entries) (asName table : SourceName) :
    Reflects m (addAlias entries asName table) := by
  rw [Catalog.addAlias]
  cases htable : entries.lookup table with
  | none => exact h
  | some e =>
      refine ⟨fun name e' he' => ?_, fun name hname => ?_⟩
      · by_cases heq : name = asName
        · subst heq
          rw [Assoc.lookup_put_self] at he'
          cases he'
          exact h.columns table e htable
        · rw [Assoc.lookup_put_of_ne heq] at he'
          exact h.columns name e' he'
      · by_cases heq : name = asName
        · subst heq
          rw [Assoc.lookup_put_self] at hname
          cases hname
        · rw [Assoc.lookup_put_of_ne heq] at hname
          exact h.tables name hname

/-- The catalog of what is mentioned reflects it. -/
theorem reflects_ofMentions (m : Mentions) : Reflects m (ofMentions m).entries := by
  have haliases : ∀ (aliases : List (SourceName × SourceName)) entries, Reflects m entries →
      Reflects m (aliases.foldl (fun es pair => addAlias es pair.1 pair.2) entries) := by
    intro aliases
    induction aliases with
    | nil => exact fun entries h => h
    | cons pair rest ih => exact fun entries h => ih _ (h.addAlias pair.1 pair.2)
  exact haliases m.aliases _ (reflects_tables m)

/-- Under any name stand the columns known of the table at the end of its aliases. -/
theorem columns_entry (m : Mentions) (name : SourceName) :
    ((ofMentions m).entry name).columns = m.known (root ((ofMentions m).entry name).source) := by
  have h := reflects_ofMentions m
  rw [entry, entry?]
  cases hname : (ofMentions m).entries.lookup name with
  | some e => exact h.columns name e hname
  | none =>
      show [] = m.known name
      rw [Mentions.known, h.tables name hname]
      rfl

end Catalog

/-! ## The changed table -/

open Mentions

variable {q : Query} {kind : Kind} {entries : List TableEntry} {into : Changed}

/-- **A CHANGED TABLE HAS THE COLUMNS MENTIONED OF IT**: each once, and a column exactly if some
name that stands for the table is mentioned with it. -/
theorem target_columns (h : readTarget (frameWith q kind entries) kind = .ok into) :
    ∃ first rest, entries = first :: rest ∧ q.tables ≠ [] ∧
      into.source = ((frameWith q kind entries).catalog.entry first.table).source ∧
      into.columns.Nodup ∧
      ∀ column, column ∈ into.columns ↔ ∃ name, (name, column) ∈ mentioned q kind first ∧
        Catalog.root (sourceAmong entries name) = Catalog.root into.source := by
  rw [readTarget] at h
  split at h
  · cases h
  · rename_i first others htables
    cases h
    obtain ⟨rest, hentries⟩ : ∃ rest, entries = first :: rest := by
      have happend := List.take_append_drop q.tables.length entries
      rw [show entries.take q.tables.length = first :: others from htables] at happend
      exact ⟨_, happend.symm⟩
    have hnonempty : q.tables ≠ [] := by
      intro hnil
      rw [frameWith, hnil] at htables
      cases htables
    have hmentions : mentions q kind entries =
        (entries.foldl addEntry .empty).addColumns (mentioned q kind first) := by
      rw [hentries]
      exact mentions_eq hnonempty kind first rest
    have hnothing := known_addEntries (m := .empty) entries fun _ => rfl
    refine ⟨first, rest, hentries, hnonempty, rfl, ?_, fun column => ?_⟩
    · show ((Catalog.ofMentions (mentions q kind entries)).entry first.table).columns.Nodup
      rw [Catalog.columns_entry, hmentions]
      exact nodup_known_addColumns _ (by rw [hnothing]; exact List.nodup_nil)
    · have hknown : ∀ table, column ∈ (mentions q kind entries).known table ↔
          ∃ name, (name, column) ∈ mentioned q kind first ∧
            Catalog.root (sourceAmong entries name) = table := by
        intro table
        rw [hmentions, mem_known_addColumns, hnothing]
        exact ⟨fun h => h.resolve_left List.not_mem_nil, .inr⟩
      show column ∈ ((Catalog.ofMentions (mentions q kind entries)).entry first.table).columns ↔ _
      rw [Catalog.columns_entry]
      exact hknown _

end ModelQuery.Sql
