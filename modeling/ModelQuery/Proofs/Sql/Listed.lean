import ModelQuery.Proofs.Sql.Assigned
import ModelQuery.Proofs.Sql.Known
import ModelQuery.Proofs.Sql.Overwritten

/-!
# The columns that are listed

An UPDATE lists columns in SET, an INSERT behind its table.  Of the columns that are known of the
changed table, these are the ones something is assigned to by name; and a name comes from a key that
the query gives for it, however the key is written.

But a statement that is given no values lists all known columns, and known is whatever any clause
mentions.  So what is listed was named as a target exactly if values are given, or if nothing else
happens to be mentioned of the table (`listed_named_iff`).
-/

namespace ModelQuery.Sql

open Outcome Mentions

/-! ## Columns in the words -/

/-- A column has values just if it is assigned to by its name. -/
theorem valuesFor_ne_nil_iff {column : String} {as : List Assignment} :
    valuesFor column as ≠ [] ↔ column ∈ as.filterMap (·.target.name?) := by
  rw [valuesFor, Ne, List.filterMap_eq_nil_iff, List.mem_filterMap]
  constructor
  · intro hsome
    apply Classical.byContradiction
    intro hnone
    refine hsome fun a ha => if_neg fun hname => hnone ⟨a, ha, hname⟩
  · rintro ⟨a, ha, hname⟩ hnone
    have hvalue := hnone a ha
    rw [if_pos hname] at hvalue
    cases hvalue

/-- The columns with values are those that are assigned to by name, each with its first value. -/
theorem columnValues_eq (columns : List String) (as : List Assignment) :
    columnValues columns as =
      (columns.filter (· ∈ as.filterMap (·.target.name?))).map fun c =>
        (c, (valuesFor c as).head?.getD .null) := by
  induction columns with
  | nil => rfl
  | cons c rest ih =>
      rw [columnValues] at ih
      rw [columnValues, List.filterMap_cons, List.filter_cons]
      cases hvalues : valuesFor c as with
      | nil =>
          have hnot : ¬ decide (c ∈ as.filterMap (·.target.name?)) = true := fun h =>
            valuesFor_ne_nil_iff.mpr (of_decide_eq_true h) hvalues
          rw [if_neg hnot]
          exact ih
      | cons e more =>
          have hmem : decide (c ∈ as.filterMap (·.target.name?)) = true :=
            decide_eq_true (valuesFor_ne_nil_iff.mp (hvalues ▸ List.cons_ne_nil e more))
          rw [if_pos hmem, List.map_cons, hvalues]
          exact congrArg _ ih

namespace Statement

/-- The table that a statement writes columns of. -/
def writes? : Statement → Option Changed
  | .update into _ _ | .insert into _ => some into
  | _ => none

/-- The columns that a statement lists in its words. -/
def columnsListed : Statement → List String
  | .update into none _ => into.columns
  | .update into (some as) _ => (columnValues into.columns as).map Prod.fst
  | .insert into none => into.columns
  | .insert into (some rows) => (columnValues into.columns (rows.head?.getD [])).map Prod.fst
  | _ => []

/-- Listed are the known columns that are assigned to, in the order of the table. -/
theorem columnsListed_eq {s : Statement} {into : Changed} (h : s.writes? = some into) :
    s.columnsListed = into.columns.filter (· ∈ s.assigned) := by
  have hall : into.columns = into.columns.filter (· ∈ into.columns) :=
    (List.filter_eq_self.mpr fun c hc => decide_eq_true hc).symm
  have hsome : ∀ as, (columnValues into.columns as).map Prod.fst =
      into.columns.filter (· ∈ as.filterMap (·.target.name?)) := by
    intro as
    rw [columnValues_eq, List.map_map]
    exact List.map_id _
  cases s with
  | update into' as filter =>
      cases h
      cases as with
      | none => exact hall
      | some as => exact hsome as
  | insert into' rows =>
      cases h
      cases rows with
      | none => exact hall
      | some rows => exact hsome _
  | _ => cases h

end Statement

/-- These columns, and no others, are what the words of a statement write to by name.  An UPDATE
sets expressions without a name and then the columns, unless it has a fault; an INSERT has what its
first row writes to in this order behind its table. -/
def Statement.WordsList (columns : List String) : Statement → Prop
  | .update into as _ =>
    ∃ (faults : List Error × List Error) (value : String → List Token),
      setTokens into as = faults.1.map .fault ++
        listed ((as.elim [] namelessValues).map
            (fun p => equated (targetTokens p.1) (operandTokens p.2)) ++
          columns.map fun c => equated [.name c] (value c)) ++ faults.2.map .fault
  | .insert into rows =>
    (insertRows into rows).columns =
      ((rows.bind List.head?).elim [] namelessValues).map (fun p => targetTokens p.1) ++
        columns.map fun c => [.name c]
  | _ => columns = []

/-- What is invalid leaves nothing but faults. -/
theorem invalidFault_faults (as : List Assignment) :
    ∃ causes : List Error, invalidFault as = causes.map .fault := by
  rw [invalidFault]
  split
  · exact ⟨[.invalidOperand], rfl⟩
  · exact ⟨[], rfl⟩

/-- What is left over leaves nothing but faults. -/
theorem leftoverFault_faults (columns : List String) (as : List Assignment) :
    ∃ causes : List Error, leftoverFault columns as = causes.map .fault := by
  rw [leftoverFault]
  split
  · exact ⟨[], rfl⟩
  · exact ⟨[.unrenderable], rfl⟩

/-- An UPDATE sets expressions without a name, then the listed columns. -/
theorem update_wordsList (into : Changed) (as : Option (List Assignment))
    (filter : Option Filter) :
    (Statement.update into as filter).WordsList
      (Statement.update into as filter).columnsListed := by
  cases as with
  | none => exact ⟨([], []), unsetTokens, (List.append_nil _).symm⟩
  | some as =>
      obtain ⟨invalid, hinvalid⟩ := invalidFault_faults as
      obtain ⟨leftover, hleftover⟩ := leftoverFault_faults into.columns as
      refine ⟨(invalid, leftover), fun c => namedTokens c ((valuesFor c as).head?.getD .null), ?_⟩
      rw [setTokens, Statement.columnsListed, columnValues_eq, List.map_map, List.map_map,
        List.map_map, hinvalid, hleftover]
      rfl

/-- An INSERT has expressions without a name before the listed columns. -/
theorem insert_wordsList (into : Changed) (rows : Option (List (List Assignment))) :
    (Statement.insert into rows).WordsList (Statement.insert into rows).columnsListed := by
  match rows with
  | none => rfl
  | some [] =>
      have hnothing : columnValues into.columns [] = [] :=
        List.filterMap_eq_nil_iff.mpr fun _ _ => rfl
      show [] = ((columnValues into.columns []).map Prod.fst).map _
      rw [hnothing]
      rfl
  | some (first :: later) =>
      rw [Statement.WordsList, Statement.columnsListed, List.map_map]
      rfl

/-- The listed columns are those that the words have. -/
theorem wordsList_columnsListed (s : Statement) : s.WordsList s.columnsListed := by
  cases s with
  | update into as filter => exact update_wordsList into as filter
  | insert into rows => exact insert_wordsList into rows
  | _ => rfl

/-! ## Columns that are named -/

/-- The values a query gives to be assigned to, for a statement of a kind. -/
def keysOf (q : Query) : Kind → List Value
  | .update => q.assignments.map Prod.fst
  | .insert => q.columns
  | _ => []

/-- A query gives values to be assigned in a statement of a kind. -/
def GivesValues (q : Query) : Kind → Prop
  | .update => q.assignments ≠ []
  | .insert => q.columns ≠ [] ∧ q.rows ≠ []
  | _ => False

/-- What a value assigns to by itself, whatever is known: a plain column, or the expression it
is. -/
def ownTarget? (v : Value) : Option Target :=
  match plainColumn? v with
  | some p => some (.column p.column)
  | none =>
    match Catalog.operand ⟨[]⟩ v with
    | .ok w => some (targetOf (.inr w))
    | .error _ => none

/-- The column a value names as a target. -/
def keyName? (v : Value) : Option String := (ownTarget? v).bind Target.name?

/-- A query names a column as a target. -/
def Names (q : Query) (kind : Kind) (column : String) : Prop :=
  ∃ v ∈ keysOf q kind, keyName? v = some column

section Reading

variable {c : Catalog} {into : Changed}

/-- A key is read as what it assigns to by itself. -/
theorem ownTarget?_of_readKey {v : Value} {key : Target ⊕ Value} (h : readKey c into v = .ok key) :
    ownTarget? v = some (targetOf key) := by
  rw [readKey] at h
  rw [ownTarget?]
  cases hplain : plainColumn? v with
  | some p =>
      rw [hplain] at h
      dsimp only at h
      split at h
      · cases h
        rfl
      · cases h
  | none =>
      rw [hplain] at h
      obtain ⟨w, hw, rfl⟩ := map_eq_ok h
      dsimp only
      rw [operand_congr hplain _ c, hw]

/-- A key assigns to the name that it is. -/
theorem name?_of_readKey {v : Value} {key : Target ⊕ Value} (h : readKey c into v = .ok key) :
    (targetOf key).name? = keyName? v := by
  rw [keyName?, ownTarget?_of_readKey h]
  rfl

/-- A cell assigns its value to its key. -/
theorem of_readCell {key : Target ⊕ Value} {v : Value} {a : Assignment}
    (h : readCell (key, v) = .ok a) :
    a.target = targetOf key ∧ ∃ w, valueOf v = .ok w ∧ a.value = exprOf w := by
  obtain ⟨w, hw, h⟩ := bind_eq_ok h
  cases key with
  | inl t =>
      cases h
      exact ⟨rfl, w, hw, rfl⟩
  | inr k =>
      obtain ⟨k', hk, h⟩ := bind_eq_ok h
      cases h
      rw [Value.asKey] at hk
      split at hk
      · cases hk
        exact ⟨rfl, w, hw, rfl⟩
      · cases hk

/-- Writing over changes values only. -/
theorem targets_assign {P : Target → Prop} {as : List Assignment} {a : Assignment}
    (has : ∀ b ∈ as, P b.target) (ha : P a.target) : ∀ b ∈ assign as a, P b.target := by
  have hbehind : ∀ b ∈ as ++ [a], P b.target := by
    intro b hb
    rcases List.mem_append.mp hb with hb | hb
    · exact has b hb
    · exact List.mem_singleton.mp hb ▸ ha
  rw [assign]
  split
  · split
    · intro b hb
      obtain ⟨b', hb', rfl⟩ := List.mem_map.mp hb
      split
      · exact has b' hb'
      · exact has b' hb'
    · exact hbehind
  · exact hbehind

/-- What holds of all targets holds of them one written over the other. -/
theorem targets_foldl_assign {P : Target → Prop} {as more : List Assignment}
    (has : ∀ b ∈ as, P b.target) (hmore : ∀ b ∈ more, P b.target) :
    ∀ b ∈ more.foldl assign as, P b.target := by
  induction more generalizing as with
  | nil => exact has
  | cons a rest ih =>
      exact ih (targets_assign has (hmore a List.mem_cons_self)) fun b hb =>
        hmore b (List.mem_cons_of_mem _ hb)

/-- What holds of all targets holds of them with all assignments made. -/
theorem targets_assignAll {P : Target → Prop} {as : List Assignment}
    (h : ∀ a ∈ as, P a.target) : ∀ a ∈ assignAll as, P a.target :=
  targets_foldl_assign (fun _ hb => absurd hb List.not_mem_nil) h

/-- What an UPDATE assigns to by name is named by one of its keys. -/
theorem names_of_readAssignments {pairs : List (Value × Value)} {as : List Assignment}
    (h : readAssignments c into pairs = .ok as) :
    ∀ a ∈ as, ∃ v ∈ pairs.map Prod.fst, a.target.name? = keyName? v := by
  obtain ⟨read, hread, h⟩ := bind_eq_ok h
  obtain ⟨as', has', h⟩ := bind_eq_ok h
  cases h
  refine targets_assignAll (P := fun t => ∃ v ∈ pairs.map Prod.fst, t.name? = keyName? v) ?_
  intro a ha
  obtain ⟨⟨key, v⟩, hkey, ha⟩ := exists_of_mapM has' ha
  obtain ⟨⟨column, w⟩, hpair, hread⟩ := exists_of_mapM hread hkey
  obtain ⟨t, ht, ha⟩ := bind_eq_ok ha
  obtain ⟨e, -, ha⟩ := bind_eq_ok ha
  cases ha
  obtain ⟨key', hkey', hread⟩ := bind_eq_ok hread
  obtain ⟨w', -, hread⟩ := bind_eq_ok hread
  cases hread
  refine ⟨column, List.mem_map_of_mem hpair, ?_⟩
  rw [of_usable ht]
  exact name?_of_readKey hkey'

/-- What a row of an INSERT assigns to by name is named by one of its columns. -/
theorem names_of_readRows {columns : List Value} {rows : List (List Value)}
    {table : List (List Assignment)} (h : readRows c into columns rows = .ok table) :
    ∀ as ∈ table, ∀ a ∈ as, ∃ v ∈ columns, a.target.name? = keyName? v := by
  obtain ⟨keys, hkeys, h⟩ := bind_eq_ok h
  obtain ⟨read, hread, h⟩ := bind_eq_ok h
  cases h
  intro as has
  obtain ⟨cells, hcells, rfl⟩ := List.mem_map.mp has
  refine targets_assignAll (P := fun t => ∃ v ∈ columns, t.name? = keyName? v) ?_
  intro a ha
  obtain ⟨row, -, hrow⟩ := exists_of_mapM hread hcells
  obtain ⟨⟨key, v⟩, hcell, ha⟩ := exists_of_mapM hrow ha
  obtain ⟨column, hcolumn, hkey⟩ := exists_of_mapM hkeys (List.of_mem_zip hcell).1
  refine ⟨column, hcolumn, ?_⟩
  rw [(of_readCell ha).1]
  exact name?_of_readKey hkey

end Reading

/-! ## Listed and named -/

/-- How a statement that writes columns comes from a query: with the values that the query gives, or
without any. -/
inductive Reads (c : Catalog) (q : Query) (into : Changed) : Kind → Statement → Prop where
  | emptyUpdate (filter : Option Filter) (h : q.assignments = []) :
      Reads c q into .update (.update into none filter)
  | update (filter : Option Filter) {as : List Assignment} (h : q.assignments ≠ [])
      (has : readAssignments c into q.assignments = .ok as) :
      Reads c q into .update (.update into (some as) filter)
  | emptyInsert (h : q.columns = [] ∨ q.rows = []) : Reads c q into .insert (.insert into none)
  | insert {table : List (List Assignment)} (hcolumns : q.columns ≠ []) (hrows : q.rows ≠ [])
      (htable : readRows c into q.columns q.rows = .ok table) :
      Reads c q into .insert (.insert into (some table))

variable {q : Query} {kind : Kind} {s : Statement} {into : Changed}

/-- A statement that writes columns writes them of the first table, as its catalog has it. -/
theorem reads_of_writes (h : readStatement q kind = .ok s) (hinto : s.writes? = some into) :
    ∃ entries, readEntries [] (tableValues q) = .ok entries ∧
      readTarget (frameWith q kind entries) kind = .ok into ∧
      Reads (frameWith q kind entries).catalog q into kind s := by
  rw [readStatement_eq, readFrame_eq_map] at h
  obtain ⟨f, hf, h⟩ := bind_eq_ok h
  obtain ⟨entries, hentries, rfl⟩ := map_eq_ok hf
  refine ⟨entries, hentries, ?_⟩
  cases kind with
  | select =>
      obtain ⟨select, -, h⟩ := bind_eq_ok h
      cases h
      cases hinto
  | update =>
      obtain ⟨target, htarget, h⟩ := bind_eq_ok h
      obtain ⟨filter, -, h⟩ := bind_eq_ok h
      split at h
      · rename_i hempty
        cases h
        cases hinto
        exact ⟨htarget, .emptyUpdate filter (List.isEmpty_iff.mp hempty)⟩
      · rename_i hsome
        obtain ⟨as, has, h⟩ := bind_eq_ok h
        cases h
        cases hinto
        exact ⟨htarget, .update filter (fun hnil => hsome (List.isEmpty_iff.mpr hnil)) has⟩
  | insert =>
      obtain ⟨target, htarget, h⟩ := bind_eq_ok h
      split at h
      · rename_i hempty
        cases h
        cases hinto
        rw [Bool.or_eq_true, List.isEmpty_iff, List.isEmpty_iff] at hempty
        exact ⟨htarget, .emptyInsert hempty⟩
      · rename_i hsome
        obtain ⟨table, htable, h⟩ := bind_eq_ok h
        cases h
        cases hinto
        rw [Bool.or_eq_true, List.isEmpty_iff, List.isEmpty_iff, not_or] at hsome
        exact ⟨htarget, .insert hsome.1 hsome.2 htable⟩
  | delete =>
      obtain ⟨target, -, h⟩ := bind_eq_ok h
      obtain ⟨filter, -, h⟩ := bind_eq_ok h
      cases h
      cases hinto

variable {c : Catalog}

/-- What is assigned to by name is named, if values are given. -/
theorem names_of_assigned (h : Reads c q into kind s) (hgives : GivesValues q kind) :
    ∀ column ∈ s.assigned, Names q kind column := by
  intro column hcolumn
  cases h with
  | emptyUpdate filter hnone => exact absurd hnone hgives
  | update filter _ has =>
      obtain ⟨a, ha, hname⟩ := List.mem_filterMap.mp hcolumn
      obtain ⟨v, hv, hkey⟩ := names_of_readAssignments has a ha
      exact ⟨v, hv, hkey.symm.trans hname⟩
  | emptyInsert hnone => exact absurd hnone (not_or.mpr hgives)
  | @insert table _ _ htable =>
      obtain ⟨a, ha, hname⟩ := List.mem_filterMap.mp hcolumn
      cases table with
      | nil => cases ha
      | cons first later =>
          obtain ⟨v, hv, hkey⟩ := names_of_readRows htable first List.mem_cons_self a ha
          exact ⟨v, hv, hkey.symm.trans hname⟩

/-- All known columns are listed, if no values are given. -/
theorem columnsListed_of_nothing (h : Reads c q into kind s) (hgives : ¬ GivesValues q kind) :
    s.columnsListed = into.columns := by
  cases h with
  | emptyUpdate filter hnone => rfl
  | update filter hsome has => exact absurd hsome hgives
  | emptyInsert hnone => rfl
  | insert hcolumns hrows htable => exact absurd ⟨hcolumns, hrows⟩ hgives

/-- **LISTED IS WHAT IS NAMED, OR ALL THAT IS KNOWN**: a statement that writes columns has words for
those that are listed.  Read from a query that gives it values, it lists only columns that the query
names as targets.  Without values it lists every column that any clause mentions of the table, each
once.  So all that is listed is named exactly if values are given, or all that is mentioned of the
table is named. -/
theorem listed_named_iff (h : readStatement q kind = .ok s) (hinto : s.writes? = some into) :
    s.WordsList s.columnsListed ∧
      (GivesValues q kind → ∀ column ∈ s.columnsListed, Names q kind column) ∧
      (¬ GivesValues q kind → s.columnsListed = into.columns ∧ into.columns.Nodup) ∧
      (∃ entries first, readEntries [] (tableValues q) = .ok entries ∧
        entries.head? = some first ∧
        ∀ column, column ∈ into.columns ↔ ∃ name, (name, column) ∈ mentioned q kind first ∧
          Catalog.root (sourceAmong entries name) = Catalog.root into.source) ∧
      ((∀ column ∈ s.columnsListed, Names q kind column) ↔
        GivesValues q kind ∨ ∀ column ∈ into.columns, Names q kind column) := by
  obtain ⟨entries, hentries, htarget, hreads⟩ := reads_of_writes h hinto
  obtain ⟨first, rest, hfirst, -, -, hnodup, hcolumns⟩ := target_columns htarget
  have hnamed (hgives : GivesValues q kind) : ∀ column ∈ s.columnsListed, Names q kind column := by
    intro column hcolumn
    rw [Statement.columnsListed_eq hinto, List.mem_filter] at hcolumn
    exact names_of_assigned hreads hgives column (of_decide_eq_true hcolumn.2)
  refine ⟨wordsList_columnsListed s, hnamed,
    fun hgives => ⟨columnsListed_of_nothing hreads hgives, hnodup⟩,
    ⟨entries, first, hentries, by rw [hfirst]; rfl, hcolumns⟩, fun hall => ?_, ?_⟩
  · by_cases hgives : GivesValues q kind
    · exact .inl hgives
    · rw [columnsListed_of_nothing hreads hgives] at hall
      exact .inr hall
  · rintro (hgives | hall)
    · exact hnamed hgives
    · intro column hcolumn
      rw [Statement.columnsListed_eq hinto, List.mem_filter] at hcolumn
      exact hall column hcolumn.1

/-- A row without values, of titles, for posts with a condition that is not written. -/
def titlesOnly : Query :=
  { tables := [(.text "posts", .null)]
    filter := [.test .and (.text "posts.id") (.text "=") (.int 1)]
    having := []
    columns := [.text "title"] }

/-- The row has a place for the column of the condition. -/
theorem condition_listed :
    ∃ s into, readStatement titlesOnly .insert = .ok s ∧ s.writes? = some into ∧
      (s.render .standard .bound).map (·.text) =
        .ok "INSERT INTO posts (id, title) VALUES (:id, :title)" ∧
      s.WordsList ["id", "title"] ∧
      s.columnsListed = ["id", "title"] ∧ ¬ Names titlesOnly .insert "id" ∧
      ¬ ∀ column ∈ s.columnsListed, Names titlesOnly .insert column := by
  obtain ⟨hwords, -, hall, -, -⟩ := @listed_named_iff titlesOnly .insert _ _ rfl rfl
  have hgives : ¬ GivesValues titlesOnly .insert := fun h => h.2 rfl
  have hid : ¬ Names titlesOnly .insert "id" := by
    rintro ⟨v, hv, hname⟩
    rw [List.mem_singleton.mp hv] at hname
    exact absurd hname (by decide)
  have hlisted := (hall hgives).1.trans (show _ = ["id", "title"] from rfl)
  exact ⟨_, _, rfl, rfl, by decide +kernel, hlisted ▸ hwords, hlisted, hid, fun hnamed =>
    hid (hnamed "id" (hlisted ▸ List.mem_cons_self))⟩

end ModelQuery.Sql
