import ModelQuery.Proofs.Sql.References
import ModelQuery.Proofs.Sql.Worded

/-!
# Aliases apart from tables

The catalog of a query knows the columns that any of its clauses mentions, so how one clause is read
could depend on the others.  If no alias is the name of a table, it does not: a name stands for the
same under any mentions (`entry?_of_apart`), and a reference that is mentioned is a column of what
its table stands for (`operand_of_apart`).  So two queries with the same entries read what they
share alike, whatever else they say (`alike_of_apart`, `sameEntries_of_apart`).
-/

namespace ModelQuery.Sql

open Mentions Condition

/-! ## Texts as references -/

theorem isRaw_of_star {s : String} (h : s = "*" ∨ s.toList.reverse.take 2 = ['*', '.']) :
    isRaw s = true := by
  have hmem : '*' ∈ s.toList := by
    rcases h with rfl | h
    · decide
    · have hstar : '*' ∈ s.toList.reverse.take 2 := h ▸ List.mem_cons_self
      exact List.mem_reverse.mp (List.mem_of_mem_take hstar)
  exact List.any_eq_true.mpr ⟨'*', hmem, rfl⟩

/-- A plain text is no star, no expression and no label, whichever of them is asked about first. -/
theorem textExpr_of_plain {s : String} {p : PlainColumn} (h : plainText? s = some p) (c : Catalog) :
    c.textExpr s =
      match p.table.bind fun t => if t = "" then none else c.entry? (.text t) with
      | some e => Catalog.columnOf e p.column
      | none => .ok (.column none p.column) := by
  rw [plainText?] at h
  split at h
  · cases h
  · rename_i hplain
    cases h
    rw [Bool.or_eq_true, not_or] at hplain
    have hstar : ¬ (s = "*" ∨ s.toList.reverse.take 2 = ['*', '.']) :=
      fun hstar => hplain.1 (isRaw_of_star hstar)
    exact (if_neg hstar).trans ((if_neg hplain.1).trans (if_neg hplain.2))

/-- No other text is looked up: it is taken as it is, or is a name of its own. -/
theorem textExpr_of_not_plain {s : String} (h : plainText? s = none) (c : Catalog) :
    (∃ text, c.textExpr s = .ok (.verbatim text)) ∨ c.textExpr s = .ok (.column none s) := by
  rw [plainText?] at h
  split at h
  · rename_i hother
    rw [Catalog.textExpr]
    split
    · exact .inl ⟨_, rfl⟩
    · split
      · exact .inl ⟨_, rfl⟩
      · rename_i hraw
        rw [if_pos ((Bool.or_eq_true _ _ ▸ hother).resolve_left hraw)]
        exact .inr rfl
  · cases h

theorem operand_of_text {v : Value} {s : String} (h : v.text? = some s) (c : Catalog) :
    c.operand v = (c.textExpr s).map .sql := by
  rcases Value.eq_of_text? h with rfl | rfl
  · rfl
  · rfl

theorem plainColumn?_of_text {v : Value} {s : String} (h : v.text? = some s) :
    plainColumn? v = plainText? s := by
  rw [plainColumn?, h]
  rfl

/-- Text that is not plain is verbatim, or a name without a table. -/
theorem operand_of_not_plain {v : Value} {s : String} (h : v.text? = some s)
    (hplain : plainColumn? v = none) (c : Catalog) :
    ∃ e, c.operand v = .ok (.sql e) ∧ ((∃ text, e = .verbatim text) ∨ e = .column none s) := by
  rcases textExpr_of_not_plain ((plainColumn?_of_text h).symm.trans hplain) c with ⟨text, he⟩ | he
  · exact ⟨_, by rw [operand_of_text h, he]; rfl, .inl ⟨text, rfl⟩⟩
  · exact ⟨_, by rw [operand_of_text h, he]; rfl, .inr rfl⟩

/-- A plain name without a table is a column without one. -/
theorem operand_of_plain {v : Value} {s : String} (h : v.text? = some s) {p : PlainColumn}
    (hplain : plainColumn? v = some p) (htable : ∀ t, p.table = some t → t = "") (c : Catalog) :
    c.operand v = .ok (.sql (.column none p.column)) := by
  rw [operand_of_text h, textExpr_of_plain ((plainColumn?_of_text h).symm.trans hplain)]
  cases hp : p.table with
  | none => rfl
  | some t =>
      rw [htable t hp]
      rfl

/-- A qualified name is the column of the entry that it names, if it has the column. -/
theorem operand_of_qualified {v : Value} {s : String} (h : v.text? = some s)
    {table column : String} (hplain : plainColumn? v = some ⟨some table, column⟩)
    (htable : table ≠ "") {c : Catalog} {e : CatalogEntry}
    (he : c.entry? (.text table) = some e) (hcolumn : column ∈ e.columns) :
    c.operand v = .ok (.sql (.column (some e.source) column)) := by
  rw [operand_of_text h, textExpr_of_plain ((plainColumn?_of_text h).symm.trans hplain)]
  show Except.map _ (match if table = "" then none else c.entry? (.text table) with
    | some e => Catalog.columnOf e column
    | none => .ok (.column none column)) = _
  rw [if_neg htable, he]
  show Except.map _ (Catalog.columnOf e column) = _
  rw [Catalog.columnOf, if_pos hcolumn]
  rfl

/-! ## Names among entries -/

variable {entries : List TableEntry} {q q' : Query} {kind kind' : Kind}

/-- What a name stands for among entries: the table behind it if it is an alias, else the table so
called. -/
def sourceAmong (entries : List TableEntry) (name : SourceName) : Source :=
  { name, aliasOf := (entries.foldl addEntry .empty).aliases.lookup name }

/-- Where entries are apart, a name has an entry for what it stands for, if its table is mentioned.
-/
theorem entry?_of_apart (h : Apart entries) (q : Query) (kind : Kind) (name : SourceName) :
    let m := mentions q kind entries
    Catalog.entry? (.ofMentions m) name =
      (m.columns.lookup (m.behind name)).map fun cs => ⟨sourceAmong entries name, cs⟩ := by
  intro m
  have hgrows := mentions_extend q kind entries
  rw [Catalog.entry?_ofMentions (h.sound.grows hgrows), hgrows.aliases]
  rfl

/-- An entry stands for its own source under the name it is visible by. -/
theorem source_of_apart (h : Apart entries) (q : Query) (kind : Kind) {e : TableEntry}
    (he : e ∈ entries) :
    ∃ cs, Catalog.entry? (.ofMentions (mentions q kind entries)) e.visible =
      some ⟨sourceAmong entries e.visible, cs⟩ := by
  have hgrows := mentions_extend q kind entries
  have hknown : ((mentions q kind entries).columns.lookup
      ((mentions q kind entries).behind e.visible)).isSome := by
    rw [behind, hgrows.aliases]
    cases halias : (entries.foldl addEntry .empty).aliases.lookup e.visible with
    | some table =>
        have hsound := h.sound.grows hgrows
        refine hsound.known (e.visible, table) ?_
        rw [hgrows.aliases]
        exact Assoc.mem_of_lookup halias
    | none =>
        -- so it has no alias, and its table is known by its own name
        have hvisible : e.visible = e.table := by
          cases hname : e.asName with
          | none => rw [TableEntry.visible, hname]; rfl
          | some a =>
              rw [Assoc.lookup_eq_none_iff, addEntries_aliases] at halias
              refine absurd (Assoc.mem_keys_putAll.mpr (.inl ?_)) halias
              refine List.mem_map.mpr ⟨(a, e.table), List.mem_filterMap.mpr ⟨e, he, ?_⟩, ?_⟩
              · rw [aliasOf?, hname]
                rfl
              · rw [TableEntry.visible, hname]
                rfl
        obtain ⟨cs, hcs⟩ := Option.isSome_iff_exists.mp (addEntries_tables he .empty)
        obtain ⟨more, hmore⟩ := hgrows.columns _ cs hcs
        rw [Option.getD_none, hvisible, hmore]
        rfl
  obtain ⟨cs, hcs⟩ := Option.isSome_iff_exists.mp hknown
  exact ⟨cs, by rw [entry?_of_apart h, hcs]; rfl⟩

/-- The entry under a visible name is for what the name stands for. -/
theorem entry_of_apart (h : Apart entries) (q : Query) (kind : Kind) {e : TableEntry}
    (he : e ∈ entries) :
    ((Catalog.ofMentions (mentions q kind entries)).entry e.visible).source =
      sourceAmong entries e.visible := by
  obtain ⟨cs, hcs⟩ := source_of_apart h q kind he
  rw [Catalog.entry, hcs]
  rfl

/-- A plain reference is a column of what its table stands for. -/
theorem operand_of_apart (h : Apart entries) (kind : Kind) {v : Value} (hv : v ∈ references q)
    {s : String} (hs : v.text? = some s) {table column : String}
    (hplain : plainColumn? v = some ⟨some table, column⟩) (htable : table ≠ "") :
    (Catalog.ofMentions (mentions q kind entries)).operand v =
      .ok (.sql (.column (some (sourceAmong entries (.text table))) column)) := by
  have hsound := h.sound.grows (mentions_extend q kind entries)
  obtain ⟨e, he, hcolumn⟩ := entry?_of_has hsound (mentions_reference hv hplain kind entries)
  have hoperand := operand_of_qualified hs hplain htable he hcolumn
  rw [entry?_of_apart h] at he
  obtain ⟨cs, -, rfl⟩ := Option.map_eq_some_iff.mp he
  exact hoperand

/-- A text that is no plain column is read alike in every catalog. -/
theorem textExpr_congr {s : String} (h : plainText? s = none) (c c' : Catalog) :
    c.textExpr s = c'.textExpr s := by
  rw [Catalog.textExpr, Catalog.textExpr]
  by_cases hstar : s = "*" ∨ s.toList.reverse.take 2 = ['*', '.']
  · rw [if_pos hstar, if_pos hstar]
  rw [if_neg hstar, if_neg hstar]
  by_cases hraw : isRaw s = true
  · rw [if_pos hraw, if_pos hraw]
  rw [if_neg hraw, if_neg hraw]
  by_cases hlabel : Text.holds s ':' = true
  · rw [if_pos hlabel, if_pos hlabel]
  rw [plainText?, if_neg (by rw [Bool.or_eq_true]; exact not_or.mpr ⟨hraw, hlabel⟩)] at h
  cases h

/-- What is no plain column is read alike in every catalog. -/
theorem operand_congr {v : Value} (h : plainColumn? v = none) (c c' : Catalog) :
    c.operand v = c'.operand v := by
  cases hs : v.text? with
  | none => rw [Catalog.operand.eq_def, Catalog.operand.eq_def, hs]
  | some s =>
      rw [operand_of_text hs, operand_of_text hs,
        textExpr_congr ((plainColumn?_of_text hs).symm.trans h)]

/-- What two queries with the same entries both refer to is read alike. -/
theorem alike_of_apart (h : Apart entries) (kind kind' : Kind) {vs : List Value}
    (hq : ∀ v ∈ vs, v ∈ references q) (hq' : ∀ v ∈ vs, v ∈ references q') :
    Alike (.ofMentions (mentions q kind entries)) (.ofMentions (mentions q' kind' entries)) id
      vs := by
  intro v hv
  show Catalog.operand _ v = Catalog.operand _ v
  cases hplain : plainColumn? v with
  | none => exact operand_congr hplain _ _
  | some p =>
      obtain ⟨table, column⟩ := p
      obtain ⟨s, hs, -⟩ := Option.bind_eq_some_iff.mp hplain
      by_cases htable : ∀ t, table = some t → t = ""
      · rw [operand_of_plain hs hplain htable, operand_of_plain hs hplain htable]
      · obtain ⟨t, ht⟩ := not_forall.mp htable
        obtain ⟨rfl, hne⟩ := Classical.not_imp.mp ht
        rw [operand_of_apart h kind (hq v hv) hs hplain hne,
          operand_of_apart h kind' (hq' v hv) hs hplain hne]

/-! ## Two queries -/

/-- What a query with given entries is read in. -/
def frameWith (q : Query) (kind : Kind) (entries : List TableEntry) : Frame :=
  { catalog := .ofMentions (mentions q kind entries)
    tables := entries.take q.tables.length
    joined := entries.drop q.tables.length }

/-- A frame is read from the entries of the query's tables. -/
theorem readFrame_eq_map (q : Query) (kind : Kind) :
    readFrame q kind = (readEntries [] (tableValues q)).map (frameWith q kind) := by
  rw [readFrame]
  cases readEntries [] (tableValues q) <;> rfl

/-- Two queries with the same tables, apart, have the same entries in their frames. -/
theorem sameEntries_of_apart (h : Apart entries) (htables : q.tables = q'.tables) :
    SameEntries (frameWith q kind entries) (frameWith q' kind' entries) := by
  constructor
  case tables => rw [frameWith, frameWith, htables]
  case joined => rw [frameWith, frameWith, htables]
  case sources =>
    intro e he
    have hentry : e ∈ entries := List.take_append_drop q.tables.length entries ▸ he
    exact (entry_of_apart h q kind hentry).trans (entry_of_apart h q' kind' hentry).symm

/-- Entries and the tests of their joins are read alike, whatever else is said. -/
theorem readTables_of_apart (h : Apart entries) (htables : q.tables = q'.tables)
    (hjoins : q.joins = q'.joins) :
    readTables (frameWith q kind entries) q = readTables (frameWith q' kind' entries) q' := by
  have hsides {q₀ : Query} (heq : q.joins = q₀.joins) :
      ∀ v ∈ q.joins.flatMap (fun j => j.on.flatMap fun t => [t.left, t.right]), v ∈ references q₀ :=
    fun v hv => mem_references (.inr (.inr (.inr (.inr (.inr (heq ▸ hv))))))
  have hread := readTables_map (sameEntries_of_apart h htables)
    (alike_of_apart h kind kind' (hsides rfl) (hsides hjoins))
  rw [readTables, Query.joins_mapReferences_id, ← readTables] at hread
  rw [hread, readTables, readTables, hjoins]

/-- Conditions are read alike, whatever else is said. -/
theorem readFilter_of_apart (h : Apart entries) {cs : List Condition}
    (hq : ∀ v ∈ columnsAll cs, v ∈ references q) (hq' : ∀ v ∈ columnsAll cs, v ∈ references q') :
    readFilter (frameWith q kind entries).catalog cs =
      readFilter (frameWith q' kind' entries).catalog cs := by
  have hread := readFilter_map (alike_of_apart h kind kind' hq hq')
  rw [mapColumns_id] at hread
  exact hread

end ModelQuery.Sql
