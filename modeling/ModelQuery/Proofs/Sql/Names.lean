import ModelQuery.Proofs.Sql.Apart
import ModelQuery.Proofs.Sql.Assigned

/-!
# Names and what they stand for

The catalog of a query is made in one pass over its texts and asked in another, which looks at the
texts anew.  If all its names are texts, and its aliases cannot be taken for each other or for a
table, both passes agree (`names_found`): every table, every alias and every column that is asked
for is there, a plain reference is a column of what its qualifier stands for, and what an INSERT or
UPDATE writes are columns of the first table.
-/

namespace ModelQuery.Sql

/-! ## All names of a query -/

/-- A plain reference with a table as the column it refers to; all else stays what it is. -/
def bindTo (names : List (String × Option String)) (v : Value) : Value :=
  match plainColumn? v with
  | some ⟨some table, column⟩ =>
    if table = "" then v else .sql (.column (some (sourceOf names table)) column)
  | _ => v

/-- What a query with a frame finds under the names in it. -/
structure Found (q : Query) (names : List (String × Option String)) (kind : Kind) (f : Frame) :
    Prop where
  entries : f.tables ++ f.joined = names.map entryOf
  /-- Every table entry is found under the name it is visible by. -/
  tables : ∀ e ∈ f.tables ++ f.joined, ∃ cs, f.catalog.entry? e.visible = some ⟨e.source, cs⟩
  /-- Every reference is read. -/
  references : ∀ v ∈ references q, ∃ e, f.catalog.operand v = .ok (.sql e)
  /-- A plain one with a table is the column it writes, of what its table stands for. -/
  qualified : ∀ v ∈ Sql.references q, ∀ table column,
    plainColumn? v = some ⟨some table, column⟩ → table ≠ "" →
    f.catalog.operand v = .ok (.sql (.column (some (sourceOf names table)) column))
  /-- In the statement these columns stand in the places of the references. -/
  statement : readStatement q kind = readIn f (q.mapReferences (bindTo names)) kind
  count : kind = .select → readCount q = countIn f (q.mapReferences (bindTo names))
  /-- What is changed is the first table, even where it has an alias, and it has every plain column
  that is written; no other written text is looked up. -/
  written : ∀ into, readTarget f kind = .ok into →
    ∃ first, f.tables.head? = some first ∧
      into.source = { name := first.table, aliasOf := none } ∧
      f.catalog.entry? first.table = some ⟨into.source, into.columns⟩ ∧
      ∀ v ∈ writtenColumns q kind,
        (∀ p, plainColumn? v = some p →
          readKey f.catalog into v = .ok (.inl (.column p.column)) ∧ p.column ∈ into.columns) ∧
        ∀ s, v.text? = some s → ∃ key, readKey f.catalog into v = .ok key
  /-- A statement that can be written assigns to columns of that table only. -/
  assigned : ∀ s d mode p, readStatement q kind = .ok s →
    Page.tokens d mode {} (s.tokens d) = .ok p →
    ∀ name ∈ s.assigned, ∃ into, readTarget f kind = .ok into ∧ name ∈ into.columns

section Found

variable {q : Query} {names : List (String × Option String)}

/-- A name among the entries stands for the table behind it. -/
theorem sourceAmong_text (h : Worded q names) (name : String) :
    sourceAmong (names.map entryOf) (.text name) = sourceOf names name := by
  rw [sourceOf, ← lookup_named h]
  rfl

/-- The table of an entry stands for itself. -/
theorem sourceOf_table (h : Worded q names) {table : String} {asName : Option String}
    (hname : (table, asName) ∈ names) :
    sourceOf names table = { name := .text table, aliasOf := none } := by
  have hnone : (aliases names).lookup table = none :=
    Assoc.lookup_eq_none_iff.mpr fun hkey => h.apart table hkey (List.mem_map_of_mem hname)
  rw [sourceOf, hnone]
  rfl

/-- The table of an entry is known, and stands for itself. -/
theorem entry?_table (h : Worded q names) (kind : Kind) {table : String} {asName : Option String}
    (hname : (table, asName) ∈ names) :
    let m := mentions q kind (names.map entryOf)
    m.behind (.text table) = .text table ∧ ∃ cs, m.columns.lookup (.text table) = some cs := by
  intro m
  have hgrows := mentions_extend q kind (names.map entryOf)
  constructor
  · have halias : ((names.map entryOf).foldl Mentions.addEntry .empty).aliases.lookup (.text table) =
        none := congrArg Source.aliasOf ((sourceAmong_text h table).trans (sourceOf_table h hname))
    rw [Mentions.behind, hgrows.aliases, halias]
    rfl
  · have hentry : entryOf (table, asName) ∈ names.map entryOf := List.mem_map_of_mem hname
    obtain ⟨cs, hcs⟩ := Option.isSome_iff_exists.mp (Mentions.addEntries_tables hentry .empty)
    obtain ⟨more, hmore⟩ := hgrows.columns _ cs hcs
    exact ⟨cs ++ more, hmore⟩

/-- Every entry is found by the name under which it is visible. -/
theorem entry?_visible (h : Worded q names) (kind : Kind) {name : String × Option String}
    (hname : name ∈ names) :
    ∃ cs, Catalog.entry? (.ofMentions (mentions q kind (names.map entryOf))) (entryOf name).visible =
      some ⟨(entryOf name).source, cs⟩ := by
  have hsource : sourceAmong (names.map entryOf) (entryOf name).visible = (entryOf name).source := by
    obtain ⟨table, asName⟩ := name
    cases asName with
    | none => exact (sourceAmong_text h table).trans (sourceOf_table h hname)
    | some a =>
        have hlookup : (aliases names).lookup a = some table :=
          Assoc.lookup_of_mem h.once (List.mem_filterMap.mpr ⟨(table, some a), hname, rfl⟩)
        refine (sourceAmong_text h a).trans ?_
        rw [sourceOf, hlookup]
        rfl
  rw [← hsource]
  exact source_of_apart (apart_entries h) q kind (List.mem_map_of_mem hname)

/-- A qualified reference is the column of the table that its name stands for. -/
theorem operand_reference (h : Worded q names) (kind : Kind) {v : Value} (hv : v ∈ references q)
    {table column : String} (hplain : plainColumn? v = some ⟨some table, column⟩)
    (htable : table ≠ "") :
    (Catalog.ofMentions (mentions q kind (names.map entryOf))).operand v =
      .ok (.sql (.column (some (sourceOf names table)) column)) := by
  obtain ⟨s, hs⟩ := h.references v hv
  rw [← sourceAmong_text h, operand_of_apart (apart_entries h) kind hv hs hplain htable]

/-- Every reference is an operand. -/
theorem operand_isOk (h : Worded q names) (kind : Kind) {v : Value} (hv : v ∈ references q) :
    ∃ e, (Catalog.ofMentions (mentions q kind (names.map entryOf))).operand v = .ok (.sql e) := by
  obtain ⟨s, hs⟩ := h.references v hv
  cases hplain : plainColumn? v with
  | none =>
      obtain ⟨e, he, -⟩ := operand_of_not_plain hs hplain _
      exact ⟨e, he⟩
  | some p =>
      obtain ⟨table, column⟩ := p
      cases table with
      | none => exact ⟨_, operand_of_plain hs hplain nofun _⟩
      | some table =>
          by_cases htable : table = ""
          · exact ⟨_, operand_of_plain hs hplain (fun t ht => (Option.some.inj ht).symm.trans htable) _⟩
          · exact ⟨_, operand_reference h kind hv hplain htable⟩

/-- What stands in the place of a reference is read as the reference. -/
theorem alike_bindTo (h : Worded q names) (kind : Kind) :
    Alike (.ofMentions (mentions q kind (names.map entryOf)))
      (.ofMentions (mentions q kind (names.map entryOf))) (bindTo names) (references q) := by
  intro v hv
  rw [bindTo]
  split
  · rename_i table column hplain
    split
    · rfl
    · rename_i htable
      exact (operand_reference h kind hv hplain htable).symm
  · rfl

/-- The frame of a query by its names. -/
def frameOf (q : Query) (names : List (String × Option String)) (kind : Kind) : Frame :=
  { catalog := .ofMentions (mentions q kind (names.map entryOf))
    tables := (names.map entryOf).take q.tables.length
    joined := (names.map entryOf).drop q.tables.length }

theorem frameOf_entries (q : Query) (names : List (String × Option String)) (kind : Kind) :
    (frameOf q names kind).tables ++ (frameOf q names kind).joined = names.map entryOf :=
  List.take_append_drop _ _

/-- This frame is what is read. -/
theorem readFrame_eq (h : Worded q names) (kind : Kind) :
    readFrame q kind = .ok (frameOf q names kind) := by
  rw [readFrame, readEntries_of_text h.entries]
  rfl

/-- What is written is the first entry. -/
theorem readTarget_of_entry {f : Frame} {first : TableEntry} {others : List TableEntry}
    (htables : f.tables = first :: others) {e : CatalogEntry}
    (he : f.catalog.entry? first.table = some e) (kind : Kind) :
    readTarget f kind = .ok ⟨e.source, e.columns⟩ := by
  have hentry : f.catalog.entry first.table = e := by
    rw [Catalog.entry, he]
    rfl
  rw [readTarget, htables]
  dsimp only
  rw [hentry]

/-- What is written is the table of the first entry, of which each plain column that is written is
known. -/
theorem target_found (h : Worded q names) {kind : Kind} {into : Changed}
    (hinto : readTarget (frameOf q names kind) kind = .ok into) :
    ∃ first, (frameOf q names kind).tables.head? = some first ∧
      into.source = { name := first.table, aliasOf := none } ∧
      Catalog.entry? (frameOf q names kind).catalog first.table =
        some ⟨into.source, into.columns⟩ ∧
      ∀ v ∈ writtenColumns q kind, ∀ p, plainColumn? v = some p → p.column ∈ into.columns := by
  cases htables : (frameOf q names kind).tables with
  | nil =>
      rw [readTarget, htables] at hinto
      cases hinto
  | cons first others =>
      have hentries : names.map entryOf = first :: (others ++ (frameOf q names kind).joined) := by
        rw [← List.cons_append, ← htables, frameOf_entries]
      have hnonempty : q.tables ≠ [] := by
        intro hnil
        rw [frameOf, hnil] at htables
        cases htables
      have hfirst : first ∈ names.map entryOf := hentries ▸ List.mem_cons_self
      obtain ⟨⟨table, asName⟩, hname, rfl⟩ := List.mem_map.mp hfirst
      obtain ⟨hbehind, cs, hcs⟩ := entry?_table h kind hname
      have hentry : Catalog.entry? (frameOf q names kind).catalog (.text table) =
          some ⟨{ name := .text table, aliasOf := none }, cs⟩ := by
        rw [frameOf, entry?_of_apart (apart_entries h), hbehind, hcs, sourceAmong_text h,
          sourceOf_table h hname]
        rfl
      have hchanged : into = ⟨{ name := .text table, aliasOf := none }, cs⟩ :=
        Except.ok.inj (hinto.symm.trans (readTarget_of_entry htables hentry kind))
      subst hchanged
      refine ⟨_, rfl, rfl, hentry, fun v hv p hplain => ?_⟩
      -- it was mentioned as a column of the first table, which stands for itself
      have hhas : (mentions q kind (names.map entryOf)).Has (.text table) p.column := by
        rw [hentries]
        exact mentions_written hv hplain hnonempty
      obtain ⟨cs', hcs', hcolumn⟩ := hhas
      rw [hbehind, hcs] at hcs'
      cases hcs'
      exact hcolumn

/-- A plain key is a column, if it is known. -/
theorem readKey_of_plain {v : Value} {p : PlainColumn} (h : plainColumn? v = some p)
    {into : Changed} (hcolumn : p.column ∈ into.columns) (c : Catalog) :
    readKey c into v = .ok (.inl (.column p.column)) := by
  rw [readKey, h]
  exact if_pos hcolumn

/-- Text that is no plain column is a key, too. -/
theorem readKey_of_not_plain {v : Value} {s : String} (hs : v.text? = some s)
    (h : plainColumn? v = none) (c : Catalog) (into : Changed) :
    ∃ key, readKey c into v = .ok key := by
  obtain ⟨e, he, -⟩ := operand_of_not_plain hs h c
  exact ⟨.inr (.sql e), by rw [readKey, h, he]; rfl⟩

/-- **NAMES ARE FOUND**: a query whose names are texts, no alias of which is given twice or is the
name of a table beside it, finds whatever it names in its own catalog. -/
theorem names_found (h : Worded q names) (kind : Kind) :
    ∃ f, readFrame q kind = .ok f ∧ Found q names kind f := by
  obtain ⟨hstatement, hcount⟩ := @readIn_mapReferences (bindTo names) (frameOf q names kind) q
    (alike_bindTo h kind) kind
  refine ⟨frameOf q names kind, readFrame_eq h kind, ?_⟩
  constructor
  case entries => exact frameOf_entries q names kind
  case tables =>
    intro e he
    rw [frameOf_entries] at he
    obtain ⟨name, hname, rfl⟩ := List.mem_map.mp he
    exact entry?_visible h kind hname
  case references => exact fun v hv => operand_isOk h kind hv
  case qualified =>
    exact fun v hv table column hplain htable => operand_reference h kind hv hplain htable
  case statement =>
    rw [readStatement_eq, readFrame_eq h]
    exact hstatement.symm
  case count =>
    rintro rfl
    rw [readCount_eq, readFrame_eq h]
    exact hcount.symm
  case written =>
    intro into hinto
    obtain ⟨first, hfirst, hsource, hentry, hcolumns⟩ := target_found h hinto
    refine ⟨first, hfirst, hsource, hentry, fun v hv => ⟨fun p hplain => ?_, fun s hs => ?_⟩⟩
    · have hcolumn := hcolumns v hv p hplain
      exact ⟨readKey_of_plain hplain hcolumn _, hcolumn⟩
    · cases hplain : plainColumn? v with
      | none => exact readKey_of_not_plain hs hplain _ into
      | some p => exact ⟨_, readKey_of_plain hplain (hcolumns v hv p hplain) _⟩
  case assigned =>
    intro s d mode p hs hp name hname
    rw [readStatement_eq, readFrame_eq h] at hs
    exact assigned_of_written hs hp hname

/-- A table under an alias, called by both; a joined one under its own name, one that is only
mentioned, a label, an expression and a column of no table. -/
def renamedQuery : Query :=
  { tables := [(.text "posts", .text "p")]
    joins := [⟨.text "users", .text "", .null, [⟨.text "p.author", .text "=", .text "users.id"⟩]⟩]
    select := [(.text "p:author", .null), (.text "count(*)", .text "n"), (.text "tags.name", .null)]
    filter := [.test .and (.text "posts.id") (.text "=") (.int 1)]
    having := []
    orderBy := [(.text "title", .null)]
    assignments := [(.text "tags.title", .text "new"), (.text "p.views", .int 0)] }

theorem renamed_worded : Worded renamedQuery [("posts", some "p"), ("users", none)] where
  entries := rfl
  references := by
    intro v hv
    simp only [references, renamedQuery, Condition.columnsAll, Condition.columns, List.map_cons,
      List.map_nil, List.flatMap_cons, List.flatMap_nil, List.cons_append, List.nil_append,
      List.append_nil, List.mem_cons, List.not_mem_nil, or_false] at hv
    rcases hv with rfl | rfl | rfl | rfl | rfl | rfl | rfl <;> exact ⟨_, rfl⟩
  once := by decide
  apart := by decide

/-- In an UPDATE the alias stands for its table, the table for itself, and both written columns are
columns of the table, though one is written as another's. -/
theorem renamed_names_found :
    ∃ f into, readFrame renamedQuery .update = .ok f ∧
      f.catalog.operand (.text "p.author") =
        .ok (.sql (.column (some { name := .text "p", aliasOf := some (.text "posts") }) "author")) ∧
      f.catalog.operand (.text "posts.id") =
        .ok (.sql (.column (some { name := .text "posts", aliasOf := none }) "id")) ∧
      f.catalog.operand (.text "tags.name") =
        .ok (.sql (.column (some { name := .text "tags", aliasOf := none }) "name")) ∧
      readTarget f .update = .ok into ∧
      into = ⟨{ name := .text "posts", aliasOf := none }, ["id", "author", "title", "views"]⟩ ∧
      readKey f.catalog into (.text "tags.title") = .ok (.inl (.column "title")) := by
  obtain ⟨f, hf, hfound⟩ := names_found renamed_worded .update
  have hframe := hf
  cases hf
  refine ⟨_, _, hframe, ?_, ?_, ?_, rfl, ?_, ?_⟩
  · exact hfound.qualified _ (by simp [references, renamedQuery]) "p" "author" rfl (by decide)
  · exact hfound.qualified _ (by simp [references, renamedQuery, Condition.columnsAll,
      Condition.columns]) "posts" "id" rfl (by decide)
  · exact hfound.qualified _ (by simp [references, renamedQuery]) "tags" "name" rfl (by decide)
  · rfl
  · obtain ⟨first, -, -, -, hwritten⟩ := hfound.written _ rfl
    exact ((hwritten (.text "tags.title") (by simp [writtenColumns, renamedQuery])).1 _ rfl).1

end Found

end ModelQuery.Sql
