import ModelQuery.Proofs.Sql.Apart
import ModelQuery.Proofs.Sql.Parts
import ModelQuery.Proofs.Sql.Shadowing
import ModelQuery.Sql.Text

/-!
# Counting what is selected

A count is compiled from the sources and the condition of a query alone, a SELECT of the same query
from all of its clauses.  But the selected columns have a say in what a statement lists: a table
that only they name is listed for their sake, and the catalog they are read in is one for all
clauses. So a count is one of the rows that the SELECT starts from if the columns name no tables but
those of the entries (`Countable`), and these are listed at all (`Grounded`): then both list the
same sources, joined under the same conditions, and restrict them by the same condition
(`StartsFrom`).

The words are the same as well.  What they come to may differ in the names that are generated for
queries inside a condition, which are numbered along the whole text.
-/

namespace ModelQuery.Sql

open Outcome

/-! ## What both read -/

/-- The sources and the condition of a query. -/
def readParts (q : Query) : Except Error (Option Tables × Option Filter) := do
  let f ← readFrame q .select
  return (← readTables f q, ← readFilter f.catalog q.filter)

/-- A count is read from the sources and the condition alone. -/
theorem readCount_eq_map (q : Query) :
    readCount q = (readParts q).map fun parts => .count parts.1 parts.2 := by
  rw [readCount, readParts]
  cases readFrame q .select with
  | error e => rfl
  | ok f =>
      show (readTables f q >>= _) = (readTables f q >>= _ : Except Error _).map _
      cases readTables f q with
      | error e => rfl
      | ok tables =>
          show (readFilter f.catalog q.filter >>= _) =
            (readFilter f.catalog q.filter >>= _ : Except Error _).map _
          cases readFilter f.catalog q.filter <;> rfl

/-- The words from the sources to the condition. -/
def startTokens (tables : Option Tables) (filter : Option Filter) : List Token :=
  fromTokens tables (filterSources filter) ++ whereTokens filter

/-- The words a count begins with. -/
def countHead : List Token := [.word "SELECT count(*) AS ", .name countLabel]

theorem countTokens_eq (tables : Option Tables) (filter : Option Filter) :
    countTokens tables filter = countHead ++ startTokens tables filter := by
  rw [countTokens, countHead, startTokens, List.append_assoc]

/-- The clauses of a SELECT behind its condition. -/
def Select.later (s : Select) : List Token :=
  listClause " GROUP BY " (s.groupBy.map GroupKey.tokens) ++ clauseTokens " \nHAVING " s.having ++
    listClause " ORDER BY " (s.orderBy.map sortTokens) ++
    [.limits (limitTokens s.limit) (limitTokens s.offset)]

/-! ## Queries that can be counted -/

/-- The table that a plain reference writes; an empty one is none. -/
def writtenTable? (v : Value) : Option String := do
  let table ← (← plainColumn? v).table
  if table = "" then none else some table

/-- A query of which no alias is the name of a table, whose select list holds texts, and where each
table that these write is what some entry is visible as. -/
structure Countable (q : Query) : Prop where
  apart : ∀ entries, readEntries [] (tableValues q) = .ok entries → Mentions.Apart entries
  texts : ∀ item ∈ q.select, item.1.text?.isSome ∧ (textAlias? item.2).isSome
  visible : ∀ entries, readEntries [] (tableValues q) = .ok entries →
    ∀ item ∈ q.select, ∀ table ∈ writtenTable? item.1, ∃ e ∈ entries, e.visible = .text table

/-- Entries that are apart, and are what the select list writes, make a query countable. -/
theorem Countable.of_entries {q : Query} {entries : List TableEntry}
    (hentries : readEntries [] (tableValues q) = .ok entries) (hapart : Mentions.Apart entries)
    (htexts : ∀ item ∈ q.select, item.1.text?.isSome ∧ (textAlias? item.2).isSome)
    (hvisible : ∀ item ∈ q.select, ∀ table ∈ writtenTable? item.1,
      ∃ e ∈ entries, e.visible = .text table) : Countable q := by
  have hsame : ∀ entries', readEntries [] (tableValues q) = .ok entries' → entries' = entries :=
    fun entries' h => Except.ok.inj (h.symm.trans hentries)
  exact ⟨fun entries' h => hsame entries' h ▸ hapart, htexts,
    fun entries' h => hsame entries' h ▸ hvisible⟩

/-- The select list writes no table unless the query starts from one. -/
def Grounded (q : Query) : Prop :=
  q.tables = [] → ∀ item ∈ q.select, writtenTable? item.1 = none

/-- The query as far as its rows go: they are not grouped, sorted or left out. -/
def rowsOf (q : Query) : Query :=
  { q with
    distinct := .bool false
    groupBy := []
    having := []
    orderBy := []
    limit := .null
    offset := .null }

/-- A SELECT starts from what is counted. -/
structure StartsFrom (select : Select) (tables : Option Tables) (filter : Option Filter) :
    Prop where
  sources : select.tables = tables
  condition : select.filter = filter
  /-- The words are the same, and what follows them is the clauses that are not counted. -/
  words : select.clauses = startTokens tables filter ++ select.later ∧
    countTokens tables filter = countHead ++ startTokens tables filter
  /-- With values written out the text is the same, unless names are generated both for the items
  and behind them. -/
  text : ∀ d items (p p' : Page),
    Page.tokens d .written {} (.word select.opening :: listClause " " items) = .ok p →
    Page.tokens d .written {} countHead = .ok p' →
    Token.numberlessAll d (listClause " " items) = true ∨
        Token.numberlessAll d (startTokens tables filter) = true →
    Page.WrittenAlike d p p' (startTokens tables filter)

/-! ## Items -/

section Items

variable {c : Catalog} {P : Expr → Prop}

/-- Items whose references are expressions are read, and are what their references are. -/
theorem readItems_of_operands {items : List (Value × Value)}
    (hnames : ∀ item ∈ items, (textAlias? item.2).isSome)
    (h : ∀ item ∈ items, ∃ e, c.operand item.1 = .ok (.sql e) ∧ subject (.sql e) = .ok e ∧ P e)
    (hall : P (.verbatim "*")) :
    ∃ read, readItems c items = .ok read ∧ ∀ i ∈ read, P i.expr := by
  have hitem : ∀ item ∈ items, ∃ r, readItem c item = .ok r ∧
      ∃ e, P e ∧ (r = .inl (.sql e) ∨ ∃ label, r = .inr ⟨e, label⟩) := by
    intro item hitem
    obtain ⟨e, hoperand, hsubject, he⟩ := h item hitem
    obtain ⟨a?, ha⟩ := Option.isSome_iff_exists.mp (hnames item hitem)
    rw [readItem, (givenAlias_of_text ha).1, hoperand]
    cases a? with
    | none => exact ⟨_, rfl, e, he, .inl rfl⟩
    | some a =>
        have haliased : aliasedItem item.2 (.sql e) = .ok ⟨e, some item.2⟩ := by
          show (subject (.sql e) >>= _) = _
          rw [hsubject]
          rfl
        refine ⟨.inr ⟨e, some item.2⟩, ?_, e, he, .inr ⟨some item.2, rfl⟩⟩
        show (aliasedItem item.2 (.sql e) >>= _) = _
        rw [haliased]
        rfl
  obtain ⟨read, hread, hshape⟩ := mapM_all hitem
  rw [readItems, hread]
  show ∃ final, (if read.isEmpty then _ else _) = _ ∧ _
  split
  · refine ⟨_, rfl, fun i hi => ?_⟩
    rw [List.mem_singleton.mp hi]
    exact hall
  · -- what is left to do cannot fail, and keeps the expression
    refine mapM_all fun r hr => ?_
    obtain ⟨e, he, rfl | ⟨label, rfl⟩⟩ := hshape r hr
    · exact ⟨_, rfl, he⟩
    · exact ⟨_, rfl, he⟩

end Items

/-! ## Sources -/

section Statements

variable {q q' : Query} {entries : List TableEntry} {tables : Option Tables}

/-- A reference of the select list is an expression, and what it reads are sources of entries. -/
theorem item_of_countable (h : Countable q) (hfrom : Grounded q)
    (hentries : readEntries [] (tableValues q) = .ok entries) {item : Value × Value}
    (hitem : item ∈ q.select) :
    ∃ e, (frameWith q .select entries).catalog.operand item.1 = .ok (.sql e) ∧
      subject (.sql e) = .ok e ∧
      ∀ label, ∀ s ∈ itemSources ⟨e, label⟩, q.tables ≠ [] ∧
        ∃ entry ∈ entries, s = sourceAmong entries entry.visible := by
  obtain ⟨s, hs⟩ := Option.isSome_iff_exists.mp (h.texts item hitem).1
  have hapart := h.apart entries hentries
  cases hplain : plainColumn? item.1 with
  | none =>
      obtain ⟨e, he, ⟨text, rfl⟩ | rfl⟩ :=
        operand_of_not_plain hs hplain (frameWith q .select entries).catalog
      · exact ⟨_, he, rfl, fun label s hs => nomatch hs⟩
      · exact ⟨_, he, rfl, fun label s hs => nomatch hs⟩
  | some p =>
      obtain ⟨table, column⟩ := p
      by_cases htable : ∀ t, table = some t → t = ""
      · exact ⟨_, operand_of_plain hs hplain htable _, rfl, fun label s hs => nomatch hs⟩
      · obtain ⟨t, ht⟩ := not_forall.mp htable
        obtain ⟨rfl, hne⟩ := Classical.not_imp.mp ht
        have hreference : item.1 ∈ references q :=
          mem_references (.inl (List.mem_map_of_mem hitem))
        have hwritten : writtenTable? item.1 = some t := by
          rw [writtenTable?, hplain]
          exact if_neg hne
        refine ⟨_, operand_of_apart hapart .select hreference hs hplain hne, rfl, ?_⟩
        intro label s hs
        obtain ⟨entry, hentry, hvisible⟩ := h.visible entries hentries item hitem t hwritten
        refine ⟨fun hnone => ?_, entry, hentry, ?_⟩
        · rw [hfrom hnone item hitem] at hwritten
          cases hwritten
        · rw [List.mem_singleton.mp hs, hvisible]

/-- The items of a SELECT are read, and read no source that is not listed for the entries. -/
theorem items_of_countable (h : Countable q) (hfrom : Grounded q)
    (hentries : readEntries [] (tableValues q) = .ok entries) :
    ∃ items, readItems (frameWith q .select entries).catalog q.select = .ok items ∧
      ∀ s ∈ items.flatMap itemSources, q.tables ≠ [] ∧
        ∃ entry ∈ entries, s = sourceAmong entries entry.visible := by
  obtain ⟨items, hitems, hsources⟩ := readItems_of_operands
    (c := (frameWith q .select entries).catalog)
    (P := fun e => ∀ label, ∀ s ∈ itemSources ⟨e, label⟩, q.tables ≠ [] ∧
      ∃ entry ∈ entries, s = sourceAmong entries entry.visible)
    (fun item hitem => (h.texts item hitem).2)
    (fun item hitem => item_of_countable h hfrom hentries hitem) (fun label s hs => nomatch hs)
  refine ⟨items, hitems, fun s hs => ?_⟩
  obtain ⟨i, hi, hs⟩ := List.mem_flatMap.mp hs
  exact hsources i hi i.label s hs

/-- Sources of entries add nothing to what is listed for these. -/
theorem beside_of_entries (hapart : Mentions.Apart entries)
    (hlength : entries.length = (tableValues q).length)
    (htables : readTables (frameWith q .select entries) q = .ok tables) {read : List Source}
    (hread : ∀ s ∈ read, q.tables ≠ [] ∧ ∃ e ∈ entries, s = sourceAmong entries e.visible)
    (more : List Source) : beside tables (read ++ more) = beside tables more := by
  have hjoined : (frameWith q .select entries).joined.length = q.joins.length := by
    rw [frameWith, List.length_drop, hlength, tableValues, List.length_append, List.length_map,
      Nat.add_sub_cancel_left]
  obtain ⟨hnothing, hfound⟩ := sources_of_readTables hjoined htables
  cases tables with
  | none =>
      cases read with
      | nil => rfl
      | cons s rest =>
          -- without a table nothing is read
          obtain ⟨hsome, e, he, -⟩ := hread s List.mem_cons_self
          have hnil : entries.take q.tables.length = [] := hnothing.mp rfl
          rcases List.take_eq_nil_iff.mp hnil with hzero | hempty
          · exact absurd (List.length_eq_zero_iff.mp hzero) hsome
          · rw [hempty] at he
            cases he
  | some t =>
      obtain ⟨hfirst, hjoins⟩ := hfound t rfl
      refine listNew_of_listed fun s hs => ?_
      obtain ⟨-, e, he, rfl⟩ := hread s hs
      refine ⟨?_, rfl⟩
      have hsource : ((frameWith q .select entries).catalog.entry e.visible).source =
          sourceAmong entries e.visible := entry_of_apart hapart q .select he
      rw [← List.take_append_drop q.tables.length entries, List.mem_append] at he
      rcases he with htaken | hdropped
      · have hlisted : sourceAmong entries e.visible ∈ t.first :: t.others :=
          hfirst ▸ List.mem_map.mpr ⟨e, htaken, hsource⟩
        rcases List.mem_cons.mp hlisted with heq | hother
        · exact .inl (List.mem_cons.mpr (.inl heq))
        · exact .inr hother
      · refine .inl (List.mem_cons_of_mem _ ?_)
        rw [hjoins]
        exact List.mem_map.mpr ⟨e, hdropped, hsource⟩

/-! ## The statements -/

/-- A SELECT of a countable query starts from the sources and the condition that it has. -/
theorem startsFrom_of_readSelect (h : Countable q) (hfrom : Grounded q)
    (hentries : readEntries [] (tableValues q) = .ok entries) {select : Select}
    (hselect : readSelect (frameWith q .select entries) q = .ok select) :
    StartsFrom select select.tables select.filter := by
  obtain ⟨hitems, htables, -⟩ := of_readSelect hselect
  obtain ⟨items, hitems', hsources⟩ := items_of_countable h hfrom hentries
  cases hitems.symm.trans hitems'
  have hbeside : beside select.tables select.read =
      beside select.tables (filterSources select.filter) :=
    beside_of_entries (h.apart entries hentries) (length_readEntries hentries) htables hsources _
  refine ⟨rfl, rfl, ⟨?_, countTokens_eq _ _⟩, ?_⟩
  · rw [Select.clauses, startTokens, Select.later, fromTokens, fromTokens, fromEntries,
      fromEntries, hbeside]
    simp only [List.append_assoc]
  · intro d items p p' hp hp' hnumberless
    rcases hnumberless with hhead | hstart
    · have hopening : Token.numberlessAll d (.word select.opening :: listClause " " items) = true :=
        hhead
      have hcount : Token.numberlessAll d countHead = true := rfl
      obtain ⟨t, rfl⟩ := Page.before_of_numberless hopening hp
      obtain ⟨t', rfl⟩ := Page.before_of_numberless hcount hp'
      exact Page.writtenAlike_before t t' _
    · exact Page.writtenAlike_of_numberless hstart p p'

/-- Where the sources or the condition cannot be read there is no SELECT either: its items can. -/
theorem readStatement_of_parts_error (h : Countable q) (hfrom : Grounded q) {cause : Error}
    (hparts : readParts q = .error cause) : readStatement q .select = .error cause := by
  rw [readParts, readFrame_eq_map] at hparts
  rw [readStatement_eq, readFrame_eq_map]
  cases hentries : readEntries [] (tableValues q) with
  | error e =>
      rw [hentries] at hparts
      cases hparts
      rfl
  | ok entries =>
      rw [hentries] at hparts
      obtain ⟨items, hitems, -⟩ := items_of_countable h hfrom hentries
      have hselect : readSelect (frameWith q .select entries) q = .error cause := by
        rw [readSelect, hitems]
        exact bind_error_of_pair hparts _
      show (readSelect (frameWith q .select entries) q >>= _) = _
      rw [hselect]
      rfl

/-- A SELECT that was read starts from the parts that were read. -/
theorem startsFrom_of_readStatement (h : Countable q) (hfrom : Grounded q) {filter : Option Filter}
    (hparts : readParts q = .ok (tables, filter)) {select : Select}
    (hstatement : readStatement q .select = .ok (.select select)) :
    StartsFrom select tables filter := by
  obtain ⟨f, hf, hparts⟩ := bind_eq_ok hparts
  obtain ⟨tables', htables, hparts⟩ := bind_eq_ok hparts
  obtain ⟨filter', hfilter, hparts⟩ := bind_eq_ok hparts
  cases hparts
  obtain ⟨f', hf', hstatement⟩ := bind_eq_ok hstatement
  cases hf.symm.trans hf'
  obtain ⟨select', hselect, hstatement⟩ := bind_eq_ok hstatement
  cases hstatement
  obtain ⟨-, htables', hfilter'⟩ := of_readSelect hselect
  cases htables.symm.trans htables'
  cases hfilter.symm.trans hfilter'
  rw [readFrame_eq_map] at hf
  obtain ⟨entries, hentries, rfl⟩ := map_eq_ok hf
  exact startsFrom_of_readSelect h hfrom hentries hselect

/-- The sources and the condition depend on the tables, the joins and the conditions alone. -/
theorem readParts_congr
    (hapart : ∀ entries, readEntries [] (tableValues q) = .ok entries → Mentions.Apart entries)
    (htables : q'.tables = q.tables) (hjoins : q'.joins = q.joins)
    (hfilter : q'.filter = q.filter) :
    readParts q' = readParts q := by
  have hvalues : tableValues q' = tableValues q := by
    rw [tableValues, tableValues, htables, hjoins]
  rw [readParts, readParts, readFrame_eq_map, readFrame_eq_map, hvalues]
  cases hentries : readEntries [] (tableValues q) with
  | error e => rfl
  | ok entries =>
      have hconditions (q₀ : Query) (heq : q₀.filter = q.filter) :
          ∀ v ∈ Condition.columnsAll q.filter, v ∈ references q₀ :=
        fun v hv => mem_references (.inr (.inr (.inr (.inl (heq ▸ hv)))))
      have htables' : readTables (frameWith q' .select entries) q' =
          readTables (frameWith q .select entries) q :=
        readTables_of_apart (hapart entries hentries) htables hjoins
      have hfilter' : readFilter (frameWith q' .select entries).catalog q.filter =
          readFilter (frameWith q .select entries).catalog q.filter :=
        readFilter_of_apart (hapart entries hentries) (hconditions q' hfilter) (hconditions q rfl)
      show (readTables (frameWith q' .select entries) q' >>= fun _ =>
          readFilter (frameWith q' .select entries).catalog q'.filter >>= _) = _
      rw [hfilter, htables', hfilter']
      rfl

/-- The rows alone can be selected if they can be counted. -/
theorem select_of_rows (h : Countable q) (hfrom : Grounded q) {filter : Option Filter}
    (hparts : readParts q = .ok (tables, filter)) :
    ∃ select, readStatement (rowsOf q) .select = .ok (.select select) ∧
      select.later = [.limits [] []] ∧ StartsFrom select tables filter := by
  have hrows : Countable (rowsOf q) := ⟨h.apart, h.texts, h.visible⟩
  have hsame : readParts (rowsOf q) = readParts q := readParts_congr h.apart rfl rfl rfl
  have hparts' := hsame.trans hparts
  obtain ⟨f, hf, hread⟩ := bind_eq_ok hparts'
  obtain ⟨tables', htables, hread⟩ := bind_eq_ok hread
  obtain ⟨filter', hfilter, hread⟩ := bind_eq_ok hread
  cases hread
  have hframe := hf
  rw [readFrame_eq_map] at hframe
  obtain ⟨entries, hentries, rfl⟩ := map_eq_ok hframe
  obtain ⟨items, hitems, -⟩ := items_of_countable hrows hfrom hentries
  have hselect : readSelect (frameWith (rowsOf q) .select entries) (rowsOf q) =
      .ok { items, tables, filter } := by
    rw [readSelect, hitems, htables, hfilter]
    rfl
  have hstatement : readStatement (rowsOf q) .select = .ok (.select { items, tables, filter }) := by
    rw [readStatement_eq, hf]
    show (readSelect (frameWith (rowsOf q) .select entries) (rowsOf q) >>= _) = _
    rw [hselect]
    rfl
  exact ⟨_, hstatement, rfl, startsFrom_of_readStatement hrows hfrom hparts' hstatement⟩

/-- **A COUNT AGREES WITH ITS SELECT**: of a query of which no alias is the name of a table and
whose select list names no tables but those of the entries, the SELECT and the count fail for the
same reason where the sources or the condition cannot be read.  Otherwise they start from the same,
and the rows that are counted are there to be selected.  The other clauses have no say in the
count. -/
theorem count_agrees_with_select (h : Countable q) (hfrom : Grounded q) :
    (∀ cause, readParts q = .error cause →
        readStatement q .select = .error cause ∧ readCount q = .error cause) ∧
      (∀ tables filter, readParts q = .ok (tables, filter) →
        readCount q = .ok (.count tables filter) ∧
          (∀ select, readStatement q .select = .ok (.select select) →
            StartsFrom select tables filter) ∧
          ∃ select, readStatement (rowsOf q) .select = .ok (.select select) ∧
            select.later = [.limits [] []] ∧ StartsFrom select tables filter) ∧
      ∀ q' : Query, q'.tables = q.tables → q'.joins = q.joins → q'.filter = q.filter →
        readCount q' = readCount q := by
  refine ⟨fun cause hparts => ?_, fun tables filter hparts => ?_, ?_⟩
  · refine ⟨readStatement_of_parts_error h hfrom hparts, ?_⟩
    rw [readCount_eq_map, hparts]
    rfl
  · refine ⟨?_, fun select => startsFrom_of_readStatement h hfrom hparts,
      select_of_rows h hfrom hparts⟩
    rw [readCount_eq_map, hparts]
    rfl
  · intro q' htables hjoins hfilter
    rw [readCount_eq_map, readCount_eq_map, readParts_congr h.apart htables hjoins hfilter]

/-- A table under an alias with one that is joined to it, and columns of both; the conditions and
all that follows them write further columns. -/
def viewedQuery : Query :=
  { tables := [(.text "posts", .text "p")]
    joins := [⟨.text "users", .null, .null, [⟨.text "p.author", .text "=", .text "users.id"⟩]⟩]
    select := [(.text "p.id", .null), (.text "users.name", .text "n"), (.text "count(*)", .null)]
    filter := [.test .and (.text "p.views") (.text ">") (.int 3)]
    groupBy := [.text "users.id"]
    having := [.test .and (.text "count(*)") (.text ">") (.int 1)]
    limit := .int 5 }

theorem viewed_countable : Countable viewedQuery :=
  .of_entries rfl (by decide) (by decide) (by decide)

/-- Its rows are counted without the clauses that follow the conditions. -/
theorem viewed_counted_as_selected :
    ∃ select tables filter, readStatement viewedQuery .select = .ok (.select select) ∧
      readCount viewedQuery = .ok (.count (some tables) (some filter)) ∧
      StartsFrom select (some tables) (some filter) ∧
      readCount (rowsOf viewedQuery) = readCount viewedQuery := by
  have hgrounded : Grounded viewedQuery := nofun
  obtain ⟨-, hparts, hothers⟩ := count_agrees_with_select viewed_countable hgrounded
  obtain ⟨hcount, hselect, -⟩ := hparts _ _ rfl
  exact ⟨_, _, _, rfl, hcount, hselect _ rfl, hothers _ rfl rfl rfl⟩

/-! ## Where they differ -/

/-- A table that is joined to nothing, and a column of it. -/
def joinedQuery : Query :=
  { joins := [{ table := .text "posts", asName := .null, type := .null, on := [] }]
    select := [(.text "posts.id", .null)]
    filter := []
    having := [] }

theorem joined_countable : Countable joinedQuery :=
  .of_entries rfl (by decide) (by decide) (by decide)

/-- Two columns of one name beside a query in a condition: both get numbered names. -/
def numberedQuery : Query :=
  { tables := [(.text "a", .null), (.text "b", .null)]
    select := [(.text "a.count", .null), (.text "b.count", .null)]
    filter := [.test .and (.text "a.id") (.text "IN") (.sql (.call "count" [.verbatim "*"]))]
    having := [] }

theorem numbered_countable : Countable numberedQuery :=
  .of_entries rfl (by decide) (by decide) (by decide)

/-- The text of a statement with its values written out. -/
def writtenText (s : Except Error Statement) : Except Error String := do
  return (← (← s).render .standard .written).text

/-- Without a table to join it to, a joined table is listed for the columns that are selected from
it, and so is not listed in the count; and what is numbered behind the items is numbered after
them. -/
theorem count_differs_from_select :
    Countable joinedQuery ∧ readParts joinedQuery = .ok (none, none) ∧
      (∀ select, readStatement joinedQuery .select = .ok (.select select) →
        ¬StartsFrom select none none) ∧
      writtenText (readStatement joinedQuery .select) = .ok "SELECT posts.id \nFROM posts" ∧
      writtenText (readCount joinedQuery) = .ok "SELECT count(*) AS total" ∧
    Countable numberedQuery ∧
      writtenText (readStatement numberedQuery .select) =
        .ok ("SELECT a.count, b.count AS count_1" ++
          " \nFROM a, b \nWHERE a.id IN (SELECT count(*) AS count_2)") ∧
      writtenText (readCount numberedQuery) =
        .ok ("SELECT count(*) AS total" ++
          " \nFROM a, b \nWHERE a.id IN (SELECT count(*) AS count_1)") := by
  refine ⟨joined_countable, rfl, fun select hselect hstarts => ?_, ?_, ?_, numbered_countable,
    ?_, ?_⟩
  · cases hselect
    exact absurd (congrArg List.length hstarts.words.1) (by decide)
  · decide +kernel
  · decide +kernel
  · decide +kernel
  · decide +kernel

end Statements

end ModelQuery.Sql
