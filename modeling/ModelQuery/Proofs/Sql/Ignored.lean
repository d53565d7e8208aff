import ModelQuery.Proofs.Sql.Ordered

/-!
# Clauses that are ignored

An UPDATE carries over its assignments and conditions, an INSERT its columns and rows, a DELETE its
conditions.  But the columns that are known of the changed table come from the clauses that are
ignored as well.  What they can change by that is told here, for two queries with the same entries
whose aliases are not the names of their tables, and which agree on what is carried over: the two
statements are the same but for the columns that are known (`ignored_clauses`).

Known columns show in the words in two ways.  Listed columns stand in the order of the table, and
what is assigned to by the name of an expression must be a column of it: a statement that assigns to
an unknown name is refused.  A name that is not written as a plain column is not mentioned by
itself, so whether it is known can hang on a clause that is ignored.
-/

namespace ModelQuery.Sql

open Outcome Mentions

/-! ## The changed table -/

section Targets

variable {q q' : Query} {kind : Kind} {entries : List TableEntry} {into : Changed}

/-- A table that is known by a query which writes columns of it: each column once, and with all
those that are written plainly. -/
structure KnownBy (q : Query) (kind : Kind) (into : Changed) : Prop where
  once : into.columns.Nodup
  written : ∀ v ∈ writtenColumns q kind, ∀ p, plainColumn? v = some p → p.column ∈ into.columns

/-- If no alias is the name of a table, the changed table stands for itself. -/
theorem target_of_apart (h : Apart entries)
    (htarget : readTarget (frameWith q kind entries) kind = .ok into) :
    KnownBy q kind into ∧
      ∃ first, entries.head? = some first ∧ into.source = sourceAmong entries first.table := by
  obtain ⟨first, rest, hentries, -, hsource, hnodup, hcolumns⟩ := target_columns htarget
  have hfirst : first ∈ entries := hentries ▸ List.mem_cons_self
  have hamong : into.source = sourceAmong entries first.table := by
    rw [hsource]
    show ((Catalog.ofMentions (mentions q kind entries)).entry first.table).source = _
    rw [Catalog.entry, entry?_of_apart h]
    cases (mentions q kind entries).columns.lookup
        ((mentions q kind entries).behind first.table) with
    | some cs => rfl
    | none =>
        have hnone : (entries.foldl addEntry .empty).aliases.lookup first.table = none := by
          rw [Assoc.lookup_eq_none_iff]
          intro hkey
          obtain ⟨table, hpair⟩ := Assoc.exists_of_mem_keys hkey
          obtain ⟨e, he, halias, -⟩ := mem_aliases hpair
          exact h e he first hfirst halias
        rw [sourceAmong, hnone]
        rfl
  refine ⟨⟨hnodup, fun v hv p hplain => (hcolumns p.column).mpr ⟨first.table, ?_, ?_⟩⟩, first,
    by rw [hentries]; rfl, hamong⟩
  · refine List.mem_append_right _ (List.mem_filterMap.mpr ⟨v, hv, ?_⟩)
    rw [writtenTo?, hplain]
    rfl
  · rw [hamong]

/-- Two queries with the same tables change the same one, if they change any. -/
theorem targets_of_apart (h : Apart entries) (htables : q.tables = q'.tables) :
    Related (fun into into' => into.source = into'.source ∧ KnownBy q kind into ∧
        KnownBy q' kind into')
      (readTarget (frameWith q kind entries) kind)
      (readTarget (frameWith q' kind entries) kind) := by
  have hsame : (frameWith q' kind entries).tables = (frameWith q kind entries).tables := by
    rw [frameWith, frameWith, htables]
  cases hlist : (frameWith q kind entries).tables with
  | nil =>
      rw [readTarget, readTarget, hsame, hlist]
      exact .error _
  | cons first others =>
      have hok {q₀ : Query} (hq₀ : (frameWith q₀ kind entries).tables = first :: others) :
          ∃ into, readTarget (frameWith q₀ kind entries) kind = .ok into := by
        rw [readTarget, hq₀]
        exact ⟨_, rfl⟩
      obtain ⟨into, hinto⟩ := hok hlist
      obtain ⟨into', hinto'⟩ := hok (hsame.trans hlist)
      obtain ⟨hknown, e, he, hsource⟩ := target_of_apart h hinto
      obtain ⟨hknown', e', he', hsource'⟩ := target_of_apart h hinto'
      cases he.symm.trans he'
      rw [hinto, hinto']
      exact .ok ⟨hsource.trans hsource'.symm, hknown, hknown'⟩

end Targets

/-! ## What is carried over -/

section Carried

variable {q q' : Query} {kind : Kind} {entries : List TableEntry}

/-- Two queries agree on what a kind carries over, and give values if the kind writes columns. -/
def Agree (q q' : Query) : Kind → Prop
  | .select => q = q'
  | .update => q.filter = q'.filter ∧ q.assignments = q'.assignments ∧ q.assignments ≠ []
  | .insert => q.columns = q'.columns ∧ q.rows = q'.rows ∧ q.columns ≠ [] ∧ q.rows ≠ []
  | .delete => q.filter = q'.filter

/-- Queries that agree write the same columns. -/
theorem keysOf_of_agree (h : Agree q q' kind) : keysOf q' kind = keysOf q kind := by
  cases kind with
  | update => exact congrArg (List.map Prod.fst) h.2.1.symm
  | insert => exact h.1.symm
  | _ => rfl

theorem mem_writtenColumns {v : Value} (h : v ∈ keysOf q kind) : v ∈ writtenColumns q kind := by
  cases kind with
  | update => exact List.mem_append_right _ h
  | insert => exact List.mem_append_left _ h
  | _ => cases h

/-- A key is read alike for two tables that are known to have its column, if it is one. -/
theorem readKey_congr {c c' : Catalog} {into into' : Changed} {v : Value}
    (h : ∀ p, plainColumn? v = some p → p.column ∈ into.columns ∧ p.column ∈ into'.columns) :
    readKey c into v = readKey c' into' v := by
  rw [readKey, readKey]
  cases hplain : plainColumn? v with
  | some p =>
      obtain ⟨hmem, hmem'⟩ := h p hplain
      dsimp only
      rw [if_pos hmem, if_pos hmem']
  | none => exact congrArg (Except.map Sum.inr) (operand_congr hplain c c')

/-- Assignments depend on their keys only in how these are read. -/
theorem readAssignments_congr {c c' : Catalog} {into into' : Changed} {pairs : List (Value × Value)}
    (h : ∀ v ∈ pairs.map Prod.fst, readKey c into v = readKey c' into' v) :
    readAssignments c into pairs = readAssignments c' into' pairs := by
  have hpairs : (pairs.mapM fun p => do return (← readKey c into p.1, ← valueOf p.2)) =
      pairs.mapM fun p => do return (← readKey c' into' p.1, ← valueOf p.2) :=
    mapM_congr fun p hp => by rw [h p.1 (List.mem_map_of_mem hp)]
  show (pairs.mapM fun p => do return (← readKey c into p.1, ← valueOf p.2)) >>= _ = _
  rw [hpairs]
  rfl

/-- Rows depend on their columns only in how these are read. -/
theorem readRows_congr {c c' : Catalog} {into into' : Changed} {columns : List Value}
    (h : ∀ v ∈ columns, readKey c into v = readKey c' into' v) (rows : List (List Value)) :
    readRows c into columns rows = readRows c' into' columns rows := by
  rw [readRows, readRows, mapM_congr h]

/-- The statements are the same but for the columns that are known, which are different ones in
each. -/
structure Variant (s s' : Statement) : Prop where
  carried : ∃ columns, s' = s.withColumns columns
  assigned : s'.assigned = s.assigned
  once : s.known.Nodup
  once' : s'.known.Nodup

/-- Queries that agree, with entries apart, come to statements that differ in known columns alone,
or fail alike. -/
theorem readIn_of_apart (h : Apart entries) (htables : q.tables = q'.tables)
    (hagree : Agree q q' kind) :
    Related Variant (readIn (frameWith q kind entries) q kind)
      (readIn (frameWith q' kind entries) q' kind) := by
  have hfilter (hsame : q.filter = q'.filter) :
      readFilter (frameWith q kind entries).catalog q.filter =
        readFilter (frameWith q' kind entries).catalog q'.filter := by
    rw [← hsame]
    exact readFilter_of_apart h
      (fun v hv => mem_references (.inr (.inr (.inr (.inl hv)))))
      (fun v hv => mem_references (.inr (.inr (.inr (.inl (hsame ▸ hv))))))
  have hkeys {into into' : Changed} (hinto : KnownBy q kind into) (hinto' : KnownBy q' kind into') :
      ∀ v ∈ keysOf q kind, readKey (frameWith q kind entries).catalog into v =
        readKey (frameWith q' kind entries).catalog into' v := by
    intro v hv
    refine readKey_congr fun p hplain => ⟨?_, ?_⟩
    · exact hinto.written v (mem_writtenColumns hv) p hplain
    · have hv' : v ∈ keysOf q' kind := (keysOf_of_agree hagree).symm ▸ hv
      exact hinto'.written v (mem_writtenColumns hv') p hplain
  cases kind with
  | select =>
      rw [show q' = q from hagree.symm]
      exact .behind _ fun select => .ok ⟨⟨[], rfl⟩, rfl, List.nodup_nil, List.nodup_nil⟩
  | update =>
      obtain ⟨hsame, hassignments, hsome⟩ := id hagree
      refine (targets_of_apart h htables).bind fun into into' ⟨hsource, hinto, hinto'⟩ => ?_
      rw [hfilter hsame]
      refine .behind _ fun filter => ?_
      have hne : ¬ q.assignments.isEmpty = true := fun hempty => hsome (List.isEmpty_iff.mp hempty)
      rw [← hassignments, readAssignments_congr (hkeys hinto hinto'), if_neg hne, if_neg hne]
      refine .behind _ fun as => .ok ⟨⟨into'.columns, ?_⟩, rfl, hinto.once, hinto'.once⟩
      show Statement.update into' (some as) filter = .update ⟨into.source, into'.columns⟩ _ filter
      rw [hsource]
  | insert =>
      obtain ⟨hcolumns, hrows, hsome, hsome'⟩ := id hagree
      refine (targets_of_apart h htables).bind fun into into' ⟨hsource, hinto, hinto'⟩ => ?_
      have hne : ¬ (q.columns.isEmpty || q.rows.isEmpty) = true := by
        rw [Bool.or_eq_true, List.isEmpty_iff, List.isEmpty_iff, not_or]
        exact ⟨hsome, hsome'⟩
      have hread : readRows (frameWith q .insert entries).catalog into q.columns q.rows =
          readRows (frameWith q' .insert entries).catalog into' q.columns q.rows :=
        readRows_congr (hkeys hinto hinto') q.rows
      rw [← hcolumns, ← hrows, hread, if_neg hne, if_neg hne]
      refine .behind _ fun table => .ok ⟨⟨into'.columns, ?_⟩, rfl, hinto.once, hinto'.once⟩
      show Statement.insert into' (some table) = .insert ⟨into.source, into'.columns⟩ _
      rw [hsource]
  | delete =>
      refine (targets_of_apart h htables).bind fun into into' ⟨hsource, hinto, hinto'⟩ => ?_
      rw [hfilter hagree]
      refine .behind _ fun filter => .ok ⟨⟨into'.columns, ?_⟩, rfl, hinto.once, hinto'.once⟩
      show Statement.delete into' filter = .delete ⟨into.source, into'.columns⟩ filter
      rw [hsource]

/-! ## Two statements -/

/-- Plain keys name known columns. -/
theorem complete_of_plain {s : Statement} (hs : readStatement q kind = .ok s)
    (hapart : ∀ entries, readEntries [] (tableValues q) = .ok entries → Apart entries)
    (hplain : ∀ v ∈ keysOf q kind, (plainColumn? v).isSome) : s.Complete := by
  intro name hname
  cases hinto : s.writes? with
  | none =>
      cases s with
      | update into as filter => cases hinto
      | insert into rows => cases hinto
      | _ => cases hname
  | some into =>
      obtain ⟨entries, hentries, htarget, hreads⟩ := reads_of_writes hs hinto
      obtain ⟨hknown, -⟩ := target_of_apart (hapart entries hentries) htarget
      have hmem (hgives : GivesValues q kind) : name ∈ into.columns := by
        obtain ⟨v, hv, hkey⟩ := names_of_assigned hreads hgives name hname
        obtain ⟨p, hp⟩ := Option.isSome_iff_exists.mp (hplain v hv)
        rw [keyName?, ownTarget?, hp] at hkey
        cases hkey
        exact hknown.written v (mem_writtenColumns hv) p hp
      cases hreads with
      | emptyUpdate => exact hname
      | update filter hsome => exact hmem hsome
      | emptyInsert => exact hname
      | insert hcolumns hrows => exact hmem ⟨hcolumns, hrows⟩

/-- What two statements have in common that differ in known columns alone. -/
structure SameBut (q : Query) (kind : Kind) (s s' : Statement) : Prop where
  /-- They change the same table, assign the same, have the same rows and the same condition. -/
  carried : ∃ columns, s' = s.withColumns columns
  /-- A DELETE has the same words. -/
  deleted : kind = .delete → ∀ d, s'.tokens d = s.tokens d
  /-- Either is refused if it assigns to a name that is not known. -/
  refused : ∀ t, t = s ∨ t = s' → ∀ d mode p, Page.tokens d mode {} (t.tokens d) = .ok p → t.Complete
  /-- If neither does, the words are the same but for the order of the columns. -/
  ordered : s.Complete → s'.Complete → ∃ columns columns', columns.Perm columns' ∧ ∀ d,
    s.tokens d = (s.withColumns columns).tokens d ∧ s'.tokens d = (s.withColumns columns').tokens d
  /-- Then the one has a fault exactly if the other has it. -/
  words : s.Complete → s'.Complete → ∀ d, (s.tokens d).Perm (s'.tokens d)
  /-- Neither does if all keys are written plainly. -/
  plain : (∀ v ∈ keysOf q kind, (plainColumn? v).isSome) → s.Complete ∧ s'.Complete

/-- Of complete statements the same columns are assigned to, so they are listed in another order at
most. -/
theorem Variant.ordered {s s' : Statement} (h : Variant s s') (hs : s.Complete)
    (hs' : s'.Complete) : ∃ columns columns', columns.Perm columns' ∧ ∀ d,
      s.tokens d = (s.withColumns columns).tokens d ∧
        s'.tokens d = (s.withColumns columns').tokens d := by
  obtain ⟨columns, hcolumns⟩ := h.carried
  have hmem {t : Statement} (ht : t.Complete) (name : String) :
      name ∈ t.known.filter (· ∈ t.assigned) ↔ name ∈ t.assigned := by
    rw [List.mem_filter, decide_eq_true_iff]
    exact ⟨fun hname => hname.2, fun hname => ⟨ht name hname, hname⟩⟩
  refine ⟨s.known.filter (· ∈ s.assigned), s'.known.filter (· ∈ s'.assigned), ?_, fun d => ?_⟩
  · refine (List.perm_ext_iff_of_nodup (h.once.filter _) (h.once'.filter _)).mpr fun name => ?_
    rw [hmem hs, hmem hs', h.assigned]
  · refine ⟨(tokens_filter s d).symm, (tokens_filter s' d).symm.trans ?_⟩
    rw [hcolumns, Statement.withColumns_withColumns]

/-- Complete statements that differ in known columns alone have the same words, in some order. -/
theorem Variant.words {s s' : Statement} (h : Variant s s') (hs : s.Complete) (hs' : s'.Complete)
    (d : Dialect) : (s.tokens d).Perm (s'.tokens d) := by
  obtain ⟨columns, columns', hperm, hwords⟩ := h.ordered hs hs'
  rw [(hwords d).1, (hwords d).2]
  exact tokens_perm hperm s d

/-- **IGNORED CLAUSES CHANGE NOTHING BUT WHAT IS KNOWN**: two queries with the same tables and the
same joined tables, under the same aliases, none of which is the name of a table, that agree on what
a kind carries over, are refused alike, or give statements that are the same but for the columns
that are known of the changed table. -/
theorem ignored_clauses (htables : q.tables = q'.tables)
    (hjoined : q.joins.map (fun j => (j.table, j.asName)) =
      q'.joins.map fun j => (j.table, j.asName))
    (hapart : ∀ entries, readEntries [] (tableValues q) = .ok entries → Apart entries)
    (hagree : Agree q q' kind) :
    Related (SameBut q kind) (readStatement q kind) (readStatement q' kind) := by
  have hvalues : tableValues q' = tableValues q := by
    rw [tableValues, tableValues, htables, hjoined]
  have hread : Related Variant (readStatement q kind) (readStatement q' kind) := by
    rw [readStatement_eq, readStatement_eq, readFrame_eq_map, readFrame_eq_map, hvalues]
    cases hentries : readEntries [] (tableValues q) with
    | error e => exact .error e
    | ok entries => exact readIn_of_apart (hapart entries hentries) htables hagree
  refine hread.with_results.imp fun s s' ⟨hs, hs', hvariant⟩ => ?_
  constructor
  case carried => exact hvariant.carried
  case deleted =>
    rintro rfl d
    obtain ⟨columns, rfl⟩ := hvariant.carried
    rw [readStatement_eq] at hs
    obtain ⟨f, -, hs⟩ := bind_eq_ok hs
    obtain ⟨into, -, hs⟩ := bind_eq_ok hs
    obtain ⟨filter, -, hs⟩ := bind_eq_ok hs
    cases hs
    rfl
  case refused =>
    rintro t - d mode p hp
    exact Statement.complete_of_written hp
  case ordered => exact hvariant.ordered
  case words => exact hvariant.words
  case plain =>
    intro hplain
    refine ⟨complete_of_plain hs hapart hplain, complete_of_plain hs' (hvalues ▸ hapart) ?_⟩
    rw [keysOf_of_agree hagree]
    exact hplain

/-- The titles of all posts are set, by a quoted name. -/
def quotedTitles : Query :=
  { tables := [(.text "posts", .null)]
    filter := []
    having := []
    assignments := [(.text "\"title\"", .int 3)] }

/-- The same, beside a selection. -/
def selectedTitles : Query := { quotedTitles with select := [(.text "posts.title", .null)] }

/-- The titles can be set as soon as they are selected, which an UPDATE ignores. -/
theorem titles_known_if_selected :
    ∃ s s', readStatement quotedTitles .update = .ok s ∧
      readStatement selectedTitles .update = .ok s' ∧
      SameBut quotedTitles .update s s' ∧ ¬ s.Complete ∧ s'.Complete ∧
      (∀ d mode p, Page.tokens d mode {} (s.tokens d) ≠ .ok p) ∧
      (s'.render .standard .written).map (·.text) = .ok "UPDATE posts SET title=3" := by
  have hapart : ∀ entries, readEntries [] (tableValues quotedTitles) = .ok entries →
      Apart entries := by
    intro entries hentries
    cases hentries
    decide
  have hsame := @ignored_clauses quotedTitles selectedTitles .update rfl rfl hapart
    ⟨rfl, rfl, List.cons_ne_nil _ _⟩
  obtain ⟨s, s', hs, hs', hsame⟩ : ∃ s s', readStatement quotedTitles .update = .ok s ∧
      readStatement selectedTitles .update = .ok s' ∧ SameBut quotedTitles .update s s' := by
    cases hsame with
    | ok h => exact ⟨_, _, rfl, rfl, h⟩
  have hunknown : ¬ s.Complete := by
    cases hs
    rw [Statement.Complete]
    decide +kernel
  refine ⟨s, s', hs, hs', hsame, hunknown, ?_, fun d mode p hp => ?_, ?_⟩
  · cases hs'
    rw [Statement.Complete]
    decide +kernel
  · exact hunknown (hsame.refused s (.inl rfl) d mode p hp)
  · cases hs'
    decide +kernel

end Carried

end ModelQuery.Sql
