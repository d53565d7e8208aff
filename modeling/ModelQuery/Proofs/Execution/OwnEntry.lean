import ModelQuery.Proofs.Execution.Canonical
import ModelQuery.Proofs.Query.Columns
import ModelQuery.Proofs.Query.Spellings
import ModelQuery.Proofs.Sql.Gained

/-!
# The entry of the canonical model

A field of the canonical model is resolved to a column of the model's table, by the name of the
table.  Resolution knows no aliases, while an entry with an alias is visible under that alias alone.
So the column is one of an entry exactly if some entry is visible under the name of the table, and a
SELECT that selects or tests the field gains the table exactly if none is
(`own_columns_listed_iff`).

An entry is visible so whenever the canonical model was met without an alias: if the builder was
made for the model, or was given its table plainly.
-/

namespace ModelQuery

open Outcome Step

namespace Sql

/-! ## Columns by the name of a table -/

/-- What becomes of a reference to a column of a table in a query, and in the SELECT it is read
as. -/
structure ByTable (q : Query) (f : Frame) (table column : String) (v : Value) : Prop where
  /-- It is read as a column of what the name of the table stands for among the entries. -/
  read : ReadAs f.catalog v (.column (some (sourceAmong f.entries (.text table))) column)
  /-- The SELECT lists this for its entries exactly if one of them is visible under the name. -/
  listed : ∀ select, readSelect f q = .ok select →
    (sourceAmong f.entries (.text table) ∈ select.listed ↔ f.Shows (.text table))
  /-- It gains this exactly if it reads it and no entry is visible so. -/
  gained : ∀ select, readSelect f q = .ok select →
    (sourceAmong f.entries (.text table) ∈ select.gained ↔
      sourceAmong f.entries (.text table) ∈ select.read ∧ ¬f.Shows (.text table))
  /-- Then the name stands for the table itself. -/
  unseen : ¬f.Shows (.text table) →
    sourceAmong f.entries (.text table) = (Builder.bareEntry table).source
  /-- What is gained has its words in the FROM clause, behind those of the entries. -/
  words : ∀ select, readSelect f q = .ok select →
    fromEntries select.tables select.read =
      fromEntries select.tables [] ++ select.gained.map sourceTokens

section ByTable

variable {q : Query} {kind : Kind} {f : Frame} {table column : String} {v : Value}

/-- Under a table's name alone, a readable column is sought in the table itself. -/
theorem byTable_of_unchained (hf : readFrame q kind = .ok f) (htables : q.tables ≠ [])
    (hname : Unchained f.entries (.text table)) (hv : v ∈ references q)
    (htext : v.text? = some (table ++ "." ++ column)) (hreadable : Readable table column) :
    ByTable q f table column v := by
  have hplain : plainColumn? v = some ⟨some table, column⟩ :=
    (plainColumn?_of_text htext).trans hreadable.plainText?
  have hlisted := fun select => @mem_listed_iff q kind f select _ hf htables hname
  refine ⟨?_, hlisted, fun select h => ?_, fun hunseen => ?_, fun select _ => select.fromEntries_eq⟩
  · rw [readAs_iff, (of_readFrame hf).1]
    exact operand_of_unchained hname kind hv htext hplain hreadable.named
  · rw [Select.mem_gained_iff rfl, hlisted select h]
  · exact sourceAmong_of_unseen fun e he hvisible => hunseen ⟨e, he, hvisible⟩

/-- An entry that is given without an alias is visible under the name of its table. -/
theorem mem_of_plain {earlier : List Value} {values : List (Value × Value)}
    {entries : List TableEntry} (h : readEntries earlier values = .ok entries)
    {name asName : Value} (hname : (name, asName) ∈ values) (htext : name.text? = some table)
    (hplain : asName.isTrue = .ok false) : Builder.bareEntry table ∈ entries := by
  induction values generalizing earlier entries with
  | nil => cases hname
  | cons value rest ih =>
      obtain ⟨⟨e, names⟩, he, h⟩ := bind_eq_ok h
      obtain ⟨es, hes, h⟩ := bind_eq_ok h
      cases h
      rcases List.mem_cons.mp hname with rfl | hrest
      · have hentry : readEntry earlier (name, asName) =
            .ok (Builder.bareEntry table, earlier ++ [name]) := by
          have hnone : givenAlias asName = .ok none := by
            rw [givenAlias, hplain]
            rfl
          rw [readEntry]
          show (sourceName earlier name >>= fun _ => givenAlias asName >>= _) = _
          rw [sourceName_of_text htext, hnone]
          rfl
        cases hentry.symm.trans he
        exact List.mem_cons_self
      · exact List.mem_cons_of_mem _ (ih hes hrest)

/-! ## Queries of entries alone -/

/-- The query says nothing but its entries, and joins them in ways there are. -/
structure OnlyEntries (q : Query) : Prop where
  joins : ∀ j ∈ q.joins, j.on = [] ∧ ∃ kind, joinKind j.type = .ok kind
  others : q = { tables := q.tables, joins := q.joins, filter := [], having := [] }

/-- With one column selected it becomes a SELECT, as soon as the column is read. -/
theorem OnlyEntries.select_isOk (h : OnlyEntries q) {e : Expr} (hread : ReadAs f.catalog v e) :
    ∃ select, readSelect f { q with select := [(v, .null)] } = .ok select := by
  have hjoins : ∀ pair ∈ q.joins.zip f.joined, ∃ item,
      readJoin f.catalog pair.1 pair.2 = .ok item := by
    intro pair hpair
    obtain ⟨hon, kind, hkind⟩ := h.joins pair.1 (List.of_mem_zip hpair).1
    rw [readJoin, hkind, hon]
    exact ⟨_, rfl⟩
  obtain ⟨joins, hjoins⟩ := mapM_isOk hjoins
  obtain ⟨tables, htables⟩ :
      ∃ tables, readTables f { q with select := [(v, .null)] } = .ok tables := by
    rw [readTables]
    split
    · exact ⟨_, rfl⟩
    · rw [hjoins]
      exact ⟨_, rfl⟩
  have hitems : readItems f.catalog [(v, .null)] = .ok [⟨e, none⟩] := by
    rw [readItems, List.mapM_cons, hread.item]
    rfl
  rw [h.others] at htables ⊢
  rw [readSelect, hitems, htables]
  exact ⟨_, rfl⟩

end ByTable

end Sql

namespace Session

open Sql

/-! ## Models that were met plainly -/

/-- A builder that was made for something and given tables met a model without an alias: it was made
for the model, or for a table of it with an alias that is none, or was given such a table. -/
inductive MetPlainly (registry : Registry) (model : Value) (given : List (Value × Value))
    (m : Model) : Prop where
  | made (h : registry.lookup? model = some m)
  | opened {table asName : Value} (hmodel : registry.lookup? model = none)
      (h : model.aliased = .ok (table, asName)) (hfound : registry.lookup? table = some m)
      (hplain : asName.isTrue = .ok false)
  | given {table asName : Value} (h : (table, asName) ∈ given)
      (hfound : registry.lookup? table = some m) (hplain : asName.isTrue = .ok false)

variable {registry : Registry} {model kind : Value} {k : Kind} {b : Builder} {m : Model}

/-- A registered model is entered by the name of its table. -/
theorem text?_entered {table : Value} (h : registry.lookup? table = some m) (asName : Value) :
    (Builder.entered registry (table, asName)).1.text? = some m.table := by
  show (Scope.table ⟨registry, none⟩ table).text? = _
  rw [Scope.table, h]
  exact Name.text?_toValue _

/-- The entry of a model that was met plainly stands among the tables, without an alias. -/
theorem MetPlainly.mem_tables (hopened : Builder.opened registry model k = .ok b)
    (hsettled : registry.Settled m.table) {given : List (Value × Value)} {s : Session}
    (hs : ToldBy b given s) (h : MetPlainly registry model given m) :
    ∃ entry ∈ s.builder.draft.tables, entry.1.text? = some m.table ∧
      entry.2.isTrue = .ok false := by
  obtain ⟨hregistry, -, -, -⟩ := Builder.opened_eq_ok hopened
  rw [hs.tables, hregistry]
  cases h with
  | made hmodel =>
      obtain ⟨b', hb', -, hbegins⟩ := Builder.opened_begins hmodel k
      cases hopened.symm.trans hb'
      obtain ⟨-, table, htables, -, hown⟩ := hbegins.entry
      rw [htables]
      exact ⟨(table, .null), List.mem_cons_self, hown.mpr (hregistry ▸ hsettled), rfl⟩
  | opened hmodel haliased hfound hplain =>
      rw [Builder.opened] at hopened
      dsimp only at hopened
      rw [hmodel, haliased] at hopened
      cases hopened
      exact ⟨_, List.mem_append_left _ List.mem_cons_self, text?_entered hfound _, hplain⟩
  | given hgiven hfound hplain =>
      exact ⟨_, List.mem_append_right _ (List.mem_map_of_mem hgiven), text?_entered hfound _, hplain⟩

/-! ## Fields of the canonical model -/

theorem aliased_spelled (tagged : Bool) (name : String) :
    (spelled tagged none name).aliased = .ok (spelled tagged none name, .null) := by
  cases tagged <;> rfl

/-- A call about a column enters no table. -/
theorem tables_of_about {column : Value} {call : Call} (hcall : call.About column) {b b' : Builder}
    {reply : Reply} (hrun : Call.run call b = .ok reply b') :
    b'.draft.tables = b.draft.tables := by
  have hkept := Builder.kept_run call (by cases hcall <;> exact nofun) b
  rw [after, hrun] at hkept
  exact (hkept.entries (by cases hcall <;> rfl)).2

/-- A column that is selected first is all that is selected. -/
theorem query_of_select {column : Value} (haliased : column.aliased = .ok (column, .null))
    {b b' : Builder} {reply : Reply} (hrun : Call.run (.select [column]) b = .ok reply b')
    (hnothing : b.query.select = []) :
    b'.query = { b.query with select := [(b.scope.column (some true) column, .null)] } := by
  cases (Builder.run_select haliased b).symm.trans hrun
  have hdraft : b.draft.select = [] := hnothing
  show Draft.finish { b.draft with
    select := b.draft.select ++ [(b.scope.column (some true) column, .null)] } = _
  rw [hdraft]
  rfl

/-- **OWN COLUMNS ARE LISTED UNLESS THE TABLE IS HIDDEN**: after any run of a builder that was made,
a field of the canonical model that is selected, tested or compared by its name is read, in every
clause, as a column of what the name of the model's table stands for.  A SELECT lists this for its
entries exactly if one of them is visible under that name, as it is whenever the model was met
without an alias.  If none is, a SELECT that selects or tests the field gains the table itself,
which is named in its FROM clause behind the entries. -/
theorem own_columns_listed_iff (h : Builder.create registry model kind = .ok b)
    (database : Option Database) (actions : List Action) {field : Field} {tagged : Bool}
    {call : Call} {b' : Builder} {reply : Reply}
    (hcanonical : (performed actions (ofBuilder b database)).builder.canonical = some m)
    (hown : registry.lookupName? m.name = some m) (hfield : field ∈ m.fields.toList)
    (hname : IsQualifier field.name) (hreadable : Readable m.table field.column)
    (hcall : call.About (spelled tagged none field.name))
    (hrun : Call.run call (performed actions (ofBuilder b database)).builder = .ok reply b') :
    let s := performed actions (ofBuilder b database)
    let v := s.builder.scope.column (some true) (spelled tagged none field.name)
    v = dotted m.table field.column ∧
      ∀ k f, readFrame b'.query k = .ok f → Unchained f.entries (.text m.table) →
        ByTable b'.query f m.table field.column v ∧
        (registry.Settled m.table → MetPlainly registry model (givenSinceReset actions) m →
          f.Shows (.text m.table)) ∧
        ((∀ left op right, call ≠ .on left op right) →
          ∀ select, readSelect f b'.query = .ok select →
            (sourceAmong f.entries (.text m.table) ∈ select.gained ↔ ¬f.Shows (.text m.table))) ∧
        (OnlyEntries s.builder.query → call = .select [spelled tagged none field.name] →
          ∃ select, readSelect f b'.query = .ok select) := by
  intro s v
  obtain ⟨k₀, hopened⟩ := Builder.opened_of_create h
  obtain ⟨hregistry, -, -, -⟩ := Builder.opened_eq_ok hopened
  have htold : ToldBy b (givenSinceReset actions) s :=
    toldBy_run hopened (toldBy_ofBuilder hopened b.kind database) actions
  have hscope : s.builder.scope.registry = registry := htold.subject.1.trans hregistry
  have haliased := aliased_spelled tagged field.name
  have hv : v = dotted m.table field.column := by
    have htarget := Scope.target?_eq hcanonical (hscope ▸ hown) none
    exact (Scope.finds_of_target htarget hreadable.named hfield nofun hname tagged).qualified
  have hclause := Builder.mem_clause_of_about hcall haliased hrun
  have htables : b'.query.tables = s.builder.draft.tables := tables_of_about hcall hrun
  refine ⟨hv, fun k f hf hunchained => ?_⟩
  have hsome : b'.query.tables ≠ [] := by
    obtain ⟨-, entry, hdraft⟩ := Builder.create_entry h
    rw [htables, htold.tables, hdraft]
    exact List.cons_ne_nil entry _
  have hby : ByTable b'.query f m.table field.column v :=
    byTable_of_unchained hf hsome hunchained (Builder.mem_references_of_clause hclause)
      (hv ▸ rfl) hreadable
  refine ⟨hby, fun hsettled hmet => ?_, fun hon select hselect => ?_, fun honly hselect => ?_⟩
  · obtain ⟨entry, hentry, htext, hplain⟩ := hmet.mem_tables hopened hsettled htold
    have hvalue : entry ∈ tableValues b'.query :=
      List.mem_append_left _ (htables ▸ hentry)
    exact ⟨_, mem_of_plain (entries_of_readFrame hf) hvalue htext hplain, rfl⟩
  · rw [hby.gained select hselect]
    refine and_iff_right (mem_read hselect (hclause.resolve_right fun hother => ?_)
      (readAs_iff.mp hby.read))
    obtain ⟨⟨left, op, right, heq⟩, -⟩ := hother
    exact hon left op right heq
  · subst hselect
    rw [query_of_select haliased hrun (congrArg Clauses.select honly.others)]
    exact honly.select_isOk hby.read

/-- The title of a post, stored in a column of another name. -/
def headline : Field := .plain "title" "headline" true "post"

/-- Posts that have one. -/
def headlinedModel : Model := Builder.plainModel "post" "posts" [headline]

/-- Posts joined under an alias, then given without one. -/
def joinedThenGiven : List Action :=
  [.call (.join (.tuple [.text "post", .text "p"]) .null), .call (.addTables [.text "post"])]

/-- The title is a column of the entry without an alias, and nothing is gained. -/
theorem headline_listed :
    ∃ b b' f select,
      Builder.create (.ofModels [headlinedModel]) (.tuple [.text "log", .text "l"])
        (.text "select") = .ok b ∧
      Call.run (.select [.text "title"]) (performed joinedThenGiven (ofBuilder b none)).builder =
        .ok .done b' ∧
      readFrame b'.query .select = .ok f ∧
      f.entries.map (·.visible) = [.text "l", .text "posts", .text "p"] ∧
      readSelect f b'.query = .ok select ∧
      ReadAs f.catalog (.text "posts.headline")
        (.column (some (Builder.bareEntry "posts").source) "headline") ∧
      (Builder.bareEntry "posts").source ∈ select.listed ∧
      (Builder.bareEntry "posts").source ∉ select.gained := by
  obtain ⟨b, hb⟩ : ∃ b, Builder.create (.ofModels [headlinedModel])
      (.tuple [.text "log", .text "l"]) (.text "select") = .ok b := ⟨_, rfl⟩
  obtain ⟨b', hrun⟩ : ∃ b', Call.run (.select [.text "title"])
      (performed joinedThenGiven (ofBuilder b none)).builder = .ok .done b' := ⟨_, rfl⟩
  obtain ⟨f, hf, hvisible⟩ : ∃ f, readFrame b'.query .select = .ok f ∧
      f.entries = [⟨.text "log", some (.text "l")⟩, Builder.bareEntry "posts",
        ⟨.text "posts", some (.text "p")⟩] := by
    cases hb
    cases hrun
    exact ⟨_, rfl, rfl⟩
  have hcanonical : (performed joinedThenGiven (ofBuilder b none)).builder.canonical =
      some headlinedModel := by
    cases hb
    rfl
  have hplain : ∀ c ∈ "postsheadline".toList, c ∉ ['"', '(', ' ', '*', ':'] :=
    plain_iff.mp (by decide)
  obtain ⟨hv, hall⟩ := @own_columns_listed_iff _ _ _ _ headlinedModel hb none joinedThenGiven
    headline false _ _ _ hcanonical rfl List.mem_cons_self (by decide)
    ⟨by decide, hplain, by decide⟩ .selected hrun
  obtain ⟨hby, hshows, hgained, hselect⟩ := hall .select f hf (hvisible ▸ by decide)
  have hsettled : Registry.Settled (.ofModels [headlinedModel]) "posts" := fun other h =>
    nomatch (show (none : Option Model) = some other from h)
  have hgiven : (Value.text "post", Value.null) ∈ givenSinceReset joinedThenGiven :=
    List.mem_cons_self
  have hposts : f.Shows (.text "posts") := hshows hsettled (.given hgiven rfl rfl)
  have honly : OnlyEntries (performed joinedThenGiven (ofBuilder b none)).builder.query := by
    cases hb
    refine ⟨fun j hj => ?_, rfl⟩
    rw [List.mem_singleton.mp hj]
    exact ⟨rfl, .inner, rfl⟩
  obtain ⟨select, hread⟩ := hselect honly rfl
  have hsource : sourceAmong f.entries (.text "posts") = (Builder.bareEntry "posts").source := by
    rw [hvisible]
    rfl
  have hcolumn := hby.read
  have hlisted : sourceAmong f.entries (.text "posts") ∈ select.listed :=
    (hby.listed select hread).mpr hposts
  have hungained : sourceAmong f.entries (.text "posts") ∉ select.gained := fun hmem =>
    (hgained nofun select hread).mp hmem hposts
  rw [hv, show headlinedModel.table = "posts" from rfl, hsource] at hcolumn
  rw [hsource] at hlisted hungained
  exact ⟨b, b', f, select, hb, hrun, hf, by rw [hvisible]; rfl, hread, hcolumn, hlisted, hungained⟩

/-- Posts that are given under an alias become canonical, and as no name of a table is the name of a
model, nothing else is called like theirs.  Still their title is a column of the table itself, which
is no entry, and the SELECT gains it. -/
theorem aliased_posts_gained :
    ∃ b b' f select,
      Builder.create (.ofModels [headlinedModel]) (.text "log") (.text "select") = .ok b ∧
      (∀ m ∈ b.registry.models, b.registry.lookupName? m.table = none) ∧
      let s := performed [.call (.addTables [.tuple [.text "post", .text "p"]])] (ofBuilder b none)
      s.builder.canonical = some headlinedModel ∧ headline.inDb = true ∧
      Call.run (.select [.text "title"]) s.builder = .ok .done b' ∧
      readFrame b'.query .select = .ok f ∧
      f.entries.map (·.visible) = [.text "log", .text "p"] ∧
      readStatement b'.query .select = .ok (.select select) ∧
      select.items.flatMap itemSources = [(Builder.bareEntry "posts").source] ∧
      select.listed.map (·.name) = [.text "log", .text "p"] ∧
      select.gained = [(Builder.bareEntry "posts").source] ∧
      ((Statement.select select).render .standard .bound).map (·.text) =
        .ok "SELECT posts.headline \nFROM log, posts AS p, posts" := by
  refine ⟨_, _, _, _, rfl, ?_, rfl, rfl, rfl, rfl, rfl, rfl, rfl, rfl, rfl, by decide +kernel⟩
  intro m hm
  rw [List.mem_singleton.mp hm]
  rfl

end Session

end ModelQuery
