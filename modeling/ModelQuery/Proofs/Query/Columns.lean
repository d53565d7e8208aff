import ModelQuery.Proofs.Query.Hops
import ModelQuery.Proofs.Query.Qualified

/-!
# Fields as columns

A field that is selected, tested or compared is resolved to the text `table.column`, and a statement
reads this text anew, by the characters in it.  It is read as the column it was made of exactly if
the names of the table and of the column are `Readable` (`field_stays_column_iff`): with a quote, a
parenthesis, a blank or a star it is literal SQL, with a colon a label, and a point in the name of
the column makes what stands before it part of the table.
-/

namespace ModelQuery

open Outcome Sql

/-! ## Cutting at the last point -/

namespace Text

variable {sep : Char} {cs before after : List Char}

theorem cutLast?_eq_none_iff : cutLast? sep cs = none ↔ sep ∉ cs := by
  induction cs with
  | nil => exact ⟨fun _ => List.not_mem_nil, fun _ => rfl⟩
  | cons c rest ih =>
      rw [cutLast?, List.mem_cons, not_or, ← ih]
      cases cutLast? sep rest with
      | some parts => simp only [reduceCtorEq, and_false]
      | none =>
          by_cases hc : c = sep
          · simp only [hc, if_true, reduceCtorEq, not_true, false_and]
          · simp only [hc, Ne.symm hc, if_false, not_false_eq_true, and_self]

theorem cutLast?_append (before : List Char) (h : sep ∉ after) :
    cutLast? sep (before ++ sep :: after) = some (before, after) := by
  induction before with
  | nil =>
      rw [List.nil_append, cutLast?, cutLast?_eq_none_iff.mpr h]
      exact if_pos rfl
  | cons c rest ih => rw [List.cons_append, cutLast?, ih]

/-- What is cut at the last separator has none behind it. -/
theorem of_cutLast? (h : cutLast? sep cs = some (before, after)) :
    cs = before ++ sep :: after ∧ sep ∉ after := by
  induction cs generalizing before with
  | nil => cases h
  | cons c rest ih =>
      rw [cutLast?] at h
      cases hrest : cutLast? sep rest with
      | some parts =>
          obtain ⟨first, last⟩ := parts
          rw [hrest] at h
          cases h
          obtain ⟨rfl, hafter⟩ := ih hrest
          exact ⟨rfl, hafter⟩
      | none =>
          rw [hrest] at h
          dsimp only at h
          by_cases hc : c = sep
          · rw [if_pos hc] at h
            cases h
            subst hc
            exact ⟨rfl, cutLast?_eq_none_iff.mp hrest⟩
          · rw [if_neg hc] at h
            cases h

end Text

/-! ## Texts read as columns -/

/-- The names of a table and a column that are read as such with a point in between. -/
structure Readable (table column : String) : Prop where
  named : table ≠ ""
  plain : ∀ c ∈ table.toList ++ column.toList, c ∉ ['"', '(', ' ', '*', ':']
  whole : '.' ∉ column.toList

variable {table column : String}

/-- A qualified name is split at its last point. -/
theorem splitLast?_dotted (h : '.' ∉ column.toList) :
    Text.splitLast? '.' (table ++ "." ++ column) = some (table, column) := by
  rw [Text.splitLast?, Text.toList_dotted, Text.cutLast?_append _ h]
  simp only [Option.map_some, String.ofList_toList]

/-- A name that is split is its parts with a point between, and the last has none. -/
theorem of_splitLast? {s : String} (h : Text.splitLast? '.' s = some (table, column)) :
    s = table ++ "." ++ column ∧ '.' ∉ column.toList := by
  obtain ⟨⟨before, after⟩, hcut, heq⟩ := Option.map_eq_some_iff.mp h
  obtain ⟨rfl, rfl⟩ := Prod.mk.inj heq
  obtain ⟨hchars, hafter⟩ := Text.of_cutLast? hcut
  rw [String.toList_ofList]
  refine ⟨String.toList_inj.mp ?_, hafter⟩
  rw [Text.toList_dotted, String.toList_ofList, String.toList_ofList, hchars]

/-- A text with none of the characters that make it anything but a column. -/
theorem plain_iff {s : String} :
    (isRaw s || Text.holds s ':') = false ↔ ∀ c ∈ s.toList, c ∉ ['"', '(', ' ', '*', ':'] := by
  rw [Bool.or_eq_false_iff, isRaw, List.any_eq_false, Text.holds_eq_false_iff]
  simp only [Bool.or_eq_true, beq_iff_eq, List.mem_cons, List.not_mem_nil, or_false, not_or]
  constructor
  · rintro ⟨hraw, hmark⟩ c hc
    obtain ⟨⟨⟨hquote, hopening⟩, hblank⟩, hstar⟩ := hraw c hc
    exact ⟨hquote, hopening, hblank, hstar, fun heq => hmark (heq ▸ hc)⟩
  · intro h
    refine ⟨fun c hc => ?_, fun hmark => (h ':' hmark).2.2.2.2 rfl⟩
    obtain ⟨hquote, hopening, hblank, hstar, -⟩ := h c hc
    exact ⟨⟨⟨hquote, hopening⟩, hblank⟩, hstar⟩

/-- What is read as a column was written as one. -/
theorem of_plainText? {s : String} (h : plainText? s = some ⟨some table, column⟩) :
    s = table ++ "." ++ column ∧ '.' ∉ column.toList ∧
      ∀ c ∈ s.toList, c ∉ ['"', '(', ' ', '*', ':'] := by
  rw [plainText?] at h
  split at h
  · cases h
  · rename_i hplain
    rw [Bool.not_eq_true] at hplain
    have hcolumn := Option.some.inj h
    rw [PlainColumn.ofText] at hcolumn
    split at hcolumn
    · rename_i before after hsplit
      cases hcolumn
      obtain ⟨heq, hwhole⟩ := of_splitLast? hsplit
      exact ⟨heq, hwhole, plain_iff.mp hplain⟩
    · cases hcolumn

/-- Readable text is read as its table and column. -/
theorem Readable.plainText? (h : Readable table column) :
    plainText? (table ++ "." ++ column) = some ⟨some table, column⟩ := by
  have hplain : ∀ c ∈ (table ++ "." ++ column).toList, c ∉ ['"', '(', ' ', '*', ':'] := by
    intro c hc
    rw [Text.toList_dotted] at hc
    rcases List.mem_append.mp hc with hbefore | hbehind
    · exact h.plain c (List.mem_append_left _ hbefore)
    · rcases List.mem_cons.mp hbehind with rfl | hafter
      · decide
      · exact h.plain c (List.mem_append_right _ hafter)
  rw [Sql.plainText?, plain_iff.mpr hplain, if_neg Bool.false_ne_true, PlainColumn.ofText,
    splitLast?_dotted h.whole]

/-- What a text is read as, if it is read as a column of a source. -/
theorem of_operand_column {c : Catalog} {v : Value} {s : String} (hv : v.text? = some s)
    {source : Source} (h : c.operand v = .ok (.sql (.column (some source) column))) :
    ∃ before, plainText? s = some ⟨some before, column⟩ := by
  rw [operand_of_text hv] at h
  obtain ⟨e, htext, heq⟩ := map_eq_ok h
  cases heq
  rw [Catalog.textExpr] at htext
  split at htext
  · cases htext
  split at htext
  · cases htext
  rename_i hraw
  split at htext
  · cases htext
  rename_i hmark
  have hplain : plainText? s = some (.ofText s) := by
    rw [Bool.not_eq_true] at hraw hmark
    rw [plainText?, hraw, hmark]
    rfl
  dsimp only at htext
  split at htext
  · rename_i entry hentry
    obtain ⟨before, htable, -⟩ := Option.bind_eq_some_iff.mp hentry
    rw [Catalog.columnOf] at htext
    split at htext
    · cases htext
      refine ⟨before, ?_⟩
      rw [hplain, ← htable]
    · cases htext
  · cases htext

/-- A column that is read as one of a source, under its own name, has a readable name, and so has
the table before it. -/
theorem readable_of_operand {c : Catalog} {v : Value} {source : Source}
    (hv : v.text? = some (if table = "" then column else table ++ "." ++ column))
    (h : c.operand v = .ok (.sql (.column (some source) column))) : Readable table column := by
  obtain ⟨before, hplain⟩ := of_operand_column hv h
  obtain ⟨heq, hwhole, hplain⟩ := of_plainText? hplain
  have htable : table ≠ "" := by
    intro htable
    -- no column is its own name with a table before it
    rw [if_pos htable] at heq
    have hlength := congrArg (fun s => s.toList.length) heq
    simp only [Text.toList_dotted, List.length_append, List.length_cons] at hlength
    omega
  rw [if_neg htable, Text.toList_dotted] at hplain
  refine ⟨htable, fun c hc => hplain c ?_, hwhole⟩
  rcases List.mem_append.mp hc with hbefore | hbehind
  · exact List.mem_append_left _ hbefore
  · exact List.mem_append_right _ (List.mem_cons_of_mem _ hbehind)

/-- Literal SQL is what has one of the characters for it. -/
theorem operand_verbatim_iff {c : Catalog} {v : Value} {s : String} (hv : v.text? = some s) :
    (∃ text, c.operand v = .ok (.sql (.verbatim text))) ↔ isRaw s = true := by
  rw [operand_of_text hv]
  constructor
  · rintro ⟨text, h⟩
    obtain ⟨e, htext, heq⟩ := map_eq_ok h
    cases heq
    rw [Catalog.textExpr] at htext
    split at htext
    · rename_i hstar
      exact isRaw_of_star hstar
    split at htext
    · assumption
    split at htext
    · cases htext
    dsimp only at htext
    split at htext
    · rw [Catalog.columnOf] at htext
      split at htext
      · cases htext
      · cases htext
    · cases htext
  · intro hraw
    rw [Catalog.textExpr, if_pos hraw]
    split
    · exact ⟨_, rfl⟩
    · exact ⟨_, rfl⟩

/-! ## The clauses of a statement -/

/-- What a reference is in a statement, in each of the clauses it can stand in. -/
structure ReadAs (c : Catalog) (v : Value) (e : Expr) : Prop where
  item : readItem c (v, .null) = .ok (.inl (.sql e))
  test : ∀ op value, readTest c v op value = compare (.sql e) op value
  left : ∀ op w, readJoinTest c ⟨v, op, w⟩ = do
    let right ← c.operand w
    return .test (← compare (.sql e) op right)
  right : ∀ op w, readJoinTest c ⟨w, op, v⟩ = do
    let left ← c.operand w
    return .test (← compare left op (.sql e))

/-- To read a value as SQL is to have it as an operand of the catalog. -/
theorem readAs_iff {c : Catalog} {v : Value} {e : Expr} :
    ReadAs c v e ↔ c.operand v = .ok (.sql e) := by
  constructor
  · intro h
    obtain ⟨asName, hnone, hitem⟩ := bind_eq_ok h.item
    obtain rfl := Except.ok.inj hnone
    obtain ⟨w, hw, hitem⟩ := bind_eq_ok hitem
    cases hitem
    exact hw
  · intro h
    constructor
    case item =>
      rw [readItem, h]
      rfl
    case test =>
      intro op value
      rw [readTest, h]
      rfl
    case left =>
      intro op w
      rw [readJoinTest, h]
      rfl
    case right =>
      intro op w
      rw [readJoinTest, h]
      rfl

/-- A column of a table is written with the table's name before it, and both names as the dialect
quotes them. -/
theorem tokens_column (d : Dialect) (mode : Values) (p : Page) (table column : String) :
    Page.tokens d mode p (operandTokens (.column (some (Builder.bareEntry table).source) column)) =
      .ok (p.write (d.name table ++ "." ++ d.name column)) := by
  have hwrite (a b c : String) : ((p.write a).write b).write c = p.write (a ++ b ++ c) := by
    simp only [Page.write, String.append_assoc]
  rw [← hwrite]
  rfl

/-! ## Calls -/

/-- A call that selects a column, tests it, or compares it with another. -/
inductive Call.About (column : Value) : Call → Prop where
  | selected : Call.About column (.select [column])
  | tested (logic : Logic) (op value : Value) :
      Call.About column (.condition .filter logic column op value)
  | onLeft (op right : Value) : Call.About column (.on column op right)
  | onRight (left op : Value) : Call.About column (.on left op column)

namespace Builder

/-- A test that is pushed mentions its column. -/
theorem mem_columnsAll_push {column : Value} (logic : Logic) (op value : Value)
    (o : OpenConditions) :
    column ∈ Condition.columnsAll (o.push (.test logic column op value)).conditions := by
  have hplaced (enclosing : List OpenGroup) (current : OpenGroup)
      (h : column ∈ Condition.columnsAll current.children) :
      column ∈ Condition.columnsAll (enclosing.foldl OpenConditions.place current).children := by
    induction enclosing generalizing current with
    | nil => exact h
    | cons outer rest ih =>
        refine ih _ ?_
        rw [OpenConditions.place, Condition.columnsAll_append]
        refine List.mem_append_right _ ?_
        simpa only [Condition.columnsAll, Condition.columns, List.append_nil] using h
  refine hplaced _ _ ?_
  rw [OpenConditions.push, Condition.columnsAll_append]
  exact List.mem_append_right _ List.mem_cons_self

theorem mem_addToLast {joins : List Join} (hne : joins ≠ []) (t : JoinTest) :
    ∃ j ∈ addToLast t joins, t ∈ j.on := by
  obtain ⟨before, j, rfl⟩ := List.eq_nil_or_concat' joins |>.resolve_left hne
  rw [addToLast_append]
  refine ⟨addTest t j, List.mem_append_right _ List.mem_cons_self, ?_⟩
  exact List.mem_append_right _ List.mem_cons_self

/-- A test in ON stands in one of the joins, both sides resolved. -/
theorem mem_joins_of_on {b b' : Builder} {left op right : Value} {reply : Reply}
    (h : Call.run (.on left op right) b = .ok reply b') :
    ∃ j ∈ b'.query.joins,
      ⟨b.scope.column (some true) left, op, b.scope.column (some true) right⟩ ∈ j.on := by
  rw [Call.run, Step.tryChange, Call.onLast] at h
  by_cases hempty : b.draft.joins.isEmpty = true
  · rw [if_pos hempty] at h
    cases h
  · rw [if_neg hempty] at h
    obtain rfl : b.on left op right = b' := by injection h
    exact mem_addToLast (mt List.isEmpty_iff.mpr hempty) _

/-- To select one column without an alias selects it as it is. -/
theorem run_select {column : Value} (hcolumn : column.aliased = .ok (column, .null)) (b : Builder) :
    Call.run (.select [column]) b = .ok .done (b.select column .null) := by
  have hone : Call.selectOne column b = .ok .done (b.select column .null) := by
    rw [Call.selectOne, hcolumn]
    rfl
  exact Step.bind_ok hone

/-- What such a call says of a column is resolved, and stands in the clause of the call from then
on. -/
theorem mem_clause_of_about {b b' : Builder} {column : Value} {call : Call} {reply : Reply}
    (hcall : call.About column) (hcolumn : column.aliased = .ok (column, .null))
    (hrun : Call.run call b = .ok reply b') :
    let v := b.scope.column (some true) column
    (v ∈ b'.query.select.map Prod.fst ∨ v ∈ Condition.columnsAll b'.query.filter) ∨
      (∃ left op right, call = .on left op right) ∧
        v ∈ b'.query.joins.flatMap fun j => j.on.flatMap fun t => [t.left, t.right] := by
  intro v
  cases hcall with
  | selected =>
      cases (run_select hcolumn b).symm.trans hrun
      exact .inl (.inl (List.mem_map_of_mem (List.mem_append_right _ List.mem_cons_self)))
  | tested logic op value =>
      obtain rfl : b.condition .filter logic column op value = b' := by injection hrun
      exact .inl (.inr (mem_columnsAll_push logic op value _))
  | onLeft op right =>
      obtain ⟨j, hj, ht⟩ := mem_joins_of_on hrun
      exact .inr ⟨⟨column, op, right, rfl⟩, List.mem_flatMap.mpr ⟨j, hj,
        List.mem_flatMap.mpr ⟨_, ht, List.mem_cons_self⟩⟩⟩
  | onRight left op =>
      obtain ⟨j, hj, ht⟩ := mem_joins_of_on hrun
      exact .inr ⟨⟨left, op, column, rfl⟩, List.mem_flatMap.mpr ⟨j, hj,
        List.mem_flatMap.mpr ⟨_, ht, List.mem_cons_of_mem _ List.mem_cons_self⟩⟩⟩

/-- What stands in SELECT, in WHERE or in ON is a reference of the query. -/
theorem mem_references_of_clause {q : Query} {v : Value} {P : Prop}
    (h : (v ∈ q.select.map Prod.fst ∨ v ∈ Condition.columnsAll q.filter) ∨
      P ∧ v ∈ q.joins.flatMap fun j => j.on.flatMap fun t => [t.left, t.right]) :
    v ∈ references q := by
  rcases h with (hselected | htested) | ⟨-, hcompared⟩
  · exact mem_references (.inl hselected)
  · exact mem_references (.inr (.inr (.inr (.inl htested))))
  · exact mem_references (.inr (.inr (.inr (.inr (.inr hcompared)))))

/-- A call about a name leaves it, resolved, among the references. -/
theorem mem_references_of_about {b b' : Builder} {name : String} {call : Call} {reply : Reply}
    (hcall : call.About (.text name)) (hrun : Call.run call b = .ok reply b') :
    b.scope.column (some true) (.text name) ∈ references b'.query :=
  mem_references_of_clause (mem_clause_of_about hcall rfl hrun)

/-- The text of a field that is called by its name alone. -/
theorem text?_of_field {scope : Scope} {m : Model} {field : Field} {name : String}
    (hcanonical : scope.canonical = some m) (hown : scope.registry.lookupName? m.name = some m)
    (hfield : m.field? name = some field) (hname : IsQualifier name) :
    (scope.column (some true) (.text name)).text? =
      some (if m.table = "" then field.column else m.table ++ "." ++ field.column) := by
  have hresolved : scope.column (some true) (.text name) =
      (scope.resolveField true none name).toValue := by
    rw [Scope.column_text, Scope.resolveText, Identifier.ofText_bare hname]
    rfl
  rw [hresolved]
  by_cases htable : m.table = ""
  · have htarget : scope.target? none = some m := by
      unfold Scope.target? Scope.ownQualifier
      rw [hcanonical]
      exact hown
    simp only [Scope.resolveField, Scope.tableOf, Scope.columnOf, htarget, Option.bind_some, hfield,
      htable, ne_eq, not_true, and_false, if_false, if_true]
    exact Name.text?_toValue _
  · rw [Scope.resolve_own_field hcanonical hown htable hfield List.mem_cons_self, if_neg htable]
    rfl

/-- **FIELDS STAY COLUMNS**: a field of the canonical model that is selected, tested or compared by
its name is a reference that a statement reads as the column of the model's table exactly if the
names of both are readable; then it is written as the two names.  It is literal SQL exactly if one
of them has a quote, a parenthesis, a blank or a star. -/
theorem field_stays_column_iff {b b' : Builder} {m : Model} {field : Field} {name : String}
    {call : Call} {reply : Reply} (hcanonical : b.canonical = some m)
    (hown : b.registry.lookupName? m.name = some m) (hfield : m.field? name = some field)
    (hname : IsQualifier name) (hcall : call.About (.text name))
    (hrun : Call.run call b = .ok reply b') :
    let v := b.scope.column (some true) (.text name)
    let e : Expr := .column (some (bareEntry m.table).source) field.column
    v ∈ references b'.query ∧
      (∀ k f, readFrame b'.query k = .ok f → ((f.tables ++ f.joined).map (·.visible)).Nodup →
        (∀ entry ∈ f.tables ++ f.joined, entry.asName ≠ some (.text m.table)) →
        (ReadAs f.catalog v e ↔ Readable m.table field.column) ∧
        (m.table ≠ "" → ((∃ text, ReadAs f.catalog v (.verbatim text)) ↔
          isRaw (m.table ++ "." ++ field.column) = true))) ∧
      ∀ d mode p, Page.tokens d mode p (operandTokens e) =
        .ok (p.write (d.name m.table ++ "." ++ d.name field.column)) := by
  intro v e
  refine ⟨mem_references_of_about hcall hrun, ?_, fun d mode p => tokens_column ..⟩
  intro k f hframe hdistinct hnone
  have hv : v.text? = some (if m.table = "" then field.column else m.table ++ "." ++ field.column) :=
    text?_of_field hcanonical hown hfield hname
  rw [(of_readFrame hframe).1]
  refine ⟨?_, fun htable => ?_⟩
  · rw [readAs_iff]
    constructor
    · exact readable_of_operand hv
    · intro hreadable
      rw [if_neg hreadable.named] at hv
      have hplain : plainColumn? v = some ⟨some m.table, field.column⟩ :=
        (plainColumn?_of_text hv).trans hreadable.plainText?
      exact operand_of_bare hdistinct hnone (mem_references_of_about hcall hrun) hv hplain
        hreadable.named k
  · rw [if_neg htable] at hv
    simp only [readAs_iff]
    exact operand_verbatim_iff hv

/-- Posts whose title is stored in a column with a blank in its name. -/
def titledModel : Model :=
  plainModel "post" "posts" [.plain "id" "" true "post", .plain "title" "full title" true "post"]

/-- Such a title is selected as literal SQL. -/
theorem title_selected_literally :
    ∃ b b' f, create (.ofModels [titledModel]) (.text "post") (.text "select") = .ok b ∧
      Call.run (.select [.text "title"]) b = .ok .done b' ∧
      readFrame b'.query .select = .ok f ∧
      (∃ text, ReadAs f.catalog (b.scope.column (some true) (.text "title")) (.verbatim text)) ∧
      ¬ReadAs f.catalog (b.scope.column (some true) (.text "title"))
        (.column (some (bareEntry "posts").source) "full title") := by
  obtain ⟨b, hb⟩ : ∃ b, create (.ofModels [titledModel]) (.text "post") (.text "select") = .ok b :=
    ⟨_, rfl⟩
  have hcanonical : b.canonical = some titledModel := by
    cases hb
    rfl
  have hown : b.registry.lookupName? titledModel.name = some titledModel := by
    cases hb
    rfl
  obtain ⟨f, hf, hentries⟩ : ∃ f, readFrame (b.select (.text "title") .null).query .select = .ok f ∧
      f.tables ++ f.joined = [bareEntry "posts"] := by
    cases hb
    exact ⟨_, rfl, rfl⟩
  obtain ⟨-, hread, -⟩ := @field_stays_column_iff b _ titledModel _ "title" _ .done hcanonical hown
    rfl ⟨⟨by decide, by decide⟩, by decide⟩ .selected rfl
  obtain ⟨hcolumn, hliteral⟩ := hread .select f hf (hentries ▸ by decide) (hentries ▸ by decide)
  refine ⟨b, _, f, hb, rfl, hf, (hliteral (by decide)).mpr (by decide), fun h => ?_⟩
  exact (hcolumn.mp h).plain ' ' (by decide) (by decide)

end Builder

end ModelQuery
