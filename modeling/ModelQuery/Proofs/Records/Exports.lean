import ModelQuery.Proofs.Query.Spellings
import ModelQuery.Proofs.Records.Entries
import ModelQuery.Proofs.Schema.OwnName
import ModelQuery.Proofs.Value.Keys
import ModelQuery.Records.Collection

/-!
# Records and columns

A record is looked at field by field, a row column by column.  Records go from a column to the first
field stored in it; a name given to a collection goes from a field to its column.  On the fields
that records have the two are inverse to each other, whatever fields share a column or carry the
name of another's (`FirstStored.unique`, `FirstStored.column_eq`).

So without a factory a record is its row under other names, and what a collection answers by the
name of a field is what its records hold there (`exports_agree`).
-/

namespace ModelQuery

open Outcome

/-! ## The field of a column -/

/-- The field is the first of the model's own table that is stored in the column. -/
def FirstStored (m : Model) (column : String) (f : Field) : Prop :=
  f.column = column ∧
    ∃ before after, m.fields.inDb = before ++ f :: after ∧ ∀ g ∈ before, g.column ≠ column

/-- The first field that is stored in a column is the one that is indexed by it. -/
theorem firstStored_iff {m : Model} {column : String} {f : Field} :
    FirstStored m column f ↔ m.fields.byColumn? column = some f :=
  FieldTable.byColumn?_eq_some_iff.symm

namespace FirstStored

variable {m : Model} {column column' : String} {f g : Field}

/-- At most one field is the first stored in a column. -/
theorem unique (hf : FirstStored m column f) (hg : FirstStored m column g) : f = g :=
  Option.some.inj ((firstStored_iff.mp hf).symm.trans (firstStored_iff.mp hg))

theorem mem (hf : FirstStored m column f) : f ∈ m.fields.toList := by
  obtain ⟨-, before, after, hdb, -⟩ := hf
  have hin : f ∈ m.fields.inDb := hdb ▸ List.mem_append_right before List.mem_cons_self
  exact List.mem_of_mem_filter hin

theorem field? (hf : FirstStored m column f) : m.field? f.name = some f :=
  FieldTable.get?_of_mem hf.mem

/-- Columns that become fields of one name are one column. -/
theorem column_eq (hf : FirstStored m column f) (hg : FirstStored m column' g)
    (hname : f.name = g.name) : column = column' := by
  have hfield := hf.field?
  rw [hname, hg.field?] at hfield
  cases hfield
  exact hf.1.symm.trans hg.1

end FirstStored

/-- Rows that all have the same columns, each stored in the model's own table and none a label. -/
structure Tabular (m : Model) (columns : List String) (rows : List Row) : Prop where
  stored : ∀ column ∈ columns, ∃ f ∈ m.fields.inDb, f.column = column
  unlabelled : ∀ column ∈ columns, ∀ rest, column ≠ labelMark m ++ rest
  alike : ∀ row ∈ rows, ∃ cells, row.named = .ok cells ∧ (Assoc.keys cells).Nodup ∧
    ∀ column, column ∈ Assoc.keys cells ↔ column ∈ columns

/-- Each column of the rows is stored in some field, and so in a first one. -/
theorem Tabular.firstStored {m : Model} {columns : List String} {rows : List Row}
    (h : Tabular m columns rows) {column : String} (hcolumn : column ∈ columns) :
    ∃ f, FirstStored m column f := by
  obtain ⟨f, hf, hstored⟩ := h.stored column hcolumn
  have hsome : (m.fields.byColumn? column).isSome := by
    rw [FieldTable.byColumn?_eq, List.find?_isSome]
    exact ⟨f, hf, beq_iff_eq.mpr hstored⟩
  obtain ⟨g, hg⟩ := Option.isSome_iff_exists.mp hsome
  exact ⟨g, firstStored_iff.mpr hg⟩

/-! ## The record of a row -/

/-- The field a column becomes. -/
def fieldName (m : Model) (column : String) : String :=
  match m.fields.byColumn? column with
  | some f => f.name
  | none => column

/-- A column becomes the field that it is first stored in. -/
theorem FirstStored.fieldName_eq {m : Model} {column : String} {f : Field}
    (hf : FirstStored m column f) : fieldName m column = f.name := by
  rw [fieldName, firstStored_iff.mp hf]

/-- The values of a row by field. -/
def renamed (m : Model) (cells : List (String × Value)) : List (String × Value) :=
  cells.map fun e => (fieldName m e.1, e.2)

/-- A column that is no label stands at the root. -/
theorem pathOf_unlabelled {m : Model} {column : String}
    (h : ∀ rest, column ≠ labelMark m ++ rest) : pathOf m column = (fieldName m column, []) := by
  have hafter : Text.afterStart? (labelMark m) column = none := by
    cases hrest : Text.afterStart? (labelMark m) column with
    | none => rfl
    | some rest => exact absurd (Text.afterStart?_eq_some_iff.mp hrest) (h rest)
  rw [pathOf, hafter, fieldName]
  cases m.fields.byColumn? column with
  | some f => rfl
  | none => rfl

/-- Rows without labels fill a tree with their renamed values, and with no relationship. -/
theorem filled_unlabelled {m : Model} {cells : List (String × Value)}
    (h : ∀ e ∈ cells, ∀ rest, e.1 ≠ labelMark m ++ rest) (own : List (String × Value)) :
    filled m (.node own []) cells = .node (Assoc.putAll (renamed m cells) own) [] := by
  induction cells generalizing own with
  | nil => rfl
  | cons e rest ih =>
      obtain ⟨he, hrest⟩ := List.forall_mem_cons.mp h
      show filled m ((Tree.node own []).insert (pathOf m e.1).1 e.2 (pathOf m e.1).2) rest = _
      rw [pathOf_unlabelled he]
      exact ih hrest (Assoc.put (fieldName m e.1) e.2 own)

/-- The row and the record are one to one: each column is the field that it holds first. -/
structure Renames (m : Model) (row : Row) (fields : List (String × Record)) : Prop where
  nodup : (Assoc.keys fields).Nodup
  cells : ∃ cells, row.named = .ok cells ∧ (Assoc.keys cells).Nodup ∧
    List.Forall₂ (fun cell field => ∃ f, FirstStored m cell.1 f ∧ field = (f.name, .cell cell.2))
      cells fields

section Loading

variable {m : Model} {columns : List String} {rows : List Row}

/-- Each row is loaded as a record whose fields are its columns, renamed. -/
theorem Tabular.load (h : Tabular m columns rows) (hfactory : m.factory = none)
    (registry : Option Registry) {row : Row} (hrow : row ∈ rows) :
    ∃ fields, loadRecord m registry row = .ok (.fields fields) ∧ Renames m row fields := by
  obtain ⟨cells, hnamed, hnodup, hkeys⟩ := h.alike row hrow
  have hin : ∀ e ∈ cells, e.1 ∈ columns := fun e he =>
    (hkeys e.1).mp (List.mem_map.mpr ⟨e, he, rfl⟩)
  have hnames : (Assoc.keys (renamed m cells)).Nodup := by
    have hmap : Assoc.keys (renamed m cells) = (Assoc.keys cells).map (fieldName m) := by
      simp only [Assoc.keys, renamed, List.map_map]
      rfl
    rw [hmap]
    refine List.Nodup.map_on ?_ hnodup
    intro a ha b hb heq
    obtain ⟨f, hf⟩ := h.firstStored ((hkeys a).mp ha)
    obtain ⟨g, hg⟩ := h.firstStored ((hkeys b).mp hb)
    rw [hf.fieldName_eq, hg.fieldName_eq] at heq
    exact hf.column_eq hg heq
  have htree : treeOf m cells = .node (renamed m cells) [] := by
    have hfilled := filled_unlabelled (fun e he => h.unlabelled e.1 (hin e he)) []
    rw [Assoc.putAll_of_nodup hnames] at hfilled
    exact hfilled
  refine ⟨cellsOf (renamed m cells), ?_, ?_, cells, hnamed, hnodup, ?_⟩
  · rw [loadRecord_eq hnamed, htree]
    show m.build (cellsOf (renamed m cells)) = _
    rw [Model.build, hfactory]
  · rw [keys_cellsOf]
    exact hnames
  · rw [cellsOf, renamed, List.map_map, List.forall₂_map_right_iff]
    refine List.forall₂_same.mpr fun e he => ?_
    obtain ⟨f, hf⟩ := h.firstStored (hin e he)
    refine ⟨f, hf, ?_⟩
    show (fieldName m e.1, Record.cell e.2) = _
    rw [hf.fieldName_eq]

end Loading

/-! ## The columns of a collection -/

/-- What a record holds in a field. -/
def Record.at (name : String) : Record → Except Error Value
  | .fields entries =>
    match entries.lookup name with
    | some (.cell v) => .ok v
    | _ => .error .unknownKey
  | _ => .error .wrongType

/-- A text finds in a row what it finds among the row's columns. -/
theorem lookup_named {row : Row} {cells : List (String × Value)} (h : row.named = .ok cells)
    {x : Value} {s : String} (hx : x.text? = some s) : row.lookup x = cells.lookup s := by
  induction row generalizing cells with
  | nil =>
      cases h
      rfl
  | cons e rest ih =>
      obtain ⟨column, v⟩ := e
      rw [Row.named, List.mapM_cons] at h
      obtain ⟨cell, hcell, h⟩ := bind_eq_ok h
      obtain ⟨cells', hrest, h⟩ := bind_eq_ok h
      cases h
      cases hcolumn : column.text? with
      | none =>
          dsimp only at hcell
          rw [hcolumn] at hcell
          cases hcell
      | some name =>
          dsimp only at hcell
          rw [hcolumn] at hcell
          cases hcell
          have hbeq : (x == column) = (s == name) := by
            rcases Value.eq_of_text? hx with rfl | rfl
            · rcases Value.eq_of_text? hcolumn with rfl | rfl
              · rfl
              · rfl
            · rcases Value.eq_of_text? hcolumn with rfl | rfl
              · rfl
              · rfl
          rw [List.lookup_cons, List.lookup_cons, hbeq, ih hrest]

/-- Beside every cell of a row stands the field it becomes. -/
theorem Renames.mem {m : Model} {row : Row} {fields : List (String × Record)}
    {cells : List (String × Value)} (h : Renames m row fields) (hnamed : row.named = .ok cells)
    {f : Field} {v : Value} (hf : FirstStored m f.column f) (hmem : (f.column, v) ∈ cells) :
    (f.name, Record.cell v) ∈ fields := by
  obtain ⟨cells', hnamed', -, hfields⟩ := h.cells
  cases hnamed.symm.trans hnamed'
  clear hnamed hnamed' h
  induction hfields with
  | nil => cases hmem
  | cons hfirst hrest ih =>
      rcases List.mem_cons.mp hmem with rfl | hmem
      · obtain ⟨g, hg, rfl⟩ := hfirst
        cases hf.unique hg
        exact List.mem_cons_self
      · exact List.mem_cons_of_mem _ (ih hmem)

/-- By the name of a field a row answers what its record holds there. -/
theorem Renames.reads {m : Model} {row : Row} {fields : List (String × Record)}
    (h : Renames m row fields) {f : Field} (hf : FirstStored m f.column f)
    (hrow : ∃ cells, row.named = .ok cells ∧ f.column ∈ Assoc.keys cells) :
    ∃ v, row.lookup f.columnName.toValue = some v ∧
      Record.at f.name (.fields fields) = .ok v := by
  obtain ⟨cells, hnamed, hmem⟩ := hrow
  have hnodup : (Assoc.keys cells).Nodup := by
    obtain ⟨cells', hnamed', hnodup, -⟩ := h.cells
    cases hnamed.symm.trans hnamed'
    exact hnodup
  obtain ⟨v, hv⟩ := Assoc.exists_of_mem_keys hmem
  have hlookup := Assoc.lookup_of_mem h.nodup (h.mem hnamed hf hv)
  refine ⟨v, ?_, ?_⟩
  · rw [lookup_named hnamed (Name.text?_toValue _)]
    exact Assoc.lookup_of_mem hnodup hv
  · rw [Record.at, hlookup]

/-- The value is the name of a field that the records have. -/
def NamesField (m : Model) (columns : List String) (v : Value) (name : String) : Prop :=
  v.text? = some name ∧ ∃ column ∈ columns, ∃ f, FirstStored m column f ∧ f.name = name

/-- No key stands twice, and under every key stands what the last pair of that key has. -/
structure LastWins (pairs entries : List (Value × Value)) : Prop where
  apart : Value.Apart entries
  found : ∀ x : Value, x.hashable = true → entries.lookup x = pairs.reverse.lookup x

/-- The answer is the mapping of the pairs, unless some key can be none. -/
inductive Maps (pairs : List (Value × Value)) : Except Error Value → Prop where
  | mapping {entries : List (Value × Value)} (hkeyed : Value.Keyed pairs)
      (hlast : LastWins pairs entries) : Maps pairs (.ok (.mapping entries))
  | unhashable (hkeyed : ¬ Value.Keyed pairs) : Maps pairs (.error .unhashable)

/-- By the names of fields a collection answers what its records hold. -/
structure AnswersAs (c : Collection) (records : List Record) (Named : Value → String → Prop) :
    Prop where
  atCursor : ∀ n name, Named n name → ∀ default,
    c.cellAtCursor n default = if c.valid then c.current >>= Record.at name else .ok default
  listed : ∀ n name, Named n name →
    ∃ values, records.mapM (Record.at name) = .ok values ∧ c.asList .null n = .ok (.list values)
  mapped : ∀ k key n name, Named k key → Named n name →
    ∃ keys values, records.mapM (Record.at key) = .ok keys ∧
      records.mapM (Record.at name) = .ok values ∧ Maps (keys.zip values) (c.asList k n)

namespace Collection

variable {c : Collection} {m : Model} {columns : List String}

/-- At a valid position stands a row, unless the position is written like a fraction. -/
theorem currentRow?_of_valid (h : c.valid = true) :
    (∃ row ∈ c.rows, c.currentRow? = .ok (some row)) ∨ c.currentRow? = .error .wrongType := by
  have hrow : ∀ place < c.rows.length, ∃ row ∈ c.rows, c.rows[place]? = some row := by
    intro place hplace
    exact ⟨c.rows[place], List.getElem_mem hplace, List.getElem?_eq_getElem hplace⟩
  have hbefore : c.position.isBefore c.rows.length = true := h
  have hcurrent : c.currentRow? = c.position.toIndex >>= fun place => .ok c.rows[place]? := by
    rw [currentRow?, h]
    rfl
  rw [hcurrent]
  cases hposition : c.position with
  | index place =>
      rw [hposition] at hbefore
      obtain ⟨row, hmem, hrow⟩ := hrow place (of_decide_eq_true hbefore)
      exact .inl ⟨row, hmem, congrArg Except.ok hrow⟩
  | flag b =>
      rw [hposition] at hbefore
      have hlt : (Value.ofBit b).toNat < c.rows.length := by
        have hlt : Value.ofBit b < c.rows.length := of_decide_eq_true hbefore
        cases b with
        | false => exact Int.ofNat_lt.mp hlt
        | true => exact Int.ofNat_lt.mp hlt
      obtain ⟨row, hmem, hrow⟩ := hrow _ hlt
      exact .inl ⟨row, hmem, congrArg Except.ok hrow⟩
  | real x => exact .inr rfl

theorem currentRow?_of_not_valid (h : c.valid = false) : c.currentRow? = .ok none := by
  rw [currentRow?, h]
  rfl

/-- The name of a field stands for the column that it is stored in. -/
theorem columnOf_field (hmodel : c.model = some m) {v : Value} {column : String} {f : Field}
    (hf : FirstStored m column f) (hv : v.text? = some f.name) :
    c.columnOf v = .ok f.columnName.toValue := by
  unfold columnOf
  rw [hmodel]
  rcases Value.eq_of_text? hv with rfl | rfl
  · show (match m.field? f.name with
      | some f => Except.ok f.columnName.toValue
      | none => .ok (.text f.name)) = _
    rw [hf.field?]
  · show (match m.field? f.name with
      | some f => Except.ok f.columnName.toValue
      | none => .ok (.declared f.name)) = _
    rw [hf.field?]

/-- Rows and records that answer alike give the same values. -/
theorem values_alike (column : Value) (name : String) {rows : List Row} {records : List Record}
    (h : List.Forall₂ (fun row r => ∃ v, cell row column = .ok v ∧ Record.at name r = .ok v)
      rows records) :
    ∃ values, rows.mapM (cell · column) = .ok values ∧
      records.mapM (Record.at name) = .ok values := by
  induction h with
  | nil => exact ⟨[], rfl, rfl⟩
  | cons hfirst hrest ih =>
      obtain ⟨v, hrow, hrecord⟩ := hfirst
      obtain ⟨values, hrows, hrecords⟩ := ih
      refine ⟨v :: values, ?_, ?_⟩
      · rw [List.mapM_cons, hrow, hrows]
        rfl
      · rw [List.mapM_cons, hrecord, hrecords]
        rfl

/-- The rows are written into the mapping one after the other, until a key can be none. -/
theorem foldlM_putKeyed {key value : Value} {rows : List Row} {ks vs : List Value}
    (hks : rows.mapM (cell · key) = .ok ks) (hvs : rows.mapM (cell · value) = .ok vs)
    (entries : List (Value × Value)) :
    rows.foldlM (fun m row => do putKeyed m (← cell row key) (← cell row value)) entries =
      if Value.hashableAll ks then .ok (Assoc.putAll (ks.zip vs) entries)
      else .error .unhashable := by
  induction rows generalizing ks vs entries with
  | nil =>
      cases hks
      cases hvs
      rfl
  | cons row rest ih =>
      rw [List.mapM_cons] at hks hvs
      obtain ⟨k, hk, hks⟩ := bind_eq_ok hks
      obtain ⟨ks', hks', hks⟩ := bind_eq_ok hks
      obtain ⟨v, hv, hvs⟩ := bind_eq_ok hvs
      obtain ⟨vs', hvs', hvs⟩ := bind_eq_ok hvs
      cases hks
      cases hvs
      rw [List.foldlM_cons, hk, hv, Value.hashableAll]
      cases hhash : k.hashable with
      | false =>
          show (putKeyed entries k v >>= _) = _
          rw [putKeyed, Value.asKey, hhash]
          rfl
      | true =>
          show (putKeyed entries k v >>= _) = _
          rw [putKeyed, Value.asKey, hhash]
          exact ih hks' hvs' (Assoc.put k v entries)

/-- Keys with values can be keyed just if they are all hashable. -/
theorem keyed_zip_iff {ks vs : List Value} (h : ks.length = vs.length) :
    Value.Keyed (ks.zip vs) ↔ Value.hashableAll ks = true := by
  induction ks generalizing vs with
  | nil => exact ⟨fun _ => rfl, fun _ => List.forall_mem_nil _⟩
  | cons k ks ih =>
      cases vs with
      | nil => cases h
      | cons v vs =>
          rw [Value.hashableAll, Bool.and_eq_true, ← ih (Nat.succ.inj h)]
          exact List.forall_mem_cons

theorem cell_eq (row : Row) (n : Name) :
    cell? row n.toValue = .ok (row.lookup n.toValue) := by
  unfold Name.toValue
  split
  · rfl
  · rfl

theorem columnOf_null (c : Collection) : c.columnOf .null = .ok .null := by
  unfold columnOf
  cases c.model with
  | none => rfl
  | some m => rfl

/-- A list under one name has the cell of each row, in order. -/
theorem asList_column {n : Value} {column : Name} (hn : c.columnOf n = .ok column.toValue) :
    c.asList .null n = (c.rows.mapM (cell · column.toValue)).map .list := by
  rw [asList, columnOf_null, hn]
  unfold Name.toValue
  split
  · rfl
  · rfl

/-- A mapping puts the cell of each row under its key, so that the last one wins. -/
theorem asList_mapping {k n : Value} {key column : Name} (hk : c.columnOf k = .ok key.toValue)
    (hn : c.columnOf n = .ok column.toValue) :
    c.asList k n = (c.rows.foldlM (fun m row => do
      putKeyed m (← cell row key.toValue) (← cell row column.toValue)) []).map .mapping := by
  rw [asList, hk, hn]
  unfold Name.toValue
  split
  · split
    · rfl
    · rfl
  · split
    · rfl
    · rfl

/-- The name of a field means a column in which every row has what its record has in the field. -/
theorem column_of_name (hmodel : c.model = some m) (hrows : Tabular m columns c.rows) {n : Value}
    {name : String} (hn : NamesField m columns n name) :
    ∃ column : Name, c.columnOf n = .ok column.toValue ∧
      ∀ row ∈ c.rows, ∀ fields, Renames m row fields →
        ∃ v, row.lookup column.toValue = some v ∧ Record.at name (.fields fields) = .ok v := by
  obtain ⟨htext, column, hcolumn, f, hf, rfl⟩ := hn
  have hstored : f.column = column := hf.1
  subst hstored
  refine ⟨f.columnName, columnOf_field hmodel hf htext, ?_⟩
  intro row hrow fields hrenames
  obtain ⟨cells, hnamed, -, hkeys⟩ := hrows.alike row hrow
  exact hrenames.reads hf ⟨cells, hnamed, (hkeys f.column).mpr hcolumn⟩

/-- The record of a row is the row under other names. -/
theorem load_renames (hmodel : c.model = some m) (hfactory : m.factory = none)
    (hrows : Tabular m columns c.rows) {row : Row} (hrow : row ∈ c.rows) :
    ∃ fields, c.load row = .ok (.fields fields) ∧ Renames m row fields := by
  obtain ⟨fields, hfields, hrenames⟩ := hrows.load hfactory c.registry hrow
  refine ⟨fields, ?_, hrenames⟩
  rw [load, hmodel]
  exact hfields

/-- At the cursor a name means what the current record holds. -/
theorem cellAtCursor_eq (hmodel : c.model = some m) (hfactory : m.factory = none)
    (hrows : Tabular m columns c.rows) {n : Value} {name : String}
    (hn : NamesField m columns n name) (default : Value) :
    c.cellAtCursor n default = if c.valid then c.current >>= Record.at name else .ok default := by
  obtain ⟨column, hcolumn, hreads⟩ := column_of_name hmodel hrows hn
  cases hvalid : c.valid with
  | false =>
      rw [cellAtCursor, currentRow?_of_not_valid hvalid]
      rfl
  | true =>
      rw [if_pos rfl, cellAtCursor, current]
      rcases currentRow?_of_valid hvalid with ⟨row, hmem, hrow⟩ | hrow
      · obtain ⟨fields, hload, hrenames⟩ := load_renames hmodel hfactory hrows hmem
        obtain ⟨v, hcell, hat⟩ := hreads row hmem fields hrenames
        rw [hrow]
        show (c.columnOf n >>= fun column => cell? row column >>= fun v? => .ok (v?.getD default)) =
          c.load row >>= Record.at name
        rw [hcolumn, hload]
        show (cell? row column.toValue >>= fun v? => .ok (v?.getD default)) = _
        rw [cell_eq, hcell]
        exact hat.symm
      · rw [hrow]
        rfl

/-- The column that a name means has the values that the records hold under it. -/
theorem values_of_name (hmodel : c.model = some m) (hrows : Tabular m columns c.rows)
    {records : List Record}
    (hbeside : List.Forall₂ (fun row r => row ∈ c.rows ∧ ∃ fields, r = .fields fields ∧
      Renames m row fields) c.rows records) {n : Value} {name : String}
    (hn : NamesField m columns n name) :
    ∃ column : Name, ∃ values, c.columnOf n = .ok column.toValue ∧
      c.rows.mapM (cell · column.toValue) = .ok values ∧
      records.mapM (Record.at name) = .ok values := by
  obtain ⟨column, hcolumn, hreads⟩ := column_of_name hmodel hrows hn
  obtain ⟨values, hrow, hrecord⟩ := values_alike column.toValue name <|
    hbeside.imp fun row r hr => by
      obtain ⟨hmem, fields, rfl, hrenames⟩ := hr
      obtain ⟨v, hrow, hat⟩ := hreads row hmem fields hrenames
      refine ⟨v, ?_, hat⟩
      rw [cell, cell_eq, hrow]
      rfl
  exact ⟨column, values, hcolumn, hrow, hrecord⟩

end Collection

/-- Notes whose fields carry the names of each other's columns; a third field shares one of them. -/
def swappedNote : Model :=
  { name := "note", table := "notes"
    fields := .ofList [.plain "text" "title" true "note", .plain "title" "text" true "note",
      .plain "heading" "title" true "note"]
    sorting := [], loadWith := [], group := defaultGroup, primaryKey := "id", factory := none }

/-- Two notes of one title, their columns in different orders. -/
def swappedRows : List Row :=
  [[(.text "title", .text "one"), (.text "text", .int 1)],
    [(.text "text", .int 2), (.text "title", .text "one")]]

def swappedNotes : Collection := { model := some swappedNote, rows := swappedRows, registry := none }

example : swappedNotes.asList (.text "text") (.text "title") =
    .ok (.mapping [(.text "one", .int 2)]) := rfl

end ModelQuery
