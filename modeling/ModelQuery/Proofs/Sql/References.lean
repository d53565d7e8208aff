import ModelQuery.Proofs.Outcome
import ModelQuery.Sql.Compile

/-!
# References

A query refers to columns in its items, its keys, its conditions and the tests of its joins.  All of
them are read in one way, by `Catalog.operand`, so a statement depends on its references only
through what they are read as: references that are read alike can stand for each other
(`readIn_mapReferences`).
-/

namespace ModelQuery

/-! ## Other references -/

namespace Condition

mutual

/-- A condition with its columns replaced. -/
def mapColumn (g : Value → Value) : Condition → Condition
  | .test logic column op value => .test logic (g column) op value
  | .group logic children => .group logic (mapColumns g children)

/-- Conditions with their columns replaced. -/
def mapColumns (g : Value → Value) : List Condition → List Condition
  | [] => []
  | c :: rest => c.mapColumn g :: mapColumns g rest

end

theorem logic_mapColumn (g : Value → Value) (c : Condition) : (c.mapColumn g).logic = c.logic := by
  cases c <;> rfl

mutual

theorem mapColumn_id (c : Condition) : c.mapColumn id = c := by
  cases c with
  | test logic column op value => rfl
  | group logic children => rw [mapColumn, mapColumns_id children]

theorem mapColumns_id (cs : List Condition) : mapColumns id cs = cs := by
  cases cs with
  | nil => rfl
  | cons c rest => rw [mapColumns, mapColumn_id c, mapColumns_id rest]

end

end Condition

/-- A test of a join with its sides replaced. -/
def JoinTest.mapSides (g : Value → Value) (t : JoinTest) : JoinTest := ⟨g t.left, t.op, g t.right⟩

/-- A join with the sides of its tests replaced. -/
def Join.mapSides (g : Value → Value) (j : Join) : Join := { j with on := j.on.map (·.mapSides g) }

/-- A query with its references replaced, wherever they stand. -/
def Query.mapReferences (g : Value → Value) (q : Query) : Query :=
  { q with
    select := q.select.map fun (v, asName) => (g v, asName)
    joins := q.joins.map (·.mapSides g)
    filter := Condition.mapColumns g q.filter
    having := Condition.mapColumns g q.having
    groupBy := q.groupBy.map g
    orderBy := q.orderBy.map fun (v, d) => (g v, d) }

theorem Query.joins_mapReferences_id (q : Query) : (q.mapReferences id).joins = q.joins := by
  have hsides : Join.mapSides id = id := funext fun j =>
    congrArg (fun on => { j with on }) (List.map_id j.on)
  show q.joins.map (·.mapSides id) = q.joins
  rw [hsides, List.map_id]

end ModelQuery

namespace ModelQuery.Sql

open Outcome Condition

/-! ## Behind the frame -/

/-- A query as a statement of a kind, with a frame that is there already. -/
def readIn (f : Frame) (q : Query) : Kind → Except Error Statement
  | .select => do return .select (← readSelect f q)
  | .update => do
    let into ← readTarget f .update
    let filter ← readFilter f.catalog q.filter
    if q.assignments.isEmpty then return .update into none filter
    return .update into (some (← readAssignments f.catalog into q.assignments)) filter
  | .insert => do
    let into ← readTarget f .insert
    if q.columns.isEmpty || q.rows.isEmpty then return .insert into none
    return .insert into (some (← readRows f.catalog into q.columns q.rows))
  | .delete => do
    let into ← readTarget f .delete
    return .delete into (← readFilter f.catalog q.filter)

/-- A statement is read in its frame. -/
theorem readStatement_eq (q : Query) (kind : Kind) :
    readStatement q kind = readFrame q kind >>= fun f => readIn f q kind := by
  cases kind <;> rfl

/-- The count of a query, with a frame that is there already. -/
def countIn (f : Frame) (q : Query) : Except Error Statement := do
  return .count (← readTables f q) (← readFilter f.catalog q.filter)

/-- A count is read in its frame. -/
theorem readCount_eq (q : Query) :
    readCount q = readFrame q .select >>= fun f => countIn f q := rfl

/-! ## Alike -/

/-- The references are read in one catalog as what `g` puts in their places is in another. -/
def Alike (c c' : Catalog) (g : Value → Value) (vs : List Value) : Prop :=
  ∀ v ∈ vs, c.operand (g v) = c'.operand v

variable {c c' : Catalog} {g : Value → Value} {f : Frame} {q : Query}

theorem Alike.of_subset {vs ws : List Value} (h : Alike c c' g vs) (hsub : ∀ v ∈ ws, v ∈ vs) :
    Alike c c' g ws :=
  fun v hv => h v (hsub v hv)

/-- The select list is read alike, where its columns are. -/
theorem readItems_map {items : List (Value × Value)} (h : Alike c c' g (items.map Prod.fst)) :
    readItems c (items.map fun (v, asName) => (g v, asName)) = readItems c' items := by
  have hitem : ∀ item ∈ items, readItem c (g item.1, item.2) = readItem c' item := by
    intro item hitem
    rw [readItem, readItem, h item.1 (List.mem_map_of_mem hitem)]
  rw [readItems, readItems, mapM_map_of_eq hitem]

/-- A join is read alike, where the sides of its tests are. -/
theorem readJoin_map {j : Join} (h : Alike c c' g (j.on.flatMap fun t => [t.left, t.right]))
    {entry : TableEntry} (hsource : (c.entry entry.visible).source = (c'.entry entry.visible).source) :
    readJoin c (j.mapSides g) entry = readJoin c' j entry := by
  have htest : ∀ t ∈ j.on, readJoinTest c (t.mapSides g) = readJoinTest c' t := by
    intro t ht
    have hleft : c.operand (g t.left) = c'.operand t.left :=
      h _ (List.mem_flatMap.mpr ⟨t, ht, List.mem_cons_self⟩)
    have hright : c.operand (g t.right) = c'.operand t.right :=
      h _ (List.mem_flatMap.mpr ⟨t, ht, List.mem_cons_of_mem _ List.mem_cons_self⟩)
    show (c.operand (g t.left) >>= fun _ => c.operand (g t.right) >>= fun _ => _) = _
    rw [hleft, hright]
    rfl
  show (joinKind j.type >>= fun _ => (j.on.map (·.mapSides g)).mapM (readJoinTest c) >>= _) = _
  rw [mapM_map_of_eq htest, hsource]
  rfl

/-- Two frames have the same entries, for the same sources. -/
structure SameEntries (f f' : Frame) : Prop where
  tables : f.tables = f'.tables
  joined : f.joined = f'.joined
  sources : ∀ e ∈ f.tables ++ f.joined,
    (f.catalog.entry e.visible).source = (f'.catalog.entry e.visible).source

theorem SameEntries.refl (f : Frame) : SameEntries f f := ⟨rfl, rfl, fun _ _ => rfl⟩

/-- The tables are read alike, where the sides in ON are. -/
theorem readTables_map {f' : Frame} (hsame : SameEntries f f')
    (h : Alike f.catalog f'.catalog g
      (q.joins.flatMap fun j => j.on.flatMap fun t => [t.left, t.right])) :
    readTables f (q.mapReferences g) = readTables f' q := by
  have hjoin : ∀ pair ∈ q.joins.zip f.joined,
      readJoin f.catalog (pair.1.mapSides g) pair.2 = readJoin f'.catalog pair.1 pair.2 := by
    intro pair hpair
    obtain ⟨hjoin, hentry⟩ := List.of_mem_zip hpair
    refine readJoin_map (h.of_subset fun v hv => ?_)
      (hsame.sources _ (List.mem_append_right _ hentry))
    exact List.mem_flatMap.mpr ⟨pair.1, hjoin, hv⟩
  have htables : f.tables.map (fun e => (f.catalog.entry e.visible).source) =
      f'.tables.map fun e => (f'.catalog.entry e.visible).source := by
    rw [← hsame.tables]
    exact List.map_congr_left fun e he => hsame.sources e (List.mem_append_left _ he)
  rw [readTables, readTables, htables]
  cases f'.tables.map fun e => (f'.catalog.entry e.visible).source with
  | nil => rfl
  | cons first others =>
      show (((q.joins.map (·.mapSides g)).zip f.joined).mapM _ >>= _) = _
      rw [List.zip_map_left, mapM_map_of_eq hjoin, hsame.joined]

mutual

/-- A condition is read alike, where its columns are. -/
theorem ofCondition_map {α : Type} {read read' : Value → Value → Value → Except Error α}
    (condition : Condition)
    (h : ∀ v ∈ condition.columns, ∀ op value, read (g v) op value = read' v op value) :
    Formula.ofCondition read (condition.mapColumn g) = Formula.ofCondition read' condition := by
  cases condition with
  | test logic column op value =>
      rw [mapColumn, Formula.ofCondition, Formula.ofCondition, h column List.mem_cons_self]
  | group logic children =>
      rw [mapColumn, Formula.ofCondition, Formula.ofCondition]
      exact ofConditionsAfter_map children none h

/-- Conditions behind what was said are read alike, where their columns are. -/
theorem ofConditionsAfter_map {α : Type} {read read' : Value → Value → Value → Except Error α}
    (cs : List Condition) (sofar : Option (Formula α))
    (h : ∀ v ∈ columnsAll cs, ∀ op value, read (g v) op value = read' v op value) :
    Formula.ofConditionsAfter read sofar (mapColumns g cs) =
      Formula.ofConditionsAfter read' sofar cs := by
  cases cs with
  | nil => rfl
  | cons first rest =>
      -- what is said so far only goes along, so the rest is read alike behind anything
      have hfirst := ofCondition_map first fun v hv => h v (List.mem_append_left _ hv)
      rw [mapColumns, Formula.ofConditionsAfter, Formula.ofConditionsAfter, hfirst, logic_mapColumn]
      congr 1
      funext said
      exact ofConditionsAfter_map rest _ fun v hv => h v (List.mem_append_right _ hv)

end

/-- A filter is read alike, where its columns are. -/
theorem readFilter_map {cs : List Condition} (h : Alike c c' g (columnsAll cs)) :
    readFilter c (mapColumns g cs) = readFilter c' cs := by
  refine ofConditionsAfter_map cs none fun v hv op value => ?_
  rw [readTest, readTest, h v hv]

theorem readGroups_map {columns : List Value} (h : Alike c c' g columns) :
    readGroups c (columns.map g) = readGroups c' columns := by
  rw [readGroups, readGroups, mapM_map_of_eq h]

theorem readSorting_map {entries : List (Value × Value)}
    (h : Alike c c' g (entries.map Prod.fst)) :
    readSorting c (entries.map fun (v, d) => (g v, d)) = readSorting c' entries := by
  have hsort : ∀ entry ∈ entries, readSort c (g entry.1, entry.2) = readSort c' entry := by
    intro entry hentry
    rw [readSort, readSort, h entry.1 (List.mem_map_of_mem hentry)]
  rw [readSorting, readSorting, mapM_map_of_eq hsort]

/-! ## Whole statements -/

/-- A value of one of the clauses with references is a reference. -/
theorem mem_references {v : Value}
    (h : v ∈ q.select.map Prod.fst ∨ v ∈ q.orderBy.map Prod.fst ∨ v ∈ q.groupBy ∨
      v ∈ columnsAll q.filter ∨ v ∈ columnsAll q.having ∨
      v ∈ q.joins.flatMap fun j => j.on.flatMap fun t => [t.left, t.right]) :
    v ∈ references q := by
  simp only [references, List.mem_append, or_assoc]
  exact h

/-- **A SELECT IS READ ALIKE** where all its references are. -/
theorem readSelect_map (h : Alike f.catalog f.catalog g (references q)) :
    readSelect f (q.mapReferences g) = readSelect f q := by
  have hitems := readItems_map (h.of_subset fun v hv => mem_references (.inl hv))
  have hsorting := readSorting_map (h.of_subset fun v hv => mem_references (.inr (.inl hv)))
  have hgroups := readGroups_map (h.of_subset fun v hv => mem_references (.inr (.inr (.inl hv))))
  have hfilter := readFilter_map
    (h.of_subset fun v hv => mem_references (.inr (.inr (.inr (.inl hv)))))
  have hhaving := readFilter_map
    (h.of_subset fun v hv => mem_references (.inr (.inr (.inr (.inr (.inl hv))))))
  have htables := readTables_map (.refl f)
    (h.of_subset fun v hv => mem_references (.inr (.inr (.inr (.inr (.inr hv))))))
  rw [readSelect, readSelect, htables]
  dsimp only [Query.mapReferences]
  rw [hitems, hfilter, hgroups, hhaving, hsorting]

/-- **REFERENCES ARE THEIR OPERANDS**: references that are read alike give the same statement, of
every kind, and the same count. -/
theorem readIn_mapReferences (h : Alike f.catalog f.catalog g (references q)) (kind : Kind) :
    readIn f (q.mapReferences g) kind = readIn f q kind ∧
      countIn f (q.mapReferences g) = countIn f q := by
  have hfilter : readFilter f.catalog (q.mapReferences g).filter = readFilter f.catalog q.filter :=
    readFilter_map (h.of_subset fun v hv => mem_references (.inr (.inr (.inr (.inl hv)))))
  have htables := readTables_map (.refl f)
    (h.of_subset fun v hv => mem_references (.inr (.inr (.inr (.inr (.inr hv))))))
  constructor
  · cases kind with
    | select => rw [readIn, readIn, readSelect_map h]
    | update =>
        rw [readIn, readIn, hfilter]
        rfl
    | insert => rfl
    | delete => rw [readIn, readIn, hfilter]
  · rw [countIn, countIn, htables, hfilter]

end ModelQuery.Sql
