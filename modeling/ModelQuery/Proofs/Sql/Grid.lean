import ModelQuery.Proofs.Sql.Listed

/-!
# The grid of an INSERT

An INSERT with rows is a grid: headings, which are columns or expressions without a name, and under
them a value in each row.  The first row decides the headings, and every row takes for a heading
what was assigned under it: the first row the first of several values, a later row the last;
expressions without a name are not told apart in a later row.

What can be written has no fault in any row, and then its words are those of its grid
(`insertRows_eq_words`).
-/

namespace ModelQuery.Sql

/-! ## Headings -/

/-- What stands over a value: an expression without a name, or the name of a column. -/
abbrev Heading := Expr ⊕ String

/-- The heading a target stands under. -/
def Target.heading? : Target → Option Heading
  | .column name | .named name => some (.inr name)
  | .nameless e => some (.inl e)
  | .invalid => none

/-- A heading in words. -/
def headingTokens : Heading → List Token
  | .inl e => targetTokens e
  | .inr name => [.name name]

/-- A value of the first row under a heading. -/
def firstCell : Heading → Expr → List Token
  | .inl _, e => operandTokens e
  | .inr name, e => namedTokens (firstRowName name) e

/-- Headings with rows of values under them. -/
structure Grid where
  headings : List Heading
  rows : List (List Expr)

/-- A grid in words. -/
def Grid.words (g : Grid) : Inserted :=
  { columns := g.headings.map headingTokens
    rows := match g.rows with
      | [] => []
      | first :: later =>
        rowTokens (List.zipWith firstCell g.headings first) ::
          later.map fun row => rowTokens (row.map operandTokens) }

/-- The last of some values. -/
def lastOf (values : List Expr) : Expr := values.getLast?.getD .null

/-- The first of some values. -/
def firstOf (values : List Expr) : Expr := values.head?.getD .null

/-- The values of the first row, under its own headings. -/
def firstValues (columns : List String) (as : List Assignment) : List Expr :=
  (namelessValues as).map Prod.snd ++ columns.map fun c => firstOf (valuesFor c as)

/-- The values of a later row, under the headings of the first. -/
def laterValues (nameless : Nat) (columns : List String) (as : List Assignment) : List Expr :=
  List.replicate nameless (lastOf ((namelessValues as).map Prod.snd)) ++
    columns.map fun c => lastOf (valuesFor c as)

/-- The grid of what rows assign, for a table with known columns. -/
def gridOf (columns : List String) : List (List Assignment) → Grid
  | [] => ⟨[], []⟩
  | first :: later =>
    let listed := columns.filter (· ∈ first.filterMap (·.target.name?))
    { headings := (namelessValues first).map (fun p => .inl p.1) ++ listed.map .inr
      rows := firstValues listed first ::
        later.map (laterValues (namelessValues first).length listed) }

/-! ## The words of a grid -/

/-- A later value without a fault is there, and is an operand. -/
theorem getLast?_of_no_fault {cause : Error} {values : List Expr}
    (h : .fault cause ∉ laterValue cause values) :
    ∃ e, values.getLast? = some e ∧ laterValue cause values = operandTokens e := by
  rw [laterValue] at h ⊢
  cases hlast : values.getLast? with
  | some e => exact ⟨e, rfl, rfl⟩
  | none =>
      rw [hlast] at h
      exact absurd List.mem_cons_self h

/-- A later value without a fault is the last that is given. -/
theorem laterValue_eq {cause : Error} {values : List Expr}
    (h : .fault cause ∉ laterValue cause values) :
    laterValue cause values = operandTokens (lastOf values) := by
  obtain ⟨e, hlast, hwords⟩ := getLast?_of_no_fault h
  rw [hwords, lastOf, hlast]
  rfl

/-- Nothing invalid is assigned to where there is no fault that says so. -/
theorem invalidFault_eq_nil {as : List Assignment}
    (h : .fault .invalidOperand ∉ invalidFault as) : hasInvalid as = false ∧ invalidFault as = [] := by
  rw [invalidFault] at h ⊢
  cases hinvalid : hasInvalid as with
  | false => exact ⟨rfl, rfl⟩
  | true =>
      rw [hinvalid] at h
      exact absurd List.mem_cons_self h

/-- Without its fault nothing is left over. -/
theorem leftoverFault_eq_nil {columns : List String} {as : List Assignment}
    (h : .fault .unrenderable ∉ leftoverFault columns as) : leftoverFault columns as = [] := by
  rw [leftoverFault] at h ⊢
  split
  · rfl
  · rename_i hsome
    rw [if_neg hsome] at h
    exact absurd List.mem_cons_self h

/-- A later row without a fault is a row of the grid. -/
theorem laterRow_eq {nameless : Nat} {columns : List String} {as : List Assignment}
    (h : ∀ cause, .fault cause ∉ laterRow nameless columns as) :
    hasInvalid as = false ∧
      laterRow nameless columns as =
        rowTokens ((laterValues nameless columns as).map operandTokens) := by
  obtain ⟨hvalid, hnofault⟩ :=
    invalidFault_eq_nil fun hfault => h .invalidOperand (List.mem_append_left _ hfault)
  have hcell {cause : Error} {cell : List Token}
      (hcell : cell ∈ List.replicate nameless
        (laterValue .noSuchOperation ((namelessValues as).map Prod.snd)) ++
          columns.map fun c => laterValue .unrenderable (valuesFor c as)) :
      .fault cause ∉ cell :=
    fun hfault => h cause (List.mem_append_right _ (mem_rowTokens hcell hfault))
  refine ⟨hvalid, ?_⟩
  rw [laterRow, hnofault, List.nil_append, laterValues, List.map_append, List.map_replicate,
    List.map_map]
  congr 2
  · -- without headings of its kind, nothing is known of the value under them
    cases nameless with
    | zero => rfl
    | succ n =>
        refine congrArg _ (laterValue_eq (hcell (List.mem_append_left _ ?_)))
        exact List.mem_replicate.mpr ⟨Nat.succ_ne_zero n, rfl⟩
  · refine List.map_congr_left fun c hc => laterValue_eq (hcell ?_)
    exact List.mem_append_right _ (List.mem_map_of_mem hc)

/-- The first row in words is the first row of the grid. -/
theorem firstRow_eq (columns : List String) (as : List Assignment) :
    (namelessValues as).map (fun p => operandTokens p.2) ++
        columns.map (fun c => namedTokens (firstRowName c) (firstOf (valuesFor c as))) =
      List.zipWith firstCell ((namelessValues as).map (fun p => Sum.inl p.1) ++ columns.map .inr)
        (firstValues columns as) := by
  rw [firstValues, List.zipWith_append (by rw [List.length_map, List.length_map]),
    List.zipWith_map, List.zipWith_map, List.zipWith_self, List.zipWith_self]
  rfl

/-- Where no row has a fault, nothing invalid is assigned to, the first row assigns to known columns
by name, and the words are those of the grid. -/
theorem insertRows_eq_words {into : Changed} {first : List Assignment}
    {later : List (List Assignment)}
    (h : ∀ cause, .fault cause ∉ (insertRows into (some (first :: later))).rows.flatten) :
    (∀ as ∈ first :: later, hasInvalid as = false) ∧
      (∀ name ∈ first.filterMap (·.target.name?), name ∈ into.columns) ∧
      insertRows into (some (first :: later)) = (gridOf into.columns (first :: later)).words := by
  have hcolumns : (columnValues into.columns first).map Prod.fst =
      into.columns.filter (· ∈ first.filterMap (·.target.name?)) := by
    rw [columnValues_eq, List.map_map]
    exact List.map_id _
  have hrow {row : List Token} (hrow : row ∈ (insertRows into (some (first :: later))).rows) :
      ∀ cause, .fault cause ∉ row :=
    fun cause hfault => h cause (List.mem_flatten.mpr ⟨row, hrow, hfault⟩)
  have hfirst := hrow List.mem_cons_self
  obtain ⟨hvalid, hnofault⟩ := invalidFault_eq_nil fun hfault =>
    hfirst .invalidOperand (List.mem_append_left _ (List.mem_append_left _ hfault))
  have hleft : .fault .unrenderable ∉ leftoverFault into.columns first :=
    fun hfault => hfirst .unrenderable (List.mem_append_right _ hfault)
  have hlater (as : List Assignment) (has : as ∈ later) :=
    laterRow_eq (hrow (List.mem_cons_of_mem _ (List.mem_map_of_mem has)))
  rw [hcolumns] at hlater
  refine ⟨?_, fun name => names_of_no_fault hleft, ?_⟩
  · intro as has
    rcases List.mem_cons.mp has with rfl | has
    · exact hvalid
    · exact (hlater as has).1
  · rw [insertRows, hnofault, leftoverFault_eq_nil hleft, List.append_nil, List.nil_append]
    dsimp only
    rw [hcolumns, columnValues_eq, List.map_map, List.map_map, Grid.words, gridOf]
    dsimp only
    rw [List.map_append, List.map_map, List.map_map, List.map_map]
    congr 2
    · exact congrArg rowTokens (firstRow_eq _ first)
    · exact List.map_congr_left fun as has => (hlater as has).2

end ModelQuery.Sql
