import Mathlib.Data.List.Dedup
import Mathlib.Data.List.Perm.Subperm
import ModelQuery.Proofs.Sql.Grid

/-!
# What an INSERT keeps

A row is paired with the columns as far as both go, and what the pairs assign is written one over
the other.  So values can be lost on their way into the grid of an INSERT: those a row has beyond
its columns, all but one of those for one column, and in the later rows all but the last of those
for expressions without a name; and rows are lost where a dialect has a word for a single row
without columns.

`keeps_iff_fits` says that nothing else is lost: of an INSERT that can be written, the grid has in
each row every value of it, once and under the heading of its column, exactly if all rows are of one
length, which the columns reach, their columns are different ones, and the other two losses do not
happen.
-/

namespace ModelQuery.Sql

open Outcome

/-! ## Parts of a row -/

/-- What is assigned to by name. -/
def assignedNames (as : List Assignment) : List String := as.filterMap (·.target.name?)

/-- An assignment is to a name, to an expression without one, or to nothing. -/
theorem parts_cons (a : Assignment) (rest : List Assignment) :
    (∃ name, a.target.name? = some name ∧ a.target.heading? = some (.inr name) ∧
        assignedNames (a :: rest) = name :: assignedNames rest ∧
        namelessValues (a :: rest) = namelessValues rest) ∨
      (∃ e, a.target.heading? = some (.inl e) ∧
        assignedNames (a :: rest) = assignedNames rest ∧
        namelessValues (a :: rest) = (e, a.value) :: namelessValues rest) ∨
      (a.target = .invalid ∧ assignedNames (a :: rest) = assignedNames rest ∧
        namelessValues (a :: rest) = namelessValues rest) := by
  obtain ⟨target, value⟩ := a
  cases target with
  | column name => exact .inl ⟨name, rfl, rfl, rfl, rfl⟩
  | named name => exact .inl ⟨name, rfl, rfl, rfl, rfl⟩
  | nameless e => exact .inr (.inl ⟨e, rfl, rfl, rfl⟩)
  | invalid => exact .inr (.inr ⟨rfl, rfl, rfl⟩)

/-- No assignment counts both as one to a name and as one without. -/
theorem length_parts_le (as : List Assignment) :
    (namelessValues as).length + (assignedNames as).length ≤ as.length := by
  induction as with
  | nil => exact Nat.le_refl 0
  | cons a rest ih =>
      rw [List.length_cons]
      obtain ⟨_, -, -, hnames, hnameless⟩ | ⟨_, -, hnames, hnameless⟩ | ⟨-, hnames, hnameless⟩ :=
        parts_cons a rest
      · rw [hnames, hnameless, List.length_cons]
        omega
      · rw [hnames, hnameless, List.length_cons]
        omega
      · rw [hnames, hnameless]
        omega

/-! ## Writing over -/

section Overwriting

variable {as : List Assignment}

/-- An assignment under a new name is put behind the others. -/
theorem assign_of_new {a : Assignment} (h : ∀ name, a.target.name? = some name →
    name ∉ assignedNames as) : assign as a = as ++ [a] := by
  rw [assign]
  split
  · rename_i name htarget
    have hnone : ¬ as.any (sameColumn name) = true := by
      intro hany
      obtain ⟨b, hb, hsame⟩ := List.any_eq_true.mp hany
      refine h name (by rw [htarget]; rfl) (List.mem_filterMap.mpr ⟨b, hb, ?_⟩)
      rw [sameColumn_iff.mp hsame]
      rfl
    rw [if_neg hnone]
  · rfl

/-- Nothing is written over if nothing is named twice. -/
theorem assignAll_of_nodup (h : (assignedNames as).Nodup) : assignAll as = as := by
  have hall : ∀ (before more : List Assignment), (assignedNames (before ++ more)).Nodup →
      more.foldl assign before = before ++ more := by
    intro before more
    induction more generalizing before with
    | nil => exact fun _ => (List.append_nil before).symm
    | cons a rest ih =>
        intro hnodup
        have hnew : ∀ name, a.target.name? = some name → name ∉ assignedNames before := by
          intro name hname hmem
          rw [assignedNames, List.filterMap_append] at hnodup
          refine (List.nodup_append.mp hnodup).2.2 name hmem name ?_ rfl
          exact List.mem_filterMap.mpr ⟨a, List.mem_cons_self, hname⟩
        rw [List.foldl_cons, assign_of_new hnew, ih _ (by rwa [List.append_assoc]),
          List.append_assoc]
        rfl
  exact hall [] as h

/-- Writing over brings no names. -/
theorem names_assignAll {name : String} (h : name ∈ assignedNames (assignAll as)) :
    name ∈ assignedNames as := by
  obtain ⟨a, ha, hname⟩ := List.mem_filterMap.mp h
  obtain ⟨b, hb, htarget⟩ : ∃ b ∈ as, b.target = a.target :=
    targets_assignAll (P := fun t => ∃ b ∈ as, b.target = t) (fun b hb => ⟨b, hb, rfl⟩) a ha
  exact List.mem_filterMap.mpr ⟨b, hb, htarget ▸ hname⟩

/-- Values of expressions without a name are never written over. -/
theorem namelessValues_assign (as : List Assignment) (a : Assignment) :
    namelessValues (assign as a) = namelessValues as ++ namelessValues [a] := by
  rw [assign]
  split
  · rename_i name htarget
    have hnone : namelessValues [a] = [] := by
      rw [namelessValues, List.filterMap_cons, htarget]
      rfl
    split
    · rw [hnone, List.append_nil, namelessValues, List.filterMap_map]
      refine List.filterMap_congr fun b _ => ?_
      rw [Function.comp_apply]
      by_cases hsame : sameColumn name b = true
      · rw [if_pos hsame]
        dsimp only
        rw [sameColumn_iff.mp hsame]
      · rw [if_neg hsame]
    · exact List.filterMap_append
  · exact List.filterMap_append

/-- Expressions without a name are not written over. -/
theorem namelessValues_assignAll (as : List Assignment) :
    namelessValues (assignAll as) = namelessValues as := by
  have hall : ∀ before more : List Assignment,
      namelessValues (more.foldl assign before) = namelessValues before ++ namelessValues more := by
    intro before more
    induction more generalizing before with
    | nil => exact (List.append_nil _).symm
    | cons a rest ih =>
        have hsplit : namelessValues (a :: rest) = namelessValues [a] ++ namelessValues rest :=
          List.filterMap_append (l := [a])
        rw [List.foldl_cons, ih, namelessValues_assign, hsplit, List.append_assoc]
  exact hall [] as

end Overwriting

/-! ## Values under headings -/

/-- A value with its heading, if it has one and if it can be had. -/
abbrev Placed := Option Heading × Except Error Expr

/-- A value under a heading. -/
def placed (heading : Heading) (value : Expr) : Placed := (some heading, .ok value)

/-- The values of a row of a grid under its headings. -/
def under (headings : List Heading) (values : List Expr) : List Placed :=
  (headings.zip values).map fun p => placed p.1 p.2

/-- The values that are assigned. -/
def placedBy (as : List Assignment) : List Placed := as.map fun a => (a.target.heading?, .ok a.value)

/-- The values of a row as a query gives them, each under the heading of its column. -/
def given (columns row : List Value) : List Placed :=
  (columns.zip row).map fun p => ((ownTarget? p.1).bind Target.heading?, (valueOf p.2).map exprOf)

theorem length_under {headings : List Heading} {values : List Expr}
    (h : values.length = headings.length) : (under headings values).length = headings.length := by
  rw [under, List.length_map, List.length_zip, h, Nat.min_self]

theorem length_given {columns row : List Value} (h : row.length ≤ columns.length) :
    (given columns row).length = row.length := by
  rw [given, List.length_map, List.length_zip, Nat.min_eq_right h]

theorem under_append {hs hs' : List Heading} {es es' : List Expr} (h : hs.length = es.length) :
    under (hs ++ hs') (es ++ es') = under hs es ++ under hs' es' := by
  rw [under, List.zip_append h, List.map_append]
  rfl

theorem under_map {α : Type} (xs : List α) (f : α → Heading) (g : α → Expr) :
    under (xs.map f) (xs.map g) = xs.map fun x => placed (f x) (g x) := by
  rw [under, List.zip_map', List.map_map]
  rfl

section Rows

variable {columns : List String} {as : List Assignment}

/-- A row of a grid, of expressions and columns with a value for each of them. -/
theorem under_row {nameless : List (Expr × Expr)} (value : Expr × Expr → Expr)
    (pick : String → Expr) :
    under (nameless.map (fun p => .inl p.1) ++ columns.map .inr)
        (nameless.map value ++ columns.map pick) =
      nameless.map (fun p => placed (.inl p.1) (value p)) ++
        columns.map fun c => placed (.inr c) (pick c) := by
  rw [under_append (by rw [List.length_map, List.length_map]), under_map, under_map]

/-- Of names that are assigned to once, the one value is the first and the last. -/
theorem valuesFor_of_nodup (h : (assignedNames as).Nodup) {a : Assignment} (ha : a ∈ as)
    {name : String} (hname : a.target.name? = some name) : valuesFor name as = [a.value] := by
  induction as with
  | nil => cases ha
  | cons b rest ih =>
      rw [valuesFor, List.filterMap_cons, ← valuesFor]
      by_cases hb : b.target.name? = some name
      · have hnew : name ∉ assignedNames rest := by
          rw [assignedNames, List.filterMap_cons, hb] at h
          exact (List.nodup_cons.mp h).1
        have hrest : valuesFor name rest = [] :=
          Classical.byContradiction fun hsome => hnew (valuesFor_ne_nil_iff.mp hsome)
        rcases List.mem_cons.mp ha with rfl | ha
        · rw [if_pos hname, hrest]
        · exact absurd (List.mem_filterMap.mpr ⟨a, ha, hname⟩) hnew
      · rcases List.mem_cons.mp ha with rfl | ha
        · exact absurd hname hb
        · rw [if_neg hb]
          refine ih ?_ ha
          rw [assignedNames, List.filterMap_cons] at h
          split at h
          · exact h
          · exact (List.nodup_cons.mp h).2

/-- What is assigned is assigned to expressions without a name, and then to names. -/
theorem parts_perm (hvalid : hasInvalid as = false) {pick : String → Expr}
    (hpick : ∀ a ∈ as, ∀ name, a.target.name? = some name → pick name = a.value) :
    ((namelessValues as).map (fun p => placed (.inl p.1) p.2) ++
      (assignedNames as).map fun c => placed (.inr c) (pick c)).Perm (placedBy as) := by
  induction as with
  | nil => exact .nil
  | cons a rest ih =>
      rw [hasInvalid, List.any_cons, Bool.or_eq_false_iff] at hvalid
      have hrest := ih hvalid.2 fun b hb => hpick b (List.mem_cons_of_mem _ hb)
      rw [placedBy, List.map_cons]
      obtain ⟨name, hname, hheading, hnames, hnameless⟩ | ⟨e, hheading, hnames, hnameless⟩ |
        ⟨hinvalid, -, -⟩ := parts_cons a rest
      · rw [hnames, hnameless, hheading, List.map_cons, hpick a List.mem_cons_self name hname]
        exact List.perm_middle.trans (hrest.cons _)
      · rw [hnames, hnameless, hheading, List.map_cons, List.cons_append]
        exact hrest.cons _
      · rw [hinvalid] at hvalid
        cases hvalid.1

end Rows

/-! ## Rows as they are read -/

/-- What a row assigns before anything is written over: each of its values to what its column
assigns to by itself, as far as both go. -/
def Drawn (columns row : List Value) (as : List Assignment) : Prop :=
  as.map (fun a => (some a.target, (.ok a.value : Except Error Expr))) =
    (columns.zip row).map fun p => (ownTarget? p.1, (valueOf p.2).map exprOf)

/-- A row that is read is drawn from its columns. -/
theorem drawn_of_readCells {c : Catalog} {into : Changed} {columns : List Value}
    {keys : List (Target ⊕ Value)} (hkeys : columns.mapM (readKey c into) = .ok keys)
    {row : List Value} {as : List Assignment} (h : (keys.zip row).mapM readCell = .ok as) :
    Drawn columns row as := by
  induction columns generalizing keys row as with
  | nil =>
      cases hkeys
      cases h
      rfl
  | cons column rest ih =>
      rw [List.mapM_cons] at hkeys
      obtain ⟨key, hkey, hkeys⟩ := bind_eq_ok hkeys
      obtain ⟨others, hothers, hkeys⟩ := bind_eq_ok hkeys
      cases hkeys
      cases row with
      | nil =>
          cases h
          rfl
      | cons v more =>
          rw [List.zip_cons_cons, List.mapM_cons] at h
          obtain ⟨a, ha, h⟩ := bind_eq_ok h
          obtain ⟨as', has', h⟩ := bind_eq_ok h
          cases h
          obtain ⟨htarget, w, hw, hvalue⟩ := of_readCell ha
          have hrest := ih hothers has'
          rw [Drawn] at hrest
          rw [Drawn, List.zip_cons_cons, List.map_cons, List.map_cons, hrest, htarget, hvalue,
            ownTarget?_of_readKey hkey, hw]
          rfl

/-- Rows that are read are drawn from the columns, before anything is written over. -/
theorem drawn_of_readRows {c : Catalog} {into : Changed} {columns : List Value}
    {rows : List (List Value)} {table : List (List Assignment)}
    (h : readRows c into columns rows = .ok table) :
    ∃ raw : List (List Assignment), table = raw.map assignAll ∧
      List.Forall₂ (Drawn columns) rows raw := by
  obtain ⟨keys, hkeys, h⟩ := bind_eq_ok h
  obtain ⟨raw, hraw, h⟩ := bind_eq_ok h
  cases h
  exact ⟨raw, rfl, (forall₂_of_mapM hraw).imp fun row as h => drawn_of_readCells hkeys h⟩

namespace Drawn

variable {columns row : List Value} {as : List Assignment}

/-- What a drawn row assigns is what is given. -/
theorem placedBy_eq (h : Drawn columns row as) : placedBy as = given columns row := by
  have hmap := congrArg (List.map fun p : Option Target × Except Error Expr =>
    ((p.1.bind Target.heading?, p.2) : Placed)) h
  rw [List.map_map, List.map_map] at hmap
  exact hmap

/-- A drawn row is as long as the shorter of the columns and the row. -/
theorem length_eq (h : Drawn columns row as) : as.length = min columns.length row.length := by
  have hlength := congrArg List.length h
  rw [List.length_map, List.length_map, List.length_zip] at hlength
  exact hlength

/-- Its targets are those of the columns that it reaches. -/
theorem targets_eq (h : Drawn columns row as) (hrow : row.length ≤ columns.length) :
    as.map (fun a => some a.target) = (columns.take row.length).map ownTarget? := by
  have hfst : (columns.zip row).map Prod.fst = columns.take row.length := by
    rw [List.zip_eq_zip_take_min, Nat.min_eq_right hrow]
    exact List.map_fst_zip (by rw [List.length_take, List.length_take]; omega)
  have hmap := congrArg (List.map Prod.fst) h
  rw [List.map_map, List.map_map] at hmap
  rw [← hfst, List.map_map]
  exact hmap

/-- A drawn row assigns to the names of the columns that it reaches. -/
theorem assignedNames_eq (h : Drawn columns row as) (hrow : row.length ≤ columns.length) :
    assignedNames as = (columns.take row.length).filterMap keyName? := by
  have hmap := congrArg (List.filterMap fun t : Option Target => t.bind Target.name?)
    (h.targets_eq hrow)
  rw [List.filterMap_map, List.filterMap_map] at hmap
  exact hmap

end Drawn

/-- Rows that reach as far assign to the same expressions without a name, and to the same names. -/
theorem parts_of_targets {as as' : List Assignment}
    (h : as.map (fun a => some a.target) = as'.map fun a => some a.target) :
    (namelessValues as).map Prod.fst = (namelessValues as').map Prod.fst ∧
      assignedNames as = assignedNames as' := by
  have hnameless : ∀ as : List Assignment, (namelessValues as).map Prod.fst =
      (as.map fun a => some a.target).filterMap fun t =>
        (t.bind Target.heading?).bind Sum.getLeft? := by
    intro as
    rw [namelessValues, List.map_filterMap, List.filterMap_map]
    refine List.filterMap_congr fun a _ => ?_
    obtain ⟨target, value⟩ := a
    cases target <;> rfl
  have hnames := congrArg (List.filterMap fun t : Option Target => t.bind Target.name?) h
  rw [List.filterMap_map, List.filterMap_map] at hnames
  exact ⟨by rw [hnameless, hnameless, h], hnames⟩

/-! ## What is kept -/

/-- The grid of an INSERT keeps the values that are given for columns. -/
structure Keeps (d : Dialect) (columns : List Value) (rows : List (List Value)) (g : Grid) : Prop where
  /-- No row is left out, as where a dialect has words for a single row without columns. -/
  all : g.headings = [] → d ≠ .standard → rows.length = 1
  /-- In order, each row has each of its values once, under the heading of its column. -/
  rows : List.Forall₂ (fun row values => row.length ≤ columns.length ∧
    values.length = g.headings.length ∧ (under g.headings values).Perm (given columns row))
      rows g.rows

/-- In a row all expressions without a name have the same value. -/
def NamelessAlike (columns row : List Value) : Prop :=
  ∀ p ∈ columns.zip row, ∀ p' ∈ columns.zip row, keyName? p.1 = none → keyName? p'.1 = none →
    (valueOf p.2).map exprOf = (valueOf p'.2).map exprOf

/-- The rows fit the columns, of which they reach as many as they are long. -/
structure Fits (d : Dialect) (columns : List Value) (rows : List (List Value)) (k : Nat) : Prop where
  reached : k ≤ columns.length
  lengths : ∀ row ∈ rows, row.length = k
  /-- No column is named twice. -/
  distinct : ((columns.take k).filterMap keyName?).Nodup
  /-- Below the first row, expressions without a name are not told apart. -/
  alike : ∀ row ∈ rows.tail, NamelessAlike columns row
  /-- A row without values is the only one, where there are words for it. -/
  single : k = 0 → d ≠ .standard → rows.length = 1

section Grids

variable {d : Dialect} {known : List String} {raw : List Assignment}
  {others : List (List Assignment)}

/-- There are no more headings than expressions without a name and different names. -/
theorem length_headings_le (hknown : known.Nodup) :
    (gridOf known (assignAll raw :: others)).headings.length ≤
      (namelessValues raw).length + (assignedNames raw).dedup.length := by
  have hlisted : (known.filter (· ∈ assignedNames (assignAll raw))).length ≤
      (assignedNames raw).dedup.length := by
    refine (List.Nodup.subperm (hknown.filter _) fun name hname => ?_).length_le
    exact List.mem_dedup.mpr
      (names_assignAll (of_decide_eq_true (List.mem_filter.mp hname).2))
  rw [gridOf]
  dsimp only
  rw [List.length_append, List.length_map, List.length_map, namelessValues_assignAll]
  exact Nat.add_le_add_left hlisted _

/-- As many headings as assignments leave no name for two of them. -/
theorem nodup_of_length_headings (hknown : known.Nodup)
    (h : (gridOf known (assignAll raw :: others)).headings.length = raw.length) :
    (assignedNames raw).Nodup := by
  have hheadings := @length_headings_le known raw others hknown
  have hparts := length_parts_le raw
  have hdedup := List.dedup_sublist (assignedNames raw)
  refine List.dedup_eq_self.mp (hdedup.eq_of_length (Nat.le_antisymm hdedup.length_le ?_))
  omega

/-- Under headings without a name a later row has one value. -/
theorem under_later (nameless : List (Expr × Expr)) (columns : List String)
    (as : List Assignment) :
    under (nameless.map (fun p => .inl p.1) ++ columns.map .inr)
        (laterValues nameless.length columns as) =
      nameless.map (fun p => placed (.inl p.1) (lastOf ((namelessValues as).map Prod.snd))) ++
        columns.map fun c => placed (.inr c) (lastOf (valuesFor c as)) := by
  rw [laterValues, ← List.map_const']
  exact under_row (fun _ => lastOf ((namelessValues as).map Prod.snd)) fun c => lastOf (valuesFor c as)

/-- Under the headings of a grid the first row has each first value. -/
theorem under_first (columns : List String) (as : List Assignment) :
    under ((namelessValues as).map (fun p => .inl p.1) ++ columns.map .inr)
        (firstValues columns as) =
      (namelessValues as).map (fun p => placed (.inl p.1) p.2) ++
        columns.map fun c => placed (.inr c) (firstOf (valuesFor c as)) :=
  under_row Prod.snd fun c => firstOf (valuesFor c as)

/-- Columns that are different, known and named are the names in another order. -/
theorem listed_perm (hknown : known.Nodup) {names : List String} (hnodup : names.Nodup)
    (hnames : ∀ name ∈ names, name ∈ known) : (known.filter (· ∈ names)).Perm names := by
  refine (List.perm_ext_iff_of_nodup (hknown.filter _) hnodup).mpr fun name => ?_
  rw [List.mem_filter, decide_eq_true_iff]
  exact ⟨fun h => h.2, fun h => ⟨hnames name h, h⟩⟩

/-- Of a row that names nothing twice the grid has everything, if one value is had for all
expressions without a name. -/
theorem row_perm (hknown : known.Nodup) {as : List Assignment} (hvalid : hasInvalid as = false)
    (hnodup : (assignedNames as).Nodup) (hnames : ∀ name ∈ assignedNames as, name ∈ known)
    {pick : List Expr → Expr} (hpick : ∀ e, pick [e] = e) :
    ((namelessValues as).map (fun p => placed (.inl p.1) p.2) ++
      (known.filter (· ∈ assignedNames as)).map fun c => placed (.inr c) (pick (valuesFor c as))).Perm
        (placedBy as) := by
  refine List.Perm.trans ?_ (@parts_perm as hvalid (fun c => pick (valuesFor c as)) ?_)
  · exact ((listed_perm hknown hnodup hnames).map _).append_left _
  · intro a ha name hname
    rw [valuesFor_of_nodup hnodup ha hname, hpick]

/-- An expression without a name stands in a column that names nothing. -/
theorem Drawn.of_nameless {columns row : List Value} {as : List Assignment}
    (h : Drawn columns row as) {e : Expr × Expr} (he : e ∈ namelessValues as) :
    ∃ p ∈ columns.zip row, keyName? p.1 = none ∧ (valueOf p.2).map exprOf = .ok e.2 := by
  obtain ⟨a, ha, hpart⟩ := List.mem_filterMap.mp he
  have hmem : (some a.target, (.ok a.value : Except Error Expr)) ∈
      (columns.zip row).map fun p => (ownTarget? p.1, (valueOf p.2).map exprOf) :=
    h ▸ List.mem_map_of_mem ha
  obtain ⟨p, hp, heq⟩ := List.mem_map.mp hmem
  obtain ⟨htarget, hvalue⟩ := Prod.mk.injEq .. ▸ heq
  split at hpart
  · rename_i e' hnameless
    cases hpart
    refine ⟨p, hp, ?_, hvalue⟩
    rw [keyName?, htarget, hnameless]
    rfl
  · cases hpart

/-- A value that all expressions without a name have is the last of their values. -/
theorem Drawn.lastOf_nameless {columns row : List Value} {as : List Assignment}
    (h : Drawn columns row as) (halike : NamelessAlike columns row) {e : Expr × Expr}
    (he : e ∈ namelessValues as) : lastOf ((namelessValues as).map Prod.snd) = e.2 := by
  have hne : (namelessValues as).map Prod.snd ≠ [] := List.ne_nil_of_mem (List.mem_map_of_mem he)
  rw [lastOf, List.getLast?_eq_some_getLast hne, Option.getD_some]
  obtain ⟨e', he', hlast⟩ := List.mem_map.mp (List.getLast_mem hne)
  obtain ⟨p, hp, hname, hvalue⟩ := h.of_nameless he
  obtain ⟨p', hp', hname', hvalue'⟩ := h.of_nameless he'
  have hok := halike p' hp' p hp hname' hname
  rw [hvalue, hvalue'] at hok
  exact hlast.symm.trans (Except.ok.inj hok)

/-- A value whose heading is a name has this name as a key. -/
theorem keyName?_of_heading {v : Value} {name : String}
    (h : (ownTarget? v).bind Target.heading? = some (.inr name)) : keyName? v = some name := by
  rw [keyName?]
  obtain ⟨t, ht, hheading⟩ := Option.bind_eq_some_iff.mp h
  rw [ht]
  cases t with
  | column c =>
      cases hheading
      rfl
  | named c =>
      cases hheading
      rfl
  | nameless e => cases hheading
  | invalid => cases hheading

/-- What a row of the grid keeps of an expression without a name is the one value that the row has
for all of them. -/
theorem value_of_nameless {columns row : List Value} {nameless : List (Expr × Expr)}
    {listed : List String} {as : List Assignment}
    (h : (under (nameless.map (fun p => .inl p.1) ++ listed.map .inr)
      (laterValues nameless.length listed as)).Perm (given columns row))
    {p : Value × Value} (hp : p ∈ columns.zip row) (hname : keyName? p.1 = none) :
    (valueOf p.2).map exprOf = .ok (lastOf ((namelessValues as).map Prod.snd)) := by
  have hgiven := h.mem_iff.mpr (List.mem_map_of_mem hp)
  rw [under_later, List.mem_append, List.mem_map, List.mem_map] at hgiven
  obtain ⟨e, -, heq⟩ | ⟨c, -, heq⟩ := hgiven
  · exact (Prod.mk.inj heq).2.symm
  · rw [keyName?_of_heading (Prod.mk.inj heq).1.symm] at hname
    cases hname

variable {columns : List Value} {rows : List (List Value)} {raws : List (List Assignment)}

/-- What the grid keeps fits: counting its headings tells that no two values go to one column, and
the pairs of a later row tell its values for expressions without a name. -/
theorem fits_of_keeps (hknown : known.Nodup) (hdrawn : List.Forall₂ (Drawn columns) rows raws)
    (hrows : rows ≠ []) (h : Keeps d columns rows (gridOf known (raws.map assignAll))) :
    Fits d columns rows (gridOf known (raws.map assignAll)).headings.length := by
  obtain ⟨hall, hkept⟩ := h
  have hlengths : ∀ row ∈ rows, row.length ≤ columns.length ∧
      row.length = (gridOf known (raws.map assignAll)).headings.length := by
    refine ((List.forall₂_and_left _ _).mp (hkept.imp fun row values hrow => ⟨⟨hrow.1, ?_⟩, hrow⟩)).1
    rw [← length_given hrow.1, ← hrow.2.2.length_eq, length_under hrow.2.1]
  cases hdrawn with
  | nil => exact absurd rfl hrows
  | @cons row raw rest raws hraw hrest =>
      obtain ⟨hreached, hlength⟩ := hlengths row List.mem_cons_self
      obtain ⟨-, hlater⟩ := List.forall₂_cons.mp hkept
      rw [List.forall₂_map_right_iff, List.forall₂_map_right_iff] at hlater
      refine ⟨hlength ▸ hreached, fun row hrow => (hlengths row hrow).2, ?_, ?_, ?_⟩
      · rw [← hlength, ← hraw.assignedNames_eq hreached]
        refine @nodup_of_length_headings known raw (raws.map assignAll) hknown ?_
        rw [hraw.length_eq, Nat.min_eq_right hreached, hlength]
        rfl
      · refine ((List.forall₂_and_left _ _).mp (hlater.imp fun row raw hkeeps => ⟨?_, hkeeps⟩)).1
        intro p hp p' hp' hname hname'
        rw [value_of_nameless hkeeps.2.2 hp hname, value_of_nameless hkeeps.2.2 hp' hname']
      · exact fun hnone => hall (List.length_eq_zero_iff.mp hnone)

theorem length_firstValues (listed : List String) (as : List Assignment) :
    (firstValues listed as).length = (namelessValues as).length + listed.length := by
  rw [firstValues, List.length_append, List.length_map, List.length_map]

theorem length_laterValues (nameless : Nat) (listed : List String) (as : List Assignment) :
    (laterValues nameless listed as).length = nameless + listed.length := by
  rw [laterValues, List.length_append, List.length_replicate, List.length_map]

/-- The first row of the grid has everything of a row that names nothing twice. -/
theorem first_perm (hknown : known.Nodup) {row : List Value} (hraw : Drawn columns row raw)
    (hvalid : hasInvalid raw = false) (hnodup : (assignedNames raw).Nodup)
    (hnames : ∀ name ∈ assignedNames raw, name ∈ known) :
    (under ((namelessValues raw).map (fun p => .inl p.1) ++
        (known.filter (· ∈ assignedNames raw)).map .inr)
      (firstValues (known.filter (· ∈ assignedNames raw)) raw)).Perm (given columns row) := by
  rw [under_first, ← hraw.placedBy_eq]
  exact row_perm hknown hvalid hnodup hnames fun e => rfl

/-- So has a later row that reaches as far, if its expressions without a name have the same
value. -/
theorem later_perm (hknown : known.Nodup) {row : List Value} {as : List Assignment}
    (has : Drawn columns row as) (hvalid : hasInvalid as = false)
    (hnodup : (assignedNames as).Nodup) (hnames : ∀ name ∈ assignedNames as, name ∈ known)
    (halike : NamelessAlike columns row)
    (htargets : raw.map (fun a => some a.target) = as.map fun a => some a.target) :
    (under ((namelessValues raw).map (fun p => .inl p.1) ++
        (known.filter (· ∈ assignedNames raw)).map .inr)
      (laterValues (namelessValues raw).length (known.filter (· ∈ assignedNames raw)) as)).Perm
        (given columns row) := by
  obtain ⟨hfst, hsame⟩ := parts_of_targets htargets
  have hparts : (namelessValues raw).map (fun p =>
        placed (.inl p.1) (lastOf ((namelessValues as).map Prod.snd))) =
      (namelessValues as).map fun p => placed (.inl p.1) p.2 := by
    have hmap := congrArg (List.map fun e : Expr =>
      placed (.inl e) (lastOf ((namelessValues as).map Prod.snd))) hfst
    rw [List.map_map, List.map_map] at hmap
    refine hmap.trans (List.map_congr_left fun e he => ?_)
    rw [Function.comp_apply, has.lastOf_nameless halike he]
  rw [under_later, hparts, hsame, ← has.placedBy_eq]
  exact row_perm hknown hvalid hnodup hnames fun e => rfl

/-- What fits is kept: nothing is written over, and all rows have what the first has. -/
theorem keeps_of_fits {k : Nat} (hknown : known.Nodup)
    (hdrawn : List.Forall₂ (Drawn columns) rows raws) (hrows : rows ≠ [])
    (hvalid : ∀ as ∈ raws.map assignAll, hasInvalid as = false)
    (hnames : ∀ as ∈ (raws.map assignAll).head?, ∀ name ∈ assignedNames as, name ∈ known)
    (h : Fits d columns rows k) : Keeps d columns rows (gridOf known (raws.map assignAll)) := by
  have hreached : ∀ row ∈ rows, row.length ≤ columns.length :=
    fun row hrow => h.lengths row hrow ▸ h.reached
  have hnodup : ∀ as ∈ raws, (assignedNames as).Nodup := by
    have hlong := (List.forall₂_and_left _ _).mpr ⟨h.lengths, hdrawn⟩
    refine ((List.forall₂_and_left _ _).mp (hlong.flip.imp fun as row hrow => ⟨?_, hrow⟩)).1
    rw [hrow.2.assignedNames_eq (hrow.1 ▸ h.reached), hrow.1]
    exact h.distinct
  have hsame : raws.map assignAll = raws :=
    (List.map_congr_left fun as has => assignAll_of_nodup (hnodup as has)).trans (List.map_id raws)
  rw [hsame] at hvalid hnames ⊢
  cases hdrawn with
  | nil => exact absurd rfl hrows
  | @cons row raw rest raws hraw hrest =>
      have hrow := hreached row List.mem_cons_self
      have hfirst := first_perm hknown hraw (hvalid raw List.mem_cons_self)
        (hnodup raw List.mem_cons_self) (hnames raw rfl)
      have hlength : (gridOf known (raw :: raws)).headings.length =
          (namelessValues raw).length + (known.filter (· ∈ assignedNames raw)).length := by
        rw [gridOf, List.length_append, List.length_map, List.length_map]
        rfl
      have hvalues := length_firstValues (known.filter (· ∈ assignedNames raw)) raw
      refine ⟨fun hnone => h.single ?_, .cons ⟨hrow, hvalues.trans hlength.symm, hfirst⟩ ?_⟩
      · have hempty := (length_under (hvalues.trans hlength.symm)).symm.trans hfirst.length_eq
        rw [hnone, length_given hrow] at hempty
        exact (h.lengths row List.mem_cons_self).symm.trans hempty.symm
      · obtain ⟨hsize, hall⟩ := List.forall₂_iff_zip.mp hrest
        rw [List.forall₂_map_right_iff]
        refine List.forall₂_iff_zip.mpr ⟨hsize, fun {later as} hmem => ?_⟩
        obtain ⟨hlater, has⟩ := List.of_mem_zip hmem
        have hlater' := List.mem_cons_of_mem row hlater
        have has' := List.mem_cons_of_mem raw has
        have htargets : raw.map (fun a => some a.target) = as.map fun a => some a.target := by
          rw [hraw.targets_eq hrow, (hall hmem).targets_eq (hreached later hlater'),
            h.lengths row List.mem_cons_self, h.lengths later hlater']
        refine ⟨hreached later hlater', (length_laterValues _ _ _).trans hlength.symm, ?_⟩
        exact later_perm hknown (hall hmem) (hvalid as has') (hnodup as has')
          ((parts_of_targets htargets).2 ▸ hnames raw rfl) (h.alike later hlater) htargets

end Grids

/-- **KEPT IS WHAT FITS**: the words of an INSERT that can be written, with columns and rows, are
those of a grid.  The grid keeps what the query gives, in each row every value once under the
heading of its column, exactly if the rows fit the columns. -/
theorem keeps_iff_fits {q : Query} {d : Dialect} {mode : Values} {p : Page} {into : Changed}
    {rows : Option (List (List Assignment))}
    (h : readStatement q .insert = .ok (.insert into rows))
    (hcolumns : q.columns ≠ []) (hrows : q.rows ≠ [])
    (hp : Page.tokens d mode {} ((Statement.insert into rows).tokens d) = .ok p) :
    ∃ table, rows = some table ∧ insertRows into rows = (gridOf into.columns table).words ∧
      (Keeps d q.columns q.rows (gridOf into.columns table) ↔
        ∃ k, Fits d q.columns q.rows k) := by
  obtain ⟨entries, -, htarget, hreads⟩ := reads_of_writes h rfl
  obtain ⟨-, -, -, -, -, hknown, -⟩ := target_columns htarget
  have hfault {cause : Error} : .fault cause ∉ (insertRows into rows).rows.flatten :=
    fun hmem => fault_not_mem hp cause (mem_insertTokens hmem)
  cases hreads with
  | emptyInsert hnone => exact absurd hnone (not_or.mpr ⟨hcolumns, hrows⟩)
  | insert _ _ htable =>
      obtain ⟨raws, rfl, hdrawn⟩ := drawn_of_readRows htable
      have hraws : raws ≠ [] := by
        rintro rfl
        exact hrows (List.forall₂_nil_right_iff.mp hdrawn)
      obtain ⟨raw, others, rfl⟩ := List.exists_cons_of_ne_nil hraws
      obtain ⟨hvalid, hnames, hwords⟩ := insertRows_eq_words fun cause => hfault
      refine ⟨_, rfl, hwords, fun hkeeps => ⟨_, fits_of_keeps hknown hdrawn hrows hkeeps⟩, ?_⟩
      rintro ⟨k, hfits⟩
      refine keeps_of_fits hknown hdrawn hrows hvalid ?_ hfits
      rintro as ⟨⟩
      exact hnames

/-- One title for posts, with a value more. -/
def titleAndMore : Query :=
  { tables := [(.text "posts", .null)]
    filter := []
    having := []
    columns := [.text "title"]
    rows := [[.int 1, .int 2]] }

/-- The value that is more is lost. -/
theorem second_value_lost :
    ∃ into rows table, readStatement titleAndMore .insert = .ok (.insert into rows) ∧
      rows = some table ∧
      ((Statement.insert into rows).render .standard .written).map (·.text) =
        .ok "INSERT INTO posts (title) VALUES (1)" ∧
      ¬ Keeps .standard titleAndMore.columns titleAndMore.rows (gridOf into.columns table) := by
  have hfits : ¬ ∃ k, Fits .standard titleAndMore.columns titleAndMore.rows k := by
    rintro ⟨k, hfits⟩
    have hreached := hfits.reached
    rw [← hfits.lengths _ List.mem_cons_self] at hreached
    exact absurd hreached (by decide)
  obtain ⟨table, htable, -, hkeeps⟩ := @keeps_iff_fits titleAndMore .standard .written _ _ _ rfl
    (List.cons_ne_nil _ _) (List.cons_ne_nil _ _) rfl
  exact ⟨_, _, table, rfl, htable, by decide +kernel, fun h => hfits (hkeeps.mp h)⟩

end ModelQuery.Sql
