import Mathlib.Data.List.Perm.Basic
import ModelQuery.Proofs.Sql.Listed

/-!
# The order of known columns

Of the columns that are known of a changed table, its words have those that something is assigned
to, in the order of the table.  So a statement has the same words whatever else is known
(`tokens_filter`), and the same words in another order if the columns are in another order
(`tokens_perm`).
-/

namespace ModelQuery.Sql

/-! ## Other known columns -/

namespace Statement

/-- The columns that are known of the table that is changed. -/
def known : Statement → List String
  | .update into _ _ | .insert into _ | .delete into _ => into.columns
  | _ => []

/-- The statement with other columns known of the table that is changed. -/
def withColumns (columns : List String) : Statement → Statement
  | .update into as filter => .update { into with columns } as filter
  | .insert into rows => .insert { into with columns } rows
  | .delete into filter => .delete { into with columns } filter
  | s => s

/-- All that is assigned to by name is known. -/
def Complete (s : Statement) : Prop := ∀ name ∈ s.assigned, name ∈ s.known

theorem withColumns_withColumns (s : Statement) (columns columns' : List String) :
    (s.withColumns columns).withColumns columns' = s.withColumns columns' := by
  cases s <;> rfl

/-- What can be written is complete. -/
theorem complete_of_written {s : Statement} {d : Dialect} {mode : Values} {p : Page}
    (h : Page.tokens d mode {} (s.tokens d) = .ok p) : s.Complete := by
  intro name hname
  cases s with
  | update into as filter => exact update_assigned h hname
  | insert into rows => exact insert_assigned h hname
  | _ => cases hname

end Statement

/-- Columns that nothing is assigned to may be left out. -/
theorem columnValues_filter {columns : List String} {as : List Assignment} {names : List String}
    (h : names = as.filterMap (·.target.name?)) :
    columnValues (columns.filter (· ∈ names)) as = columnValues columns as := by
  subst h
  rw [columnValues_eq, columnValues_eq, List.filter_filter]
  simp only [Bool.and_self]

/-- Whether something is left over depends on the columns that are assigned to. -/
theorem leftoverFault_filter {columns : List String} {as : List Assignment} {names : List String}
    (h : names = as.filterMap (·.target.name?)) :
    leftoverFault (columns.filter (· ∈ names)) as = leftoverFault columns as := by
  have hall : ∀ a ∈ as, ((a.target.name?.map fun c =>
      (columns.filter (· ∈ names)).contains c).getD true) =
        (a.target.name?.map fun c => columns.contains c).getD true := by
    intro a ha
    cases hname : a.target.name? with
    | none => rfl
    | some c =>
        have hc : c ∈ names := h ▸ List.mem_filterMap.mpr ⟨a, ha, hname⟩
        show (columns.filter (· ∈ names)).contains c = columns.contains c
        rw [Bool.eq_iff_iff, List.contains_iff_mem, List.contains_iff_mem, List.mem_filter]
        exact ⟨fun h => h.1, fun h => ⟨h, decide_eq_true hc⟩⟩
  have hsame : (as.all fun a => (a.target.name?.map fun c =>
      (columns.filter (· ∈ names)).contains c).getD true) =
        as.all fun a => (a.target.name?.map fun c => columns.contains c).getD true := by
    rw [Bool.eq_iff_iff, List.all_eq_true, List.all_eq_true]
    exact forall₂_congr fun a ha => by rw [hall a ha]
  rw [leftoverFault, leftoverFault, hsame]

/-- The words of a statement hang on the columns that it assigns to alone. -/
theorem tokens_filter (s : Statement) (d : Dialect) :
    (s.withColumns (s.known.filter (· ∈ s.assigned))).tokens d = s.tokens d := by
  have hall : ∀ columns : List String, columns.filter (· ∈ columns) = columns :=
    fun columns => List.filter_eq_self.mpr fun c hc => decide_eq_true hc
  match s with
  | .update into none filter =>
      show updateTokens { into with columns := into.columns.filter (· ∈ into.columns) } _ _ = _
      rw [hall]
      rfl
  | .update into (some as) filter =>
      have hset : setTokens ⟨into.source, into.columns.filter
          (· ∈ as.filterMap (·.target.name?))⟩ (some as) = setTokens into (some as) := by
        rw [setTokens, setTokens, columnValues_filter rfl, leftoverFault_filter rfl]
      show updateTokens ⟨into.source, into.columns.filter
        (· ∈ as.filterMap (·.target.name?))⟩ (some as) filter = _
      rw [updateTokens, hset]
      rfl
  | .insert into none =>
      show insertTokens d { into with columns := into.columns.filter (· ∈ into.columns) } _ = _
      rw [hall]
      rfl
  | .insert into (some []) => rfl
  | .insert into (some (first :: later)) =>
      have hrows : insertRows ⟨into.source, into.columns.filter
          (· ∈ first.filterMap (·.target.name?))⟩ (some (first :: later)) =
            insertRows into (some (first :: later)) := by
        rw [insertRows, insertRows]
        dsimp only
        rw [columnValues_filter rfl, leftoverFault_filter rfl]
      show insertTokens d ⟨into.source, into.columns.filter
        (· ∈ first.filterMap (·.target.name?))⟩ (some (first :: later)) = _
      rw [insertTokens, hrows]
      rfl
  | .delete into filter => rfl
  | .select s => rfl
  | .count tables filter => rfl

/-! ## Another order -/

/-- Groups that are separated have a word between any two. -/
theorem separated_perm_flatten (sep : String) (groups : List (List Token)) :
    (separated sep groups).Perm
      (groups.flatten ++ List.replicate (groups.length - 1) (.word sep)) := by
  induction groups with
  | nil => exact .nil
  | cons first rest ih =>
      cases rest with
      | nil =>
          rw [List.flatten_singleton]
          exact (List.append_nil first).symm ▸ .refl first
      | cons second more =>
          rw [separated, List.append_assoc, List.singleton_append, List.flatten_cons,
            List.append_assoc]
          · -- the word behind the first group goes to the words behind the others
            exact ((ih.cons _).trans List.perm_middle.symm).append_left first
          · exact List.cons_ne_nil second more

/-- As many groups of the same words, separated, are the same words. -/
theorem separated_perm_of_flatten (sep : String) {groups groups' : List (List Token)}
    (hlength : groups.length = groups'.length) (h : groups.flatten.Perm groups'.flatten) :
    (separated sep groups).Perm (separated sep groups') := by
  refine (separated_perm_flatten sep groups).trans ?_
  rw [hlength]
  exact (h.append_right _).trans (separated_perm_flatten sep groups').symm

/-- Groups in another order have the same words in another order. -/
theorem separated_perm (sep : String) {groups groups' : List (List Token)}
    (h : groups.Perm groups') : (separated sep groups).Perm (separated sep groups') :=
  separated_perm_of_flatten sep h.length_eq h.flatten

section Columns

variable {columns columns' : List String}

theorem columnValues_perm (h : columns.Perm columns') (as : List Assignment) :
    (columnValues columns as).Perm (columnValues columns' as) := h.filterMap _

/-- The order of the columns does not change what is left over. -/
theorem leftoverFault_perm (h : columns.Perm columns') (as : List Assignment) :
    leftoverFault columns as = leftoverFault columns' as := by
  rw [leftoverFault, leftoverFault]
  simp only [h.contains_eq]

/-- What is set is in the order of the columns. -/
theorem setTokens_perm (h : columns.Perm columns') (source : Source)
    (as : Option (List Assignment)) :
    (setTokens ⟨source, columns⟩ as).Perm (setTokens ⟨source, columns'⟩ as) := by
  cases as with
  | none => exact separated_perm _ (h.map _)
  | some as =>
      rw [setTokens, setTokens, leftoverFault_perm h]
      refine List.Perm.append_right _ (List.Perm.append_left _ (separated_perm _ ?_))
      exact ((columnValues_perm h as).map _).append_left _

theorem rowTokens_perm {values values' : List (List Token)} (h : values.Perm values') :
    (rowTokens values).Perm (rowTokens values') :=
  ((separated_perm _ h).append_left _).append_right _

/-- Columns and rows of an INSERT are in the order of the columns. -/
theorem insertRows_perm (h : columns.Perm columns') (source : Source)
    (rows : Option (List (List Assignment))) :
    (insertRows ⟨source, columns⟩ rows).columns.Perm (insertRows ⟨source, columns'⟩ rows).columns ∧
      List.Forall₂ List.Perm (insertRows ⟨source, columns⟩ rows).rows
        (insertRows ⟨source, columns'⟩ rows).rows := by
  match rows with
  | none => exact ⟨h.map _, .cons (rowTokens_perm (h.map _)) .nil⟩
  | some [] => exact ⟨.nil, .cons (.refl _) .nil⟩
  | some (first :: later) =>
      have hcells := columnValues_perm h first
      refine ⟨(hcells.map _).append_left _, .cons ?_ ?_⟩
      · dsimp only
        rw [leftoverFault_perm h]
        refine List.Perm.append_right _ (List.Perm.append_left _ (rowTokens_perm ?_))
        exact (hcells.map _).append_left _
      · rw [List.forall₂_map_left_iff, List.forall₂_map_right_iff, List.forall₂_same]
        refine fun as _ => List.Perm.append_left _ (rowTokens_perm ?_)
        exact ((hcells.map _).map _).append_left _

/-- **ANOTHER ORDER OF COLUMNS IS ANOTHER ORDER OF WORDS**: a statement has the same words in
another order if the columns of the table are in another order. -/
theorem tokens_perm (h : columns.Perm columns') (s : Statement) (d : Dialect) :
    ((s.withColumns columns).tokens d).Perm ((s.withColumns columns').tokens d) := by
  cases s with
  | update into as filter =>
      refine List.Perm.append_right _ (List.Perm.append_right _ ?_)
      exact (setTokens_perm h into.source as).append_left _
  | insert into rows =>
      obtain ⟨hcolumns, hrows⟩ := insertRows_perm h into.source rows
      have hflat := List.Perm.flatten_congr hrows
      refine List.Perm.append_right _ (List.Perm.append_left _ ?_)
      rw [hcolumns.isEmpty_eq]
      split
      · exact (hflat.filter _).append_left _
      · refine List.Perm.append ?_ (separated_perm_of_flatten _ hrows.length_eq hflat)
        exact ((rowTokens_perm hcolumns).append_left _).append_right _
  | _ => exact .refl _

end Columns

end ModelQuery.Sql
