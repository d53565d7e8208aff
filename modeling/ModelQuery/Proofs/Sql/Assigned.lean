import ModelQuery.Proofs.Sql.References
import ModelQuery.Sql.Text

/-!
# What is assigned to

A statement that changes rows lists the columns of its table that it has values for.  A value left
over for something else leaves a fault among the tokens, and tokens with a fault are no text.  So
what can be written assigns to columns of the changed table only (`assigned_of_written`).
-/

namespace ModelQuery.Sql

open Outcome

/-! ## Faults -/

/-- Tokens among which there is a fault cannot be written. -/
theorem fault_not_mem {d : Dialect} {mode : Values} {p p' : Page} {ts : List Token}
    (h : p.tokens d mode ts = .ok p') (cause : Error) : .fault cause ∉ ts := by
  induction ts generalizing p with
  | nil => exact List.not_mem_nil
  | cons t rest ih =>
      rw [Page.tokens] at h
      obtain ⟨q, hq, hrest⟩ := bind_eq_ok h
      intro hmem
      rcases List.mem_cons.mp hmem with rfl | hmem
      · cases hq
      · exact ih hrest hmem

/-- What stands in one of the groups stands among them when they are separated. -/
theorem mem_separated {sep : String} {t : Token} {group : List Token} {groups : List (List Token)}
    (hgroup : group ∈ groups) (ht : t ∈ group) : t ∈ separated sep groups := by
  induction groups with
  | nil => cases hgroup
  | cons first rest ih =>
      cases rest with
      | nil =>
          rw [List.mem_singleton.mp hgroup] at ht
          exact ht
      | cons second more =>
          rw [separated]
          · rcases List.mem_cons.mp hgroup with rfl | hmem
            · exact List.mem_append_left _ (List.mem_append_left _ ht)
            · exact List.mem_append_right _ (ih hmem)
          · exact List.cons_ne_nil second more

theorem mem_rowTokens {t : Token} {values : List (List Token)} {ts : List Token}
    (hts : ts ∈ values) (ht : t ∈ ts) : t ∈ rowTokens values :=
  List.mem_append_left _ (List.mem_append_right _ (mem_separated hts ht))

/-- Without a value left over, everything that is assigned to by name is a column. -/
theorem names_of_no_fault {columns : List String} {as : List Assignment}
    (h : .fault .unrenderable ∉ leftoverFault columns as) {name : String}
    (hname : name ∈ as.filterMap (·.target.name?)) : name ∈ columns := by
  rw [leftoverFault] at h
  split at h
  · rename_i hall
    obtain ⟨a, ha, htarget⟩ := List.mem_filterMap.mp hname
    have hcolumn := List.all_eq_true.mp hall a ha
    rw [htarget] at hcolumn
    exact List.contains_iff_mem.mp hcolumn
  · exact absurd List.mem_cons_self h

/-! ## Statements -/

/-- The names that a statement assigns to: all columns where it is given no values, else those it is
given values for.  Of an INSERT the first row has them. -/
def Statement.assigned : Statement → List String
  | .update into none _ => into.columns
  | .update _ (some as) _ => as.filterMap (·.target.name?)
  | .insert into none => into.columns
  | .insert _ (some rows) => (rows.head?.getD []).filterMap (·.target.name?)
  | _ => []

/-- Without a fault an UPDATE assigns only known columns. -/
theorem update_assigned {d : Dialect} {mode : Values} {p : Page} {into : Changed}
    {as : Option (List Assignment)} {filter : Option Filter}
    (h : Page.tokens d mode {} ((Statement.update into as filter).tokens d) = .ok p) {name : String}
    (hname : name ∈ (Statement.update into as filter).assigned) : name ∈ into.columns := by
  cases as with
  | none => exact hname
  | some as =>
      refine names_of_no_fault (fun hleft => fault_not_mem h .unrenderable ?_) hname
      have hset : .fault .unrenderable ∈ setTokens into (some as) :=
        List.mem_append_right _ hleft
      exact List.mem_append_left _ (List.mem_append_left _ (List.mem_append_right _ hset))

/-- A fault in a row of an INSERT shows in its tokens, even where no row is written. -/
theorem mem_insertTokens {d : Dialect} {into : Changed} {rows : Option (List (List Assignment))}
    {cause : Error} (h : .fault cause ∈ (insertRows into rows).rows.flatten) :
    .fault cause ∈ insertTokens d into rows := by
  obtain ⟨row, hrow, ht⟩ := List.mem_flatten.mp h
  rw [insertTokens]
  refine List.mem_append_left _ (List.mem_append_right _ ?_)
  -- where no row is written, its faults are
  split
  · exact List.mem_append_right _ (List.mem_filter.mpr ⟨h, rfl⟩)
  · exact List.mem_append_right _ (mem_separated hrow ht)

/-- Without a fault an INSERT assigns only known columns. -/
theorem insert_assigned {d : Dialect} {mode : Values} {p : Page} {into : Changed}
    {rows : Option (List (List Assignment))}
    (h : Page.tokens d mode {} ((Statement.insert into rows).tokens d) = .ok p) {name : String}
    (hname : name ∈ (Statement.insert into rows).assigned) : name ∈ into.columns := by
  match rows with
  | none => exact hname
  | some [] => cases hname
  | some (first :: later) =>
      refine names_of_no_fault (fun hleft => fault_not_mem h .unrenderable ?_) hname
      refine mem_insertTokens (List.mem_flatten.mpr ⟨_, List.mem_cons_self, ?_⟩)
      exact List.mem_append_right _ hleft

/-- **ONLY COLUMNS ARE ASSIGNED TO**: a statement that was read and can be written assigns to
columns of the table it changes. -/
theorem assigned_of_written {f : Frame} {q : Query} {kind : Kind} {s : Statement}
    (hs : readIn f q kind = .ok s) {d : Dialect} {mode : Values} {p : Page}
    (hp : Page.tokens d mode {} (s.tokens d) = .ok p) {name : String} (hname : name ∈ s.assigned) :
    ∃ into, readTarget f kind = .ok into ∧ name ∈ into.columns := by
  cases kind with
  | select =>
      obtain ⟨select, -, hs⟩ := bind_eq_ok hs
      cases hs
      cases hname
  | update =>
      obtain ⟨into, hinto, hs⟩ := bind_eq_ok hs
      obtain ⟨filter, -, hs⟩ := bind_eq_ok hs
      refine ⟨into, hinto, ?_⟩
      split at hs
      · cases hs
        exact update_assigned hp hname
      · obtain ⟨as, -, hs⟩ := bind_eq_ok hs
        cases hs
        exact update_assigned hp hname
  | insert =>
      obtain ⟨into, hinto, hs⟩ := bind_eq_ok hs
      refine ⟨into, hinto, ?_⟩
      split at hs
      · cases hs
        exact insert_assigned hp hname
      · obtain ⟨rows, -, hs⟩ := bind_eq_ok hs
        cases hs
        exact insert_assigned hp hname
  | delete =>
      obtain ⟨into, -, hs⟩ := bind_eq_ok hs
      obtain ⟨filter, -, hs⟩ := bind_eq_ok hs
      cases hs
      cases hname

end ModelQuery.Sql
