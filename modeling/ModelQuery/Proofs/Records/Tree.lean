import ModelQuery.Records.Load

/-!
# Values by path

A tree holds at most one value at each path, and there is a tree below a path exactly when some
value lies further down.  Both are said here of one value put in (`value?_insert`,
`isSome_below?_insert`) and then of all the values of a row (`value?_treeOf`,
`isSome_below?_treeOf`), so that what a record is built from can be read off the labels of the row.
-/

namespace ModelQuery

namespace Tree

/-- The tree at the end of a path of relationships. -/
def below? : List String → Tree → Option Tree
  | [], t => some t
  | name :: rest, t => (t.related.lookup name).bind (below? rest)

/-- The value at the end of a path, whose last segment is a field. -/
def value? : List String → Tree → Option Value
  | [], _ => none
  | [field], t => t.own.lookup field
  | name :: second :: rest, t => (t.related.lookup name).bind (value? (second :: rest))

/-- No key stands twice, at whatever depth. -/
inductive Ordered : Tree → Prop where
  | node {own : List (String × Value)} {related : List (String × Tree)}
      (hown : (Assoc.keys own).Nodup) (hrelated : (Assoc.keys related).Nodup)
      (hbelow : ∀ e ∈ related, Ordered e.2) : Ordered (.node own related)

/-! ## Going down -/

/-- What holds of a tree as soon as it holds of the trees below its relationships holds of all. -/
theorem descend {P : Tree → Prop}
    (step : ∀ t, (∀ name c, t.related.lookup name = some c → P c) → P t) : ∀ t, P t
  | .node own related => by
      apply step
      intro name c h
      have hsize : sizeOf (name, c) < sizeOf related :=
        List.sizeOf_lt_of_mem (Assoc.mem_of_lookup h)
      exact descend step c
termination_by t => sizeOf t
decreasing_by
  simp only [Prod.mk.sizeOf_spec] at hsize
  simp only [node.sizeOf_spec]
  omega

theorem Ordered.own_nodup {t : Tree} (h : t.Ordered) : (Assoc.keys t.own).Nodup := by
  cases h with
  | node hown hrelated hbelow => exact hown

theorem Ordered.related_nodup {t : Tree} (h : t.Ordered) : (Assoc.keys t.related).Nodup := by
  cases h with
  | node hown hrelated hbelow => exact hrelated

theorem Ordered.lookup {t c : Tree} {name : String} (h : t.Ordered)
    (hc : t.related.lookup name = some c) : c.Ordered := by
  cases h with
  | node hown hrelated hbelow => exact hbelow (name, c) (Assoc.mem_of_lookup hc)

theorem ordered_empty : empty.Ordered := by
  refine .node List.nodup_nil List.nodup_nil ?_
  intro e he
  cases he

/-- A branch of an ordered tree is ordered. -/
theorem Ordered.branch {t : Tree} (h : t.Ordered) (name : String) : (t.branch name).Ordered := by
  rw [Tree.branch]
  cases hc : t.related.lookup name with
  | none => exact ordered_empty
  | some c => exact h.lookup hc

/-- Every tree below an ordered one is ordered. -/
theorem Ordered.descendant {t c : Tree} {path : List String} (h : t.Ordered)
    (hc : t.below? path = some c) : c.Ordered := by
  induction path generalizing t with
  | nil =>
      cases hc
      exact h
  | cons name rest ih =>
      obtain ⟨c', hc', hrest⟩ := Option.bind_eq_some_iff.mp hc
      exact ih (h.lookup hc') hrest

theorem value?_field (field : String) (t : Tree) : t.value? [field] = t.own.lookup field := rfl

theorem value?_cons {name : String} {path : List String} (h : path ≠ []) (t : Tree) :
    t.value? (name :: path) = (t.related.lookup name).bind (value? path) := by
  cases path with
  | nil => exact absurd rfl h
  | cons second rest => rfl

/-- A path in two parts is gone down part by part. -/
theorem below?_append (path more : List String) (t : Tree) :
    t.below? (path ++ more) = (t.below? path).bind (below? more) := by
  induction path generalizing t with
  | nil => rfl
  | cons name rest ih =>
      show (t.related.lookup name).bind (below? (rest ++ more)) = _
      have hrest : below? (rest ++ more) = fun t => (t.below? rest).bind (below? more) := funext ih
      rw [hrest, below?, Option.bind_assoc]

/-- A value at the end of two paths is one of the tree at the end of the first. -/
theorem value?_append {more : List String} (h : more ≠ []) (path : List String) (t : Tree) :
    t.value? (path ++ more) = (t.below? path).bind (value? more) := by
  induction path generalizing t with
  | nil => rfl
  | cons name rest ih =>
      have hne : rest ++ more ≠ [] := by
        intro hnil
        exact h (List.append_eq_nil_iff.mp hnil).2
      have hrest : value? (rest ++ more) = fun t => (t.below? rest).bind (value? more) := funext ih
      rw [List.cons_append, value?_cons hne, hrest, below?, Option.bind_assoc]

theorem value?_empty (path : List String) : empty.value? path = none := by
  cases path with
  | nil => rfl
  | cons name rest =>
      cases rest with
      | nil => rfl
      | cons second rest => rfl

theorem isSome_below?_empty (path : List String) : (empty.below? path).isSome ↔ path = [] := by
  cases path with
  | nil => exact ⟨fun _ => rfl, fun _ => rfl⟩
  | cons name rest =>
      constructor
      · intro h
        cases h
      · intro h
        cases h

/-! ## A value put in -/

/-- A branch has the values that the tree has below its relationship. -/
theorem value?_branch {path : List String} (name : String) (t : Tree) :
    (t.branch name).value? path = (t.related.lookup name).bind (value? path) := by
  rw [branch]
  cases t.related.lookup name with
  | none => exact value?_empty path
  | some c => rfl

/-- Below a branch stand the trees that the tree has below its relationship. -/
theorem below?_branch (name second : String) (rest : List String) (t : Tree) :
    (t.branch name).below? (second :: rest) =
      (t.related.lookup name).bind (below? (second :: rest)) := by
  rw [branch]
  cases t.related.lookup name with
  | none => rfl
  | some c => rfl

/-- A value put in is found at its path, and elsewhere what was there before. -/
theorem value?_insert (first : String) (v : Value) (rest path : List String) (t : Tree) :
    (t.insert first v rest).value? path =
      if path = first :: rest then some v else t.value? path := by
  -- along the path the value goes down; only a path with the same first segment can meet it
  induction rest generalizing first t path with
  | nil =>
      rcases path with _ | ⟨name, _ | ⟨second, more⟩⟩
      · rfl
      · show (Assoc.put first v t.own).lookup name = _
        by_cases h : name = first
        · subst h
          rw [if_pos rfl, Assoc.lookup_put_self]
        · rw [if_neg (by simpa using h), Assoc.lookup_put_of_ne h]
          rfl
      · rw [if_neg (by simp)]
        rfl
  | cons next rest ih =>
      rcases path with _ | ⟨name, _ | ⟨second, more⟩⟩
      · rfl
      · rw [if_neg (by simp)]
        rfl
      · show ((Assoc.put first (insert next v rest (t.branch first)) t.related).lookup name).bind
          (value? (second :: more)) = _
        by_cases h : name = first
        · subst h
          rw [Assoc.lookup_put_self, Option.bind_some, ih, value?_branch]
          simp only [List.cons.injEq, true_and]
          rfl
        · rw [Assoc.lookup_put_of_ne h, if_neg]
          · rfl
          · intro heq
            exact h (List.cons.inj heq).1

/-- A value put in opens the trees on the way to it, and no others. -/
theorem isSome_below?_insert (first : String) (v : Value) (rest path : List String) (t : Tree) :
    ((t.insert first v rest).below? path).isSome ↔
      (t.below? path).isSome ∨ ∃ more, more ≠ [] ∧ first :: rest = path ++ more := by
  cases path with
  | nil => exact ⟨fun _ => .inl rfl, fun _ => rfl⟩
  | cons name path =>
      induction rest generalizing first t name path with
      | nil =>
          constructor
          · intro h
            exact .inl h
          · rintro (h | ⟨more, hmore, heq⟩)
            · exact h
            · exact absurd (List.append_eq_nil_iff.mp (List.cons.inj heq).2.symm).2 hmore
      | cons next rest ih =>
          show (((Assoc.put first (insert next v rest (t.branch first)) t.related).lookup name).bind
            (below? path)).isSome ↔ _
          by_cases h : name = first
          · subst h
            rw [Assoc.lookup_put_self, Option.bind_some]
            rcases path with _ | ⟨second, path⟩
            · constructor
              · intro _
                exact .inr ⟨next :: rest, List.cons_ne_nil _ _, rfl⟩
              · intro _
                rfl
            · rw [ih, below?_branch]
              constructor
              · rintro (hb | ⟨more, hmore, heq⟩)
                · exact .inl hb
                · exact .inr ⟨more, hmore, congrArg (name :: ·) heq⟩
              · rintro (hb | ⟨more, hmore, heq⟩)
                · exact .inl hb
                · exact .inr ⟨more, hmore, (List.cons.inj heq).2⟩
          · rw [Assoc.lookup_put_of_ne h]
            constructor
            · intro hb
              exact .inl hb
            · rintro (hb | ⟨more, hmore, heq⟩)
              · exact hb
              · exact absurd (List.cons.inj heq).1.symm h

/-- A tree stays ordered with a value put into it. -/
theorem ordered_insert (first : String) (v : Value) (rest : List String) {t : Tree}
    (h : t.Ordered) : (t.insert first v rest).Ordered := by
  induction rest generalizing first t with
  | nil =>
      cases h with
      | node hown hrelated hbelow =>
          exact .node (Assoc.nodup_keys_put first v hown) hrelated hbelow
  | cons next rest ih =>
      have hbranch : ((t.branch first).insert next v rest).Ordered := ih next (h.branch first)
      cases h with
      | node hown hrelated hbelow =>
          refine .node hown (Assoc.nodup_keys_put first _ hrelated) ?_
          intro e he
          rcases Assoc.mem_put he with rfl | hmem
          · exact hbranch
          · exact hbelow e hmem

end Tree

/-! ## The values of a row -/

/-- The path of a column from its first segment on. -/
def segments (m : Model) (column : String) : List String :=
  (pathOf m column).1 :: (pathOf m column).2

section Rows

variable (m : Model)

/-- The values of a row put into a tree. -/
def filled (t : Tree) (cells : List (String × Value)) : Tree :=
  cells.foldl (fun t (column, v) => t.insert (pathOf m column).1 v (pathOf m column).2) t

/-- A tree stays ordered as the cells of a row are put into it. -/
theorem ordered_filled (cells : List (String × Value)) {t : Tree} (h : t.Ordered) :
    (filled m t cells).Ordered := by
  induction cells generalizing t with
  | nil => exact h
  | cons e rest ih => exact ih (Tree.ordered_insert _ _ _ h)

/-- A value of a filled tree is one of a cell, or was there. -/
theorem value?_filled {cells : List (String × Value)} {t : Tree} {path : List String} {v : Value}
    (h : (filled m t cells).value? path = some v) :
    (∃ e ∈ cells, segments m e.1 = path ∧ e.2 = v) ∨ t.value? path = some v := by
  induction cells generalizing t with
  | nil => exact .inr h
  | cons e rest ih =>
      rcases ih h with ⟨e', he', hpath, hv⟩ | hv
      · exact .inl ⟨e', List.mem_cons_of_mem _ he', hpath, hv⟩
      · rw [Tree.value?_insert] at hv
        split at hv
        · rename_i heq
          exact .inl ⟨e, List.mem_cons_self, heq.symm, Option.some.inj hv⟩
        · exact .inr hv

/-- Where all cells for a path agree, their value stands at its end. -/
theorem value?_filled_of {cells : List (String × Value)} {t : Tree} {path : List String} {v : Value}
    (hall : ∀ e ∈ cells, segments m e.1 = path → e.2 = v)
    (h : (∃ e ∈ cells, segments m e.1 = path) ∨ t.value? path = some v) :
    (filled m t cells).value? path = some v := by
  induction cells generalizing t with
  | nil =>
      rcases h with ⟨e, he, -⟩ | h
      · cases he
      · exact h
  | cons e rest ih =>
      refine ih (fun e' he' => hall e' (List.mem_cons_of_mem _ he')) ?_
      -- a column with this path brings the value, any other leaves the one that is there
      rw [Tree.value?_insert]
      show _ ∨ (if path = segments m e.1 then some e.2 else t.value? path) = some v
      by_cases hpath : segments m e.1 = path
      · rw [if_pos hpath.symm, hall e List.mem_cons_self hpath]
        exact .inr rfl
      · rw [if_neg (Ne.symm hpath)]
        rcases h with ⟨e', he', heq⟩ | h
        · rcases List.mem_cons.mp he' with rfl | he'
          · exact absurd heq hpath
          · exact .inl ⟨e', he', heq⟩
        · exact .inr h

/-- A path leads somewhere in a filled tree just if it did, or if some cell goes further. -/
theorem isSome_below?_filled (cells : List (String × Value)) (t : Tree) (path : List String) :
    ((filled m t cells).below? path).isSome ↔
      (t.below? path).isSome ∨
        ∃ e ∈ cells, ∃ more, more ≠ [] ∧ segments m e.1 = path ++ more := by
  induction cells generalizing t with
  | nil =>
      constructor
      · intro h
        exact .inl h
      · rintro (h | ⟨e, he, -⟩)
        · exact h
        · cases he
  | cons e rest ih =>
      show ((filled m (t.insert _ e.2 _) rest).below? path).isSome ↔ _
      rw [ih, Tree.isSome_below?_insert]
      constructor
      · rintro ((h | h) | ⟨e', he', h⟩)
        · exact .inl h
        · exact .inr ⟨e, List.mem_cons_self, h⟩
        · exact .inr ⟨e', List.mem_cons_of_mem _ he', h⟩
      · rintro (h | ⟨e', he', h⟩)
        · exact .inl (.inl h)
        · rcases List.mem_cons.mp he' with rfl | he'
          · exact .inl (.inr h)
          · exact .inr ⟨e', he', h⟩

variable {m}

theorem ordered_treeOf (cells : List (String × Value)) : (treeOf m cells).Ordered :=
  ordered_filled m cells Tree.ordered_empty

/-- A value in the tree of a row comes from the row. -/
theorem value?_treeOf {cells : List (String × Value)} {path : List String} {v : Value}
    (h : (treeOf m cells).value? path = some v) :
    ∃ e ∈ cells, segments m e.1 = path ∧ e.2 = v := by
  rcases value?_filled m h with h | h
  · exact h
  · rw [Tree.value?_empty] at h
    cases h

/-- A value of the row is in its tree, unless another column with the same path has another. -/
theorem value?_treeOf_of {cells : List (String × Value)} {column : String} {v : Value}
    (h : (column, v) ∈ cells)
    (hall : ∀ e ∈ cells, segments m e.1 = segments m column → e.2 = v) :
    (treeOf m cells).value? (segments m column) = some v :=
  value?_filled_of m hall (.inl ⟨(column, v), h, rfl⟩)

/-- There is a tree below a path if the row has a value further down. -/
theorem isSome_below?_treeOf {cells : List (String × Value)} {path : List String} :
    ((treeOf m cells).below? path).isSome ↔
      path = [] ∨ ∃ e ∈ cells, ∃ more, more ≠ [] ∧ segments m e.1 = path ++ more := by
  have h := isSome_below?_filled m cells .empty path
  rw [Tree.isSome_below?_empty] at h
  exact h

end Rows

end ModelQuery
