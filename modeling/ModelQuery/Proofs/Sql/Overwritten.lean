import ModelQuery.Proofs.Outcome
import ModelQuery.Sql.Compile
import ModelQuery.Sql.Wording.Mutation

/-!
# Columns that are written more than once

What a query assigns is written over twice.  Its own map of assignments knows a column by the text
it was written with, and a text that is written again keeps its place and takes the new value.  The
statement knows the column itself, goes through that map and lets a later entry take the place of an
earlier one.

So among several spellings of one column it is not the last write that counts, but the spelling that
came up last, with what was last written under it (`update_assigns_newest`).  The last write is lost
exactly if its spelling had come up before another one.
-/

namespace ModelQuery

open Outcome

/-! ## The key that came up last -/

namespace Assoc

variable {κ α : Type}

/-- Some write under the key comes after the first writes under all others. -/
def Newest (k : κ) (ws : List (κ × α)) : Prop :=
  ∃ before v behind, ws = before ++ (k, v) :: behind ∧ k ∉ keys before ∧
    ∀ k' ∈ keys behind, k' = k ∨ k' ∈ keys before

/-- Behind others, writes bring a newest key unless they bring no new one at all. -/
theorem newest_behind (ws earlier : List (κ × α)) :
    (∀ k ∈ keys ws, k ∈ keys earlier) ∨
      ∃ before k v behind, ws = before ++ (k, v) :: behind ∧ k ∉ keys (earlier ++ before) ∧
        ∀ k' ∈ keys behind, k' = k ∨ k' ∈ keys (earlier ++ before) := by
  -- the first write is one of the earlier ones for the rest; it is the newest itself if its key was
  -- new and the rest brings no other
  induction ws generalizing earlier with
  | nil => exact .inl fun k hk => absurd hk List.not_mem_nil
  | cons e rest ih =>
      obtain ⟨k, v⟩ := e
      have happend : keys (earlier ++ [(k, v)]) = keys earlier ++ [k] := List.map_append
      rcases ih (earlier ++ [(k, v)]) with hknown | ⟨before, k', v', behind, hws, hnew, hbehind⟩
      · rw [happend] at hknown
        by_cases hk : k ∈ keys earlier
        · left
          intro k' hk'
          rcases List.mem_cons.mp hk' with rfl | hrest
          · exact hk
          · rcases List.mem_append.mp (hknown k' hrest) with hmem | hmem
            · exact hmem
            · rw [List.mem_singleton.mp hmem]
              exact hk
        · refine .inr ⟨[], k, v, rest, rfl, ?_, ?_⟩
          · rw [List.append_nil]
            exact hk
          · intro k' hk'
            rw [List.append_nil]
            rcases List.mem_append.mp (hknown k' hk') with hmem | hmem
            · exact .inr hmem
            · exact .inl (List.mem_singleton.mp hmem)
      · refine .inr ⟨(k, v) :: before, k', v', behind, ?_, ?_, ?_⟩
        · rw [hws]
          rfl
        · rw [List.append_assoc] at hnew
          exact hnew
        · rw [List.append_assoc] at hbehind
          exact hbehind

theorem exists_newest {ws : List (κ × α)} (h : ws ≠ []) : ∃ k, Newest k ws := by
  rcases newest_behind ws [] with hknown | ⟨before, k, v, behind, hnewest⟩
  · obtain ⟨e, rest, rfl⟩ := List.exists_cons_of_ne_nil h
    exact absurd (hknown e.1 List.mem_cons_self) List.not_mem_nil
  · exact ⟨k, before, v, behind, hnewest⟩

theorem Newest.mem {k : κ} {ws : List (κ × α)} (h : Newest k ws) : k ∈ keys ws := by
  obtain ⟨before, v, behind, rfl, -⟩ := h
  exact List.mem_map.mpr ⟨(k, v), List.mem_append_right _ List.mem_cons_self, rfl⟩

/-- A key that is written has a last value. -/
theorem exists_last [BEq κ] [LawfulBEq κ] {k : κ} {ws : List (κ × α)} (h : k ∈ keys ws) :
    ∃ v, ws.reverse.lookup k = some v := by
  cases hlookup : ws.reverse.lookup k with
  | some v => exact ⟨v, rfl⟩
  | none =>
      rw [lookup_eq_none_iff, keys, List.map_reverse, List.mem_reverse] at hlookup
      exact absurd h hlookup

/-- One more write leaves its key newest if it had been so, or had not come up. -/
theorem newest_concat_iff {k : κ} {v : α} {ws : List (κ × α)} :
    Newest k (ws ++ [(k, v)]) ↔ k ∉ keys ws ∨ Newest k ws := by
  constructor
  · rintro ⟨before, w, behind, hws, hnew, hbehind⟩
    rcases List.eq_nil_or_concat behind with rfl | ⟨behind, e, rfl⟩
    · left
      rw [(List.append_inj' hws rfl).1]
      exact hnew
    · right
      rw [List.concat_eq_append, ← List.cons_append, ← List.append_assoc] at hws
      refine ⟨before, w, behind, (List.append_inj' hws rfl).1, hnew, fun k' hk' => ?_⟩
      refine hbehind k' ?_
      rw [List.concat_eq_append, keys, List.map_append]
      exact List.mem_append_left _ hk'
  · rintro (hnew | ⟨before, w, behind, rfl, hnew, hbehind⟩)
    · exact ⟨ws, v, [], rfl, hnew, fun k' hk' => absurd hk' List.not_mem_nil⟩
    · refine ⟨before, w, behind ++ [(k, v)], ?_, hnew, fun k' hk' => ?_⟩
      · rw [List.append_assoc]
        rfl
      · rw [keys, List.map_append] at hk'
        rcases List.mem_append.mp hk' with hmem | hmem
        · exact hbehind k' hmem
        · exact .inl (List.mem_singleton.mp hmem)

theorem putAll_ne_nil [BEq κ] {entries m : List (κ × α)} (h : m ≠ []) : putAll entries m ≠ [] := by
  induction entries generalizing m with
  | nil => exact h
  | cons e rest ih =>
      refine ih ?_
      cases m with
      | nil => exact List.cons_ne_nil _ _
      | cons e' more =>
          obtain ⟨k', v'⟩ := e'
          show put e.1 e.2 ((k', v') :: more) ≠ []
          rw [put]
          split
          · exact List.cons_ne_nil _ _
          · exact List.cons_ne_nil _ _

/-- Nothing is written just if nothing remains. -/
theorem ofList_eq_nil_iff [BEq κ] {ws : List (κ × α)} : ofList ws = [] ↔ ws = [] := by
  cases ws with
  | nil => exact ⟨fun _ => rfl, fun _ => rfl⟩
  | cons e rest =>
      have hne : putAll rest [e] ≠ [] := putAll_ne_nil (List.cons_ne_nil _ _)
      exact ⟨fun h => absurd h hne, nofun⟩

/-- The map of the writes ends with the newest key and with what was last written under it. -/
theorem getLast?_ofList [BEq κ] [LawfulBEq κ] {k : κ} {v : α} {ws : List (κ × α)}
    (hk : Newest k ws) (hv : ws.reverse.lookup k = some v) : (ofList ws).getLast? = some (k, v) := by
  have hlookup : (ofList ws).lookup k = some v := by
    rw [ofList, lookup_putAll_reverse, hv]
    rfl
  obtain ⟨before, w, behind, rfl, hnew, hbehind⟩ := hk
  -- its place is the one it got when it came up, for all that is written later is known by then
  have hbefore : k ∉ keys (putAll before []) := by
    rw [mem_keys_putAll, not_or]
    exact ⟨hnew, List.not_mem_nil⟩
  have hkeys : keys (ofList (before ++ (k, w) :: behind)) = keys (putAll before []) ++ [k] := by
    rw [ofList, putAll, List.foldl_append, List.foldl_cons, ← putAll, ← putAll,
      keys_putAll_of_known, keys_put, if_neg hbefore]
    intro k' hk'
    rw [mem_keys_put, mem_keys_putAll]
    exact (hbehind k' hk').imp_right .inl
  have hlast := congrArg List.getLast? hkeys
  rw [keys, List.getLast?_map, List.getLast?_concat] at hlast
  obtain ⟨⟨k', v'⟩, he, rfl⟩ := Option.map_eq_some_iff.mp hlast
  have hnodup : (keys (ofList (before ++ (k', w) :: behind))).Nodup :=
    @nodup_keys_putAll _ _ _ _ _ [] List.nodup_nil
  have hfound := lookup_of_mem hnodup (List.mem_of_getLast? he)
  rw [he, ← Option.some.inj (hfound.symm.trans hlookup)]

end Assoc

/-! ## Spellings of a column -/

namespace Sql

/-- The spelling of a column that a key is, if it is one. -/
def spelling? (column : String) (key : Value) : Option String :=
  match plainColumn? key with
  | some p => if p.column = column then key.text? else none
  | none => none

/-- The writes to a column, each under its spelling. -/
def writesTo (column : String) (ws : List (Value × Value)) : List (String × Value) :=
  ws.filterMap fun (key, v) => (spelling? column key).map fun s => (s, v)

section Spellings

variable {column s : String} {k k' v : Value}

theorem spelling?_text (h : spelling? column k = some s) : k.text? = some s := by
  rw [spelling?] at h
  split at h
  · split at h
    · exact h
    · cases h
  · cases h

/-- Whether a key spells a column is up to its text. -/
theorem spelling?_congr (h : k.text? = k'.text?) : spelling? column k = spelling? column k' := by
  rw [spelling?, spelling?, plainColumn?, plainColumn?, h]

/-- Keys that are the same have the same text, if they have one. -/
theorem text?_of_same (h : (k == k') = true) : k.text? = k'.text? := by
  change Value.same k k' = true at h
  unfold Value.same at h
  split at h
  all_goals first
    | rfl
    | exact congrArg some (eq_of_beq h)
    | cases h

/-- Keys of one text are the same. -/
theorem same_of_text (hk : k.text? = some s) (hk' : k'.text? = some s) : (k == k') = true := by
  have hs : (s == s) = true := beq_self_eq_true s
  rcases Value.eq_of_text? hk with rfl | rfl
  · rcases Value.eq_of_text? hk' with rfl | rfl
    · exact hs
    · exact hs
  · rcases Value.eq_of_text? hk' with rfl | rfl
    · exact hs
    · exact hs

theorem writesTo_cons (rest : List (Value × Value)) :
    writesTo column ((k, v) :: rest) =
      match spelling? column k with
      | some s => (s, v) :: writesTo column rest
      | none => writesTo column rest := by
  rw [writesTo, List.filterMap_cons]
  dsimp only
  cases spelling? column k <;> rfl

/-- A write to the query's map is one to the column under the same spelling, or none to it. -/
theorem writesTo_put (m : List (Value × Value)) :
    writesTo column (Assoc.put k v m) =
      match spelling? column k with
      | some s => Assoc.put s v (writesTo column m)
      | none => writesTo column m := by
  induction m with
  | nil => exact writesTo_cons []
  | cons e rest ih =>
      obtain ⟨k', v'⟩ := e
      rw [Assoc.put, writesTo_cons]
      split
      · rename_i hsame
        rw [writesTo_cons, spelling?_congr (text?_of_same hsame)]
        cases spelling? column k' with
        | none => rfl
        | some s =>
            dsimp only
            rw [Assoc.put, if_pos (beq_self_eq_true s)]
      · rename_i hother
        rw [writesTo_cons, ih]
        cases hspelling' : spelling? column k' with
        | none => rfl
        | some s' =>
            cases hspelling : spelling? column k with
            | none => rfl
            | some s =>
                have hne : s ≠ s' := by
                  rintro rfl
                  exact hother (same_of_text (spelling?_text hspelling) (spelling?_text hspelling'))
                dsimp only
                rw [Assoc.put, beq_false_of_ne hne]
                rfl

/-- To put writes over others, and to take those to a column, can be done in either order. -/
theorem writesTo_putAll (ws m : List (Value × Value)) :
    writesTo column (Assoc.putAll ws m) =
      Assoc.putAll (writesTo column ws) (writesTo column m) := by
  induction ws generalizing m with
  | nil => rfl
  | cons e rest ih =>
      obtain ⟨k, v⟩ := e
      show writesTo column (Assoc.putAll rest (Assoc.put k v m)) = _
      rw [ih, writesTo_put, writesTo_cons]
      cases spelling? column k <;> rfl

/-- The writes to a column can be taken before all writes are put together, or behind. -/
theorem writesTo_ofList (ws : List (Value × Value)) :
    writesTo column (Assoc.ofList ws) = Assoc.ofList (writesTo column ws) :=
  writesTo_putAll ws []

end Spellings

/-! ## Assignments written over -/

/-- The values assigned to a column as such. -/
def assignedTo (column : String) (as : List Assignment) : List Expr :=
  (as.filter (sameColumn column)).map (·.value)

section Assignments

variable {column : String} {a : Assignment} {as : List Assignment}

theorem assignedTo_cons (rest : List Assignment) :
    assignedTo column (a :: rest) =
      if sameColumn column a then a.value :: assignedTo column rest else assignedTo column rest := by
  rw [assignedTo, List.filter_cons]
  split <;> rfl

theorem assignedTo_concat :
    assignedTo column (as ++ [a]) =
      assignedTo column as ++ if sameColumn column a then [a.value] else [] := by
  rw [assignedTo, List.filter_append, List.map_append, List.filter_cons]
  split <;> rfl

/-- An assignment is to a column just if this is its target. -/
theorem sameColumn_iff {name : String} : sameColumn name a = true ↔ a.target = .column name := by
  rw [sameColumn]
  split
  · rename_i c htarget
    rw [beq_iff_eq, htarget, Target.column.injEq]
  · rename_i hother
    exact ⟨nofun, fun htarget => absurd htarget (hother name)⟩

theorem any_sameColumn {name : String} :
    as.any (sameColumn name) = true ↔ assignedTo name as ≠ [] := by
  rw [assignedTo, Ne, List.map_eq_nil_iff, List.filter_eq_nil_iff, List.any_eq_true]
  constructor
  · rintro ⟨b, hb, hsame⟩ hnone
    exact hnone b hb hsame
  · intro hsome
    apply Classical.byContradiction
    intro hnone
    exact hsome fun b hb hsame => hnone ⟨b, hb, hsame⟩

/-- A value written over the assignments to one column shows in them alone. -/
theorem assignedTo_over (name : String) (e : Expr) :
    assignedTo column (as.map fun b => if sameColumn name b then { b with value := e } else b) =
      if name = column then (assignedTo column as).map fun _ => e else assignedTo column as := by
  induction as with
  | nil => split <;> rfl
  | cons b rest ih =>
      rw [List.map_cons, assignedTo_cons, assignedTo_cons, ih]
      by_cases hname : name = column
      · subst hname
        rw [if_pos rfl, if_pos rfl]
        by_cases hb : sameColumn name b = true
        · have hover : sameColumn name { b with value := e } = true := hb
          rw [if_pos hb, if_pos hover, if_pos hb]
          rfl
        · rw [if_neg hb, if_neg hb, if_neg hb]
      · rw [if_neg hname, if_neg hname]
        by_cases hb : sameColumn name b = true
        · have hother : ¬sameColumn column b = true := by
            intro hcolumn
            have htarget := (sameColumn_iff.mp hb).symm.trans (sameColumn_iff.mp hcolumn)
            exact hname (Target.column.inj htarget)
          have hover : ¬sameColumn column { b with value := e } = true := hother
          rw [if_pos hb, if_neg hover, if_neg hother]
        · rw [if_neg hb]

/-- One assignment to a column takes the place of another. -/
theorem assignedTo_assign (hone : (assignedTo column as).length ≤ 1) :
    assignedTo column (assign as a) =
      if sameColumn column a then [a.value] else assignedTo column as := by
  rw [assign]
  split
  · rename_i name htarget
    have hsame : sameColumn column a = true ↔ name = column := by
      rw [sameColumn_iff, htarget, Target.column.injEq]
    by_cases hany : as.any (sameColumn name) = true
    · rw [if_pos hany, assignedTo_over]
      by_cases hname : name = column
      · subst hname
        rw [if_pos rfl, if_pos (hsame.mpr rfl)]
        match has : assignedTo name as with
        | [] => exact absurd has (any_sameColumn.mp hany)
        | [e] => rfl
        | e :: e' :: rest =>
            rw [has] at hone
            exact absurd hone (by simp only [List.length_cons]; omega)
      · rw [if_neg hname, if_neg fun h => hname (hsame.mp h)]
    · rw [if_neg hany, assignedTo_concat]
      by_cases hname : name = column
      · subst hname
        have hnone : assignedTo name as = [] :=
          Classical.byContradiction fun h => hany (any_sameColumn.mpr h)
        rw [if_pos (hsame.mpr rfl), if_pos (hsame.mpr rfl), hnone]
        rfl
      · rw [if_neg fun h => hname (hsame.mp h), if_neg fun h => hname (hsame.mp h),
          List.append_nil]
  · rename_i hother
    have hsame : ¬sameColumn column a = true := fun h => hother column (sameColumn_iff.mp h)
    rw [assignedTo_concat, if_neg hsame, if_neg hsame, List.append_nil]

/-- Further assignments leave the last of their values, or the value that was there. -/
theorem assignedTo_foldl {more : List Assignment} (hone : (assignedTo column as).length ≤ 1) :
    assignedTo column (more.foldl assign as) =
      match (assignedTo column more).getLast? with
      | some e => [e]
      | none => assignedTo column as := by
  -- there is at most one assignment to the column at any time, and a further one changes its value
  induction more generalizing as with
  | nil => rfl
  | cons a rest ih =>
      have hassign := @assignedTo_assign column a as hone
      have hone' : (assignedTo column (assign as a)).length ≤ 1 := by
        rw [hassign]
        split
        · exact Nat.le_refl 1
        · exact hone
      rw [List.foldl_cons, ih hone', assignedTo_cons, hassign]
      by_cases ha : sameColumn column a = true
      · rw [if_pos ha, if_pos ha, List.getLast?_cons]
        cases (assignedTo column rest).getLast? <;> rfl
      · rw [if_neg ha, if_neg ha]

/-- Of all values for a column the last is assigned. -/
theorem assignedTo_assignAll :
    assignedTo column (assignAll as) = (assignedTo column as).getLast?.toList := by
  rw [assignAll, @assignedTo_foldl column [] as (Nat.zero_le 1)]
  cases (assignedTo column as).getLast? <;> rfl

end Assignments

/-! ## The assignments of an UPDATE -/

section Reading

variable {c : Catalog} {into : Changed} {column : String}

/-- What is not a column is not assigned to as one. -/
theorem targetOf_ne_column (v : Value) (name : String) : targetOf (.inr v) ≠ .column name := by
  cases v with
  | sql e => cases e <;> exact nofun
  | _ => exact nofun

/-- A key is read as a column of the changed table if it is a plain one, else as an operand. -/
theorem readKey_cases {k : Value} {key : Target ⊕ Value} (h : readKey c into k = .ok key) :
    (∃ p, plainColumn? k = some p ∧ p.column ∈ into.columns ∧ key = .inl (.column p.column)) ∨
      plainColumn? k = none ∧ ∃ v, key = .inr v := by
  rw [readKey] at h
  cases hplain : plainColumn? k with
  | some p =>
      rw [hplain] at h
      dsimp only at h
      by_cases hmem : p.column ∈ into.columns
      · rw [if_pos hmem] at h
        cases h
        exact .inl ⟨p, rfl, hmem, rfl⟩
      · rw [if_neg hmem] at h
        cases h
  | none =>
      rw [hplain] at h
      obtain ⟨v, -, rfl⟩ := map_eq_ok h
      exact .inr ⟨rfl, v, rfl⟩

/-- A key assigns to a column as such exactly if it spells the column. -/
theorem sameColumn_of_key {k : Value} {key : Target ⊕ Value} (h : readKey c into k = .ok key)
    (e : Expr) : sameColumn column ⟨targetOf key, e⟩ = (spelling? column k).isSome := by
  obtain ⟨p, hplain, -, rfl⟩ | ⟨hplain, v, rfl⟩ := readKey_cases h
  · have htext : k.text?.isSome = true := by
      obtain ⟨s, hs, -⟩ := Option.bind_eq_some_iff.mp hplain
      rw [hs]
      rfl
    rw [spelling?, hplain]
    show (p.column == column) = (if p.column = column then k.text? else none).isSome
    by_cases hcolumn : p.column = column
    · rw [if_pos hcolumn, htext, beq_iff_eq.mpr hcolumn]
    · rw [if_neg hcolumn, beq_false_of_ne hcolumn]
      rfl
  · rw [spelling?, hplain]
    exact Bool.eq_false_iff.mpr fun hsame => targetOf_ne_column v column (sameColumn_iff.mp hsame)

/-- A column that a key spells is a column of the changed table. -/
theorem mem_columns_of_key {k : Value} {key : Target ⊕ Value} (h : readKey c into k = .ok key)
    {s : String} (hs : spelling? column k = some s) : column ∈ into.columns := by
  rw [spelling?] at hs
  obtain ⟨p, hplain, hmem, -⟩ | ⟨hplain, -⟩ := readKey_cases h
  · rw [hplain] at hs
    dsimp only at hs
    by_cases hcolumn : p.column = column
    · exact hcolumn ▸ hmem
    · rw [if_neg hcolumn] at hs
      cases hs
  · rw [hplain] at hs
    cases hs

theorem of_usable {t t' : Target} (h : usable t = .ok t') : t' = t := by
  cases t with
  | invalid => cases h
  | _ =>
      cases h
      rfl

/-- What the writes to a column come to is what is assigned to it, in order; and if there is any, it
is a column of the changed table. -/
theorem assignedTo_of_read {pairs : List (Value × Value)} {read : List ((Target ⊕ Value) × Value)}
    {as : List Assignment}
    (hread : (pairs.mapM fun (column, v) => do return (← readKey c into column, ← valueOf v)) =
      .ok read)
    (has : (read.mapM fun (key, v) => do
      return (⟨← usable (targetOf key), ← operandOf v⟩ : Assignment)) = .ok as) :
    ((writesTo column pairs).map Prod.snd).mapM valueExpr = .ok (assignedTo column as) ∧
      (writesTo column pairs ≠ [] → column ∈ into.columns) := by
  induction pairs generalizing read as with
  | nil =>
      cases hread
      cases has
      exact ⟨rfl, fun h => absurd rfl h⟩
  | cons pair rest ih =>
      obtain ⟨k, v⟩ := pair
      rw [List.mapM_cons] at hread
      obtain ⟨entry, hentry, hread⟩ := bind_eq_ok hread
      obtain ⟨entries, hentries, hread⟩ := bind_eq_ok hread
      obtain ⟨key, hkey, hentry⟩ := bind_eq_ok hentry
      obtain ⟨w, hw, hentry⟩ := bind_eq_ok hentry
      cases hentry
      cases hread
      rw [List.mapM_cons] at has
      obtain ⟨a, ha, has⟩ := bind_eq_ok has
      obtain ⟨others, hothers, has⟩ := bind_eq_ok has
      obtain ⟨t, ht, ha⟩ := bind_eq_ok ha
      obtain ⟨e, he, ha⟩ := bind_eq_ok ha
      cases ha
      cases has
      obtain ⟨hrest, hmem⟩ := ih hentries hothers
      have hvalue : valueExpr v = .ok e := by
        rw [valueExpr, hw]
        exact he
      have hsame := @sameColumn_of_key c into column k key hkey e
      rw [of_usable ht, writesTo_cons, assignedTo_cons, hsame]
      cases hspelling : spelling? column k with
      | none => exact ⟨hrest, hmem⟩
      | some s =>
          refine ⟨?_, fun _ => mem_columns_of_key hkey hspelling⟩
          show ((v :: (writesTo column rest).map Prod.snd).mapM valueExpr) = _
          rw [List.mapM_cons, hvalue, hrest]
          rfl

end Reading

/-- What an UPDATE assigns to a column, of the writes to it. -/
structure Assigned (into : Changed) (column : String) (ws : List (String × Value))
    (as : List Assignment) : Prop where
  /-- A column that was not written is not assigned. -/
  unwritten : ws = [] → assignedTo column as = []
  /-- Of one that was, a spelling came up last. -/
  spelled : ws ≠ [] → ∃ s v, Assoc.Newest s ws ∧ ws.reverse.lookup s = some v
  /-- Assigned is what was last written under that spelling, once. -/
  newest : ∀ s v, Assoc.Newest s ws → ws.reverse.lookup s = some v →
    ∃ e, valueExpr v = .ok e ∧ assignedTo column as = [e]
  /-- The last write is the one assigned if its spelling is new, or had come up last already. -/
  last : ∀ before s v, ws = before ++ [(s, v)] →
    s ∉ Assoc.keys before ∨ Assoc.Newest s before →
      ∃ e, valueExpr v = .ok e ∧ assignedTo column as = [e]
  /-- Otherwise it is lost: an earlier write under another spelling is assigned. -/
  lost : ∀ before s v, ws = before ++ [(s, v)] →
    s ∈ Assoc.keys before → ¬Assoc.Newest s before →
      ∃ s' v' e, s' ≠ s ∧ before.reverse.lookup s' = some v' ∧
        valueExpr v' = .ok e ∧ assignedTo column as = [e]
  /-- This is what SET says of the column, unless something is assigned to SQL that is so called. -/
  written : (∀ a ∈ as, a.target ≠ .named column) →
    ∀ e, (column, e) ∈ columnValues into.columns as ↔ assignedTo column as = [e]

section Updates

variable {column : String}

/-- Without SQL of its name, a column's values are those assigned to it as such. -/
theorem valuesFor_eq {as : List Assignment} (h : ∀ a ∈ as, a.target ≠ .named column) :
    valuesFor column as = assignedTo column as := by
  induction as with
  | nil => rfl
  | cons a rest ih =>
      have hrest := ih fun b hb => h b (List.mem_cons_of_mem _ hb)
      have hname : (a.target.name? = some column) ↔ sameColumn column a = true := by
        rw [sameColumn_iff]
        cases htarget : a.target with
        | column name =>
            constructor
            · exact fun hn => congrArg _ (Option.some.inj hn)
            · exact fun hc => congrArg some (Target.column.inj hc)
        | named name =>
            have hne := h a List.mem_cons_self
            rw [htarget] at hne
            exact ⟨fun hn => absurd (congrArg _ (Option.some.inj hn)) hne, nofun⟩
        | nameless e => exact ⟨nofun, nofun⟩
        | invalid => exact ⟨nofun, nofun⟩
      rw [valuesFor] at hrest
      rw [valuesFor, List.filterMap_cons, hrest, assignedTo_cons]
      by_cases hsame : sameColumn column a = true
      · rw [if_pos hsame, if_pos (hname.mpr hsame)]
      · rw [if_neg hsame, if_neg fun hn => hsame (hname.mp hn)]

/-- A known column is given the first of its values. -/
theorem mem_columnValues {columns : List String} {as : List Assignment} {e : Expr} :
    (column, e) ∈ columnValues columns as ↔
      column ∈ columns ∧ (valuesFor column as).head? = some e := by
  rw [columnValues, List.mem_filterMap]
  constructor
  · rintro ⟨c, hc, hvalue⟩
    obtain ⟨e', he', heq⟩ := Option.map_eq_some_iff.mp hvalue
    cases heq
    exact ⟨hc, he'⟩
  · rintro ⟨hcolumn, hvalue⟩
    exact ⟨column, hcolumn, by rw [hvalue]; rfl⟩

/-- What is assigned to a column by the entries of a map of writes. -/
theorem assigned_of_writes {into : Changed} {ws : List (String × Value)}
    {as as' : List Assignment} (has : as' = assignAll as)
    (h : ((Assoc.ofList ws).map Prod.snd).mapM valueExpr = .ok (assignedTo column as))
    (hmem : Assoc.ofList ws ≠ [] → column ∈ into.columns) : Assigned into column ws as' := by
  have hlast : assignedTo column as' = (assignedTo column as).getLast?.toList := by
    rw [has, assignedTo_assignAll]
  have hnewest : ∀ s v, Assoc.Newest s ws → ws.reverse.lookup s = some v →
      ∃ e, valueExpr v = .ok e ∧ assignedTo column as' = [e] := by
    intro s v hs hv
    obtain ⟨before, hbefore⟩ := List.getLast?_eq_some_iff.mp (Assoc.getLast?_ofList hs hv)
    rw [hbefore, List.map_append, List.map_cons, List.map_nil, List.mapM_append] at h
    obtain ⟨es, -, h⟩ := bind_eq_ok h
    obtain ⟨es', hes', h⟩ := bind_eq_ok h
    obtain ⟨e, he, hes'⟩ := bind_eq_ok hes'
    cases hes'
    refine ⟨e, he, ?_⟩
    rw [hlast, ← Except.ok.inj h]
    exact congrArg Option.toList List.getLast?_concat
  have hspelled : ws ≠ [] → ∃ s v, Assoc.Newest s ws ∧ ws.reverse.lookup s = some v := by
    intro hne
    obtain ⟨s, hs⟩ := Assoc.exists_newest hne
    obtain ⟨v, hv⟩ := Assoc.exists_last hs.mem
    exact ⟨s, v, hs, hv⟩
  constructor
  case unwritten =>
    rintro rfl
    rw [hlast, ← Except.ok.inj h]
    rfl
  case spelled => exact hspelled
  case newest => exact hnewest
  case last =>
    rintro before s v rfl hbefore
    refine hnewest s v (Assoc.newest_concat_iff.mpr hbefore) ?_
    rw [List.reverse_concat]
    exact List.lookup_cons_self
  case lost =>
    rintro before s v rfl hmem hbefore
    obtain ⟨s', v', hs', hv'⟩ := hspelled (List.concat_ne_nil _ _)
    obtain ⟨e, he, hassigned⟩ := hnewest s' v' hs' hv'
    have hne : s' ≠ s := by
      rintro rfl
      rcases Assoc.newest_concat_iff.mp hs' with hnew | hnewest
      · exact hnew hmem
      · exact hbefore hnewest
    rw [List.reverse_concat, List.lookup_cons, beq_false_of_ne hne] at hv'
    exact ⟨s', v', e, hne, hv', he, hassigned⟩
  case written =>
    intro hnamed e
    rw [mem_columnValues, valuesFor_eq hnamed, hlast]
    cases hvalue : (assignedTo column as).getLast? with
    | none => exact ⟨nofun, nofun⟩
    | some e' =>
        have hne : ws ≠ [] := by
          rintro rfl
          rw [← Except.ok.inj h] at hvalue
          cases hvalue
        have hcolumn := hmem fun hnil => hne (Assoc.ofList_eq_nil_iff.mp hnil)
        constructor
        · rintro ⟨-, heq⟩
          exact congrArg Option.toList heq
        · intro heq
          exact ⟨hcolumn, congrArg List.head? heq⟩

/-- **THE NEWEST SPELLING IS ASSIGNED**: an UPDATE of what was written, one over the other, assigns
to each column the value that was last written under the spelling of it that came up last. -/
theorem update_assigns_newest {q : Query} {ws : List (Value × Value)}
    (hq : q.assignments = Assoc.ofList ws) {into : Changed} {as : Option (List Assignment)}
    {filter : Option Filter} (h : readStatement q .update = .ok (.update into as filter)) :
    (as = none ↔ ws = []) ∧
      ∀ as', as = some as' → ∀ column, Assigned into column (writesTo column ws) as' := by
  obtain ⟨f, -, h⟩ := bind_eq_ok h
  obtain ⟨target, -, h⟩ := bind_eq_ok h
  obtain ⟨read, -, h⟩ := bind_eq_ok h
  split at h
  · rename_i hempty
    cases h
    rw [hq, List.isEmpty_iff, Assoc.ofList_eq_nil_iff] at hempty
    exact ⟨⟨fun _ => hempty, fun _ => rfl⟩, nofun⟩
  · rename_i hsome
    obtain ⟨as', has', h⟩ := bind_eq_ok h
    cases h
    rw [hq, List.isEmpty_iff, Assoc.ofList_eq_nil_iff] at hsome
    refine ⟨⟨nofun, fun hnone => absurd hnone hsome⟩, fun as hsame column => ?_⟩
    cases hsame
    rw [readAssignments] at has'
    obtain ⟨pairs, hpairs, has'⟩ := bind_eq_ok has'
    obtain ⟨before, hbefore, has'⟩ := bind_eq_ok has'
    refine assigned_of_writes (Except.ok.inj has').symm ?_ ?_
    · rw [← writesTo_ofList, ← hq]
      exact (assignedTo_of_read hpairs hbefore).1
    · rw [← writesTo_ofList, ← hq]
      exact (assignedTo_of_read hpairs hbefore).2

end Updates

end Sql

end ModelQuery
