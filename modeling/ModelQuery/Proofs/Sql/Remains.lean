import ModelQuery.Proofs.Sql.Inserted
import ModelQuery.Proofs.Sql.Scalars

/-!
# What remains of writes

A query writes in pairs of what is assigned to and a value: an UPDATE its assignments, an INSERT in
each row the columns with the row's values.  Under one name the column itself and SQL that is so
called can be written to.  SQL keeps each of its values; the column has one, the last, where it was
first written (`remains`).

So the pairs alone tell which cells a statement has: for an UPDATE and for the first row of an
INSERT `firstCells`, for a later row `laterCells`.  And when the pairs are read and written one over
the other, just these come out of it, cell by cell (`Assigns.firstCells`, `Assigns.lastUnder`).
-/

namespace ModelQuery.Sql

open Outcome

/-! ## Writes under one name -/

/-- In which sense a name is written to: as the column itself, or as SQL that is so called. -/
inductive Sense where
  | itself
  | sql

def Sense.isItself : Sense → Bool
  | .itself => true
  | .sql => false

section Senses

variable {α β : Type}

/-- What is written to SQL. -/
def toSql : List (Sense × α) → List α
  | [] => []
  | (.sql, x) :: rest => x :: toSql rest
  | (.itself, _) :: rest => toSql rest

/-- What is written to the column last, after a first value. -/
def lastItself (x : α) : List (Sense × α) → α
  | [] => x
  | (.itself, y) :: rest => lastItself y rest
  | (.sql, _) :: rest => lastItself x rest

/-- What remains of writes under one name, in order. -/
def remains : List (Sense × α) → List α
  | [] => []
  | (.sql, x) :: rest => x :: remains rest
  | (.itself, x) :: rest => lastItself x rest :: toSql rest

/-- A write with a new value, if it is one to the column itself. -/
def renewed (x : α) : Sense × α → Sense × α
  | (.itself, _) => (.itself, x)
  | (.sql, y) => (.sql, y)

/-- A write over those that remain so far. -/
def writeOver (said : List (Sense × α)) (e : Sense × α) : List (Sense × α) :=
  if e.1.isItself && said.any (·.1.isItself) then said.map (renewed e.2) else said ++ [e]

/-- Writes to SQL are not written over. -/
theorem writeOver_sqls (sqls : List α) (said : List (Sense × α)) (e : Sense × α) :
    writeOver (sqls.map (Sense.sql, ·) ++ said) e =
      sqls.map (Sense.sql, ·) ++ writeOver said e := by
  have hnone : (sqls.map (Sense.sql, ·)).any (·.1.isItself) = false := by
    rw [List.any_map, List.any_eq_false]
    exact fun _ _ => nofun
  rw [writeOver, writeOver, List.any_append, hnone, Bool.false_or]
  split
  · rw [List.map_append, List.map_map]
    rfl
  · exact List.append_assoc ..

/-- Writes to SQL stay in front of all that is written behind them. -/
theorem foldl_writeOver_sqls (sqls : List α) (entries said : List (Sense × α)) :
    entries.foldl writeOver (sqls.map (Sense.sql, ·) ++ said) =
      sqls.map (Sense.sql, ·) ++ entries.foldl writeOver said := by
  induction entries generalizing said with
  | nil => rfl
  | cons e rest ih => rw [List.foldl_cons, List.foldl_cons, writeOver_sqls, ih]

/-- Behind a write to the column itself, its value changes and writes to SQL are added. -/
theorem foldl_writeOver_itself (entries : List (Sense × α)) (x : α) (sqls : List α) :
    entries.foldl writeOver ((.itself, x) :: sqls.map (Sense.sql, ·)) =
      (.itself, lastItself x entries) :: (sqls ++ toSql entries).map (Sense.sql, ·) := by
  induction entries generalizing x sqls with
  | nil => rw [List.foldl_nil, toSql, List.append_nil, lastItself]
  | cons e rest ih =>
      obtain ⟨sense, y⟩ := e
      rw [List.foldl_cons]
      cases sense with
      | sql =>
          have hwrite : writeOver ((.itself, x) :: sqls.map (Sense.sql, ·)) (.sql, y) =
              (.itself, x) :: (sqls ++ [y]).map (Sense.sql, ·) := by
            rw [List.map_append]
            rfl
          rw [hwrite, ih, List.append_assoc]
          rfl
      | itself =>
          have hwrite : writeOver ((.itself, x) :: sqls.map (Sense.sql, ·)) (.itself, y) =
              (.itself, y) :: sqls.map (Sense.sql, ·) := by
            show (.itself, y) :: (sqls.map (Sense.sql, ·)).map (renewed y) = _
            rw [List.map_map]
            rfl
          rw [hwrite, ih]
          rfl

/-- **WRITES ONE OVER THE OTHER** leave just what remains of them. -/
theorem foldl_writeOver (entries : List (Sense × α)) :
    (entries.foldl writeOver []).map Prod.snd = remains entries := by
  induction entries with
  | nil => rfl
  | cons e rest ih =>
      obtain ⟨sense, x⟩ := e
      cases sense with
      | sql =>
          have hrest := foldl_writeOver_sqls [x] rest []
          rw [List.append_nil] at hrest
          show (rest.foldl writeOver ([x].map (Sense.sql, ·))).map Prod.snd = _
          rw [hrest, List.map_append, ih]
          rfl
      | itself =>
          show (rest.foldl writeOver ((.itself, x) :: [].map (Sense.sql, ·))).map Prod.snd = _
          rw [foldl_writeOver_itself, List.nil_append, List.map_cons, List.map_map]
          exact congrArg _ (List.map_id _)

/-- Of any writes something remains. -/
theorem remains_ne_nil {entries : List (Sense × α)} (h : entries ≠ []) : remains entries ≠ [] := by
  obtain ⟨⟨sense, x⟩, rest, rfl⟩ := List.exists_cons_of_ne_nil h
  cases sense with
  | sql => exact List.cons_ne_nil _ _
  | itself => exact List.cons_ne_nil _ _

variable {R : α → β → Prop} {entries : List (Sense × α)} {entries' : List (Sense × β)}

/-- Related writes have related values for SQL. -/
theorem toSql_rel (h : List.Forall₂ (fun e e' => e.1 = e'.1 ∧ R e.2 e'.2) entries entries') :
    List.Forall₂ R (toSql entries) (toSql entries') := by
  induction h with
  | nil => exact .nil
  | @cons e e' rest rest' he _ ih =>
      obtain ⟨sense, x⟩ := e
      obtain ⟨sense', y⟩ := e'
      obtain ⟨rfl, hxy⟩ : sense = sense' ∧ R x y := he
      cases sense with
      | sql => exact .cons hxy ih
      | itself => exact ih

/-- Related writes have related last values for the column itself. -/
theorem lastItself_rel (h : List.Forall₂ (fun e e' => e.1 = e'.1 ∧ R e.2 e'.2) entries entries')
    {x : α} {y : β} (hxy : R x y) : R (lastItself x entries) (lastItself y entries') := by
  induction h generalizing x y with
  | nil => exact hxy
  | @cons e e' rest rest' he _ ih =>
      obtain ⟨sense, x'⟩ := e
      obtain ⟨sense', y'⟩ := e'
      obtain ⟨rfl, hxy'⟩ : sense = sense' ∧ R x' y' := he
      cases sense with
      | sql => exact ih hxy
      | itself => exact ih hxy'

/-- What remains of writes hangs on their senses, and on no value. -/
theorem remains_rel (h : List.Forall₂ (fun e e' => e.1 = e'.1 ∧ R e.2 e'.2) entries entries') :
    List.Forall₂ R (remains entries) (remains entries') := by
  induction h with
  | nil => exact .nil
  | @cons e e' rest rest' he hrest ih =>
      obtain ⟨sense, x⟩ := e
      obtain ⟨sense', y⟩ := e'
      obtain ⟨rfl, hxy⟩ : sense = sense' ∧ R x y := he
      cases sense with
      | sql => exact .cons hxy ih
      | itself => exact .cons (lastItself_rel hrest hxy) (toSql_rel hrest)

end Senses

/-! ## Writes of a query -/

/-- In which sense a target is a name, if it is one. -/
def Target.sense? (name : String) : Target → Option Sense
  | .column c => if c = name then some .itself else none
  | .named c => if c = name then some .sql else none
  | _ => none

/-- The writes under a name. -/
def writesUnder (name : String) (ws : List (Value × Value)) : List (Sense × Value) :=
  ws.filterMap fun w => ((ownTarget? w.1).bind (Target.sense? name)).map fun sense => (sense, w.2)

/-- The values that remain under a name. -/
def remainsFor (name : String) (ws : List (Value × Value)) : List Value :=
  remains (writesUnder name ws)

/-- The writes to expressions without a name. -/
def namelessWrites (ws : List (Value × Value)) : List (Expr × Value) :=
  ws.filterMap fun w =>
    match ownTarget? w.1 with
    | some (.nameless e) => some (e, w.2)
    | _ => none

/-- The cells of an UPDATE, or of the first row of an INSERT: the expressions without a name, then
the columns of the table that are written, each with the first of the values that remain for it. -/
def firstCells (known : List String) (ws : List (Value × Value)) : List (Heading × Value) :=
  (namelessWrites ws).map (fun w => (.inl w.1, w.2)) ++
    known.filterMap fun c => (remainsFor c ws).head?.map fun v => (.inr c, v)

/-- The value of a later row under a heading: the last one that remains there.  Expressions without
a name are not told apart. -/
def lastUnder (ws : List (Value × Value)) : Heading → Option Value
  | .inl _ => ((namelessWrites ws).map Prod.snd).getLast?
  | .inr c => (remainsFor c ws).getLast?

/-- The cells of a later row of an INSERT, under the headings of the first. -/
def laterCells (headings : List Heading) (ws : List (Value × Value)) : List (Heading × Value) :=
  headings.filterMap fun heading => (lastUnder ws heading).map fun v => (heading, v)

/-- A target is written to under a name in some sense just if it has the name. -/
theorem sense?_isSome {t : Target} {name : String} :
    (t.sense? name).isSome ↔ t.name? = some name := by
  cases t with
  | column c | named c =>
      rw [Target.sense?, Target.name?, Option.some.injEq]
      split
      · exact iff_of_true rfl ‹_›
      · exact iff_of_false Bool.false_ne_true ‹_›
  | _ => exact iff_of_false Bool.false_ne_true (Option.some_ne_none name).symm

/-- Something remains under each name that is written. -/
theorem remainsFor_ne_nil {ws : List (Value × Value)} {w : Value × Value} (hw : w ∈ ws)
    {name : String} (hname : keyName? w.1 = some name) : remainsFor name ws ≠ [] := by
  obtain ⟨t, ht, hname⟩ := Option.bind_eq_some_iff.mp hname
  obtain ⟨sense, hsense⟩ := Option.isSome_iff_exists.mp (sense?_isSome.mpr hname)
  have hmem : (sense, w.2) ∈ writesUnder name ws := by
    refine List.mem_filterMap.mpr ⟨w, hw, ?_⟩
    rw [ht, Option.bind_some, hsense]
    rfl
  exact remains_ne_nil (List.ne_nil_of_mem hmem)

/-! ## Assignments under one name -/

/-- The assignments under a name. -/
def assignedUnder (name : String) (as : List Assignment) : List (Sense × Expr) :=
  as.filterMap fun a => (a.target.sense? name).map fun sense => (sense, a.value)

/-- The values for a name are those of the assignments under it. -/
theorem valuesFor_eq_assignedUnder (name : String) (as : List Assignment) :
    valuesFor name as = (assignedUnder name as).map Prod.snd := by
  rw [valuesFor, assignedUnder, List.map_filterMap]
  refine List.filterMap_congr fun a _ => ?_
  cases hsense : a.target.sense? name with
  | none => exact if_neg fun hname => by rw [← sense?_isSome, hsense] at hname; cases hname
  | some sense => exact if_pos (sense?_isSome.mp (by rw [hsense]; rfl))

/-- The assignments to the column itself among those under its name. -/
theorem sense?_isItself (name : String) (a : Assignment) :
    (a.target.sense? name).any Sense.isItself = sameColumn name a := by
  rw [sameColumn]
  cases a.target with
  | column c =>
      rw [Target.sense?]
      by_cases hc : c = name
      · rw [if_pos hc, hc]
        exact (beq_self_eq_true name).symm
      · rw [if_neg hc]
        exact (beq_false_of_ne hc).symm
  | named c =>
      rw [Target.sense?]
      split
      · rfl
      · rfl
  | _ => rfl

/-- The column itself is assigned to under its name just if some assignment is to it. -/
theorem any_assignedUnder (name : String) (as : List Assignment) :
    (assignedUnder name as).any (·.1.isItself) = as.any (sameColumn name) := by
  rw [assignedUnder, List.any_filterMap]
  refine congrArg (as.any ·) (funext fun a => ?_)
  rw [← sense?_isItself name a]
  cases a.target.sense? name with
  | none => rfl
  | some sense => rfl

/-- A value written over the assignments to a column. -/
theorem assignedUnder_over (name column : String) (as : List Assignment) (e : Expr) :
    assignedUnder name (as.map fun b => if sameColumn column b then { b with value := e } else b) =
      if column = name then (assignedUnder name as).map (renewed e) else assignedUnder name as := by
  rw [assignedUnder, List.filterMap_map]
  by_cases hname : column = name
  · subst hname
    rw [if_pos rfl, assignedUnder, List.map_filterMap]
    refine List.filterMap_congr fun a _ => ?_
    rw [Function.comp_apply]
    have hitself := sense?_isItself column a
    cases hsame : sameColumn column a with
    | true =>
        have hsense : a.target.sense? column = some .itself := by
          rw [sameColumn_iff.mp hsame, Target.sense?, if_pos rfl]
        rw [if_pos rfl, hsense]
        rfl
    | false =>
        rw [if_neg Bool.false_ne_true]
        rw [hsame] at hitself
        cases hsense : a.target.sense? column with
        | none => rfl
        | some sense =>
            cases sense with
            | sql => rfl
            | itself =>
                rw [hsense] at hitself
                cases hitself
  · rw [if_neg hname, assignedUnder]
    refine List.filterMap_congr fun a _ => ?_
    rw [Function.comp_apply]
    split
    · rename_i hsame
      have hsense : a.target.sense? name = none := by
        rw [sameColumn_iff.mp hsame, Target.sense?, if_neg hname]
      rw [hsense]
      rfl
    · rfl

theorem assignedUnder_append (name : String) (as more : List Assignment) :
    assignedUnder name (as ++ more) = assignedUnder name as ++ assignedUnder name more :=
  List.filterMap_append

theorem assignedUnder_singleton {name : String} {a : Assignment} {sense : Sense}
    (h : a.target.sense? name = some sense) : assignedUnder name [a] = [(sense, a.value)] := by
  rw [assignedUnder, List.filterMap_cons, h]
  rfl

theorem assignedUnder_of_none {name : String} {a : Assignment} (h : a.target.sense? name = none) :
    assignedUnder name [a] = [] := by
  rw [assignedUnder, List.filterMap_cons, h]
  rfl

/-- An assignment is a write over the earlier ones under its own name, and no write under others. -/
theorem assignedUnder_assign (name : String) (as : List Assignment) (a : Assignment) :
    assignedUnder name (assign as a) =
      (assignedUnder name [a]).foldl writeOver (assignedUnder name as) := by
  rw [assign]
  split
  · rename_i column htarget
    by_cases hname : column = name
    · have hsense : a.target.sense? name = some .itself := by
        rw [htarget, Target.sense?, if_pos hname]
      rw [assignedUnder_singleton hsense, hname]
      show _ = writeOver (assignedUnder name as) (.itself, a.value)
      rw [writeOver, any_assignedUnder]
      show _ = if as.any (sameColumn name) then _ else _
      split
      · rw [assignedUnder_over, if_pos rfl]
      · rw [assignedUnder_append, assignedUnder_singleton hsense]
    · have hsense : a.target.sense? name = none := by
        rw [htarget, Target.sense?, if_neg hname]
      rw [assignedUnder_of_none hsense, List.foldl_nil]
      split
      · rw [assignedUnder_over, if_neg hname]
      · rw [assignedUnder_append, assignedUnder_of_none hsense, List.append_nil]
  · rename_i hother
    rw [assignedUnder_append]
    cases hsense : a.target.sense? name with
    | none => rw [assignedUnder_of_none hsense, List.append_nil, List.foldl_nil]
    | some sense =>
        cases sense with
        | sql =>
            rw [assignedUnder_singleton hsense]
            rfl
        | itself =>
            have hsame := sense?_isItself name a
            rw [hsense] at hsame
            exact absurd (sameColumn_iff.mp hsame.symm) (hother name)

/-- Assignments made one after the other are writes one over the other. -/
theorem assignedUnder_foldl (name : String) (more as : List Assignment) :
    assignedUnder name (more.foldl assign as) =
      (assignedUnder name more).foldl writeOver (assignedUnder name as) := by
  induction more generalizing as with
  | nil => rfl
  | cons a rest ih =>
      rw [List.foldl_cons, ih, assignedUnder_assign, ← List.foldl_append,
        ← assignedUnder_append]
      rfl

/-- The values that a name is assigned are those that remain. -/
theorem valuesFor_assignAll (name : String) (as : List Assignment) :
    valuesFor name (assignAll as) = remains (assignedUnder name as) := by
  rw [valuesFor_eq_assignedUnder, assignAll, assignedUnder_foldl]
  exact foldl_writeOver _

/-! ## Writes as they are read -/

/-- What writes come to before one is written over the other: each value, as it is read, is assigned
to what its key assigns to by itself. -/
def Assigns (read : Value → Except Error Expr) : List (Value × Value) → List Assignment → Prop :=
  List.Forall₂ fun w a => ownTarget? w.1 = some a.target ∧ read w.2 = .ok a.value

/-- A value of a row, as an INSERT reads it. -/
def cellExpr (v : Value) : Except Error Expr := (valueOf v).map exprOf

/-- A scalar in a row is a literal. -/
theorem cellExpr_scalar {v : Value} (h : v.isScalar = true) : cellExpr v = .ok (.literal v) := by
  rw [cellExpr, valueOf_scalar h, ← exprOf_scalar h]
  rfl

/-- A row that is drawn from its columns assigns what these pairs do. -/
theorem Drawn.assigns {columns row : List Value} {as : List Assignment}
    (h : Drawn columns row as) : Assigns cellExpr (columns.zip row) as := by
  have hsame := h.symm
  rw [← List.forall₂_eq_eq_eq, List.forall₂_map_left_iff, List.forall₂_map_right_iff] at hsame
  exact hsame.imp fun w a heq => Prod.mk.inj heq

/-- What is read of pairs assigns to their keys, in order. -/
theorem assigns_of_read {c : Catalog} {into : Changed} {pairs : List (Value × Value)}
    {read : List ((Target ⊕ Value) × Value)} {raw : List Assignment}
    (hread : (pairs.mapM fun (column, v) => do return (← readKey c into column, ← valueOf v)) =
      .ok read)
    (hraw : (read.mapM fun (key, v) => do
      return (⟨← usable (targetOf key), ← operandOf v⟩ : Assignment)) = .ok raw) :
    Assigns valueExpr pairs raw := by
  replace hread := forall₂_of_mapM hread
  replace hraw := forall₂_of_mapM hraw
  induction hread generalizing raw with
  | nil =>
      cases hraw
      exact .nil
  | cons hw _ ih =>
      obtain ⟨a, others, ha, hothers, rfl⟩ := List.forall₂_cons_left_iff.mp hraw
      refine .cons ?_ (ih hothers)
      obtain ⟨key, hkey, hw⟩ := bind_eq_ok hw
      obtain ⟨v, hv, hw⟩ := bind_eq_ok hw
      cases hw
      obtain ⟨t, ht, ha⟩ := bind_eq_ok ha
      obtain ⟨e, he, ha⟩ := bind_eq_ok ha
      cases ha
      refine ⟨of_usable ht ▸ ownTarget?_of_readKey hkey, ?_⟩
      rw [valueExpr, hv]
      exact he

/-- What an UPDATE assigns comes of its pairs, one written over the other. -/
theorem assigns_of_readAssignments {c : Catalog} {into : Changed} {pairs : List (Value × Value)}
    {as : List Assignment} (h : readAssignments c into pairs = .ok as) :
    ∃ raw, as = assignAll raw ∧ Assigns valueExpr pairs raw := by
  obtain ⟨read, hread, h⟩ := bind_eq_ok h
  obtain ⟨raw, hraw, h⟩ := bind_eq_ok h
  cases h
  exact ⟨raw, rfl, assigns_of_read hread hraw⟩

theorem head?_rel {α β : Type} {R : α → β → Prop} {xs : List α} {ys : List β}
    (h : List.Forall₂ R xs ys) : Option.Rel R xs.head? ys.head? := by
  cases h with
  | nil => exact .none
  | cons hxy _ => exact .some hxy

theorem getLast?_rel {α β : Type} {R : α → β → Prop} {xs : List α} {ys : List β}
    (h : List.Forall₂ R xs ys) : Option.Rel R xs.getLast? ys.getLast? := by
  rw [List.getLast?_eq_head?_reverse, List.getLast?_eq_head?_reverse]
  exact head?_rel (List.rel_reverse h)

/-- The cells that assignments come to. -/
def exprCells (known : List String) (as : List Assignment) : List (Heading × Expr) :=
  (namelessValues as).map (fun p => (.inl p.1, p.2)) ++
    (columnValues known as).map fun p => (.inr p.1, p.2)

/-- The last value that is assigned under a heading. -/
def lastAssigned (as : List Assignment) : Heading → Option Expr
  | .inl _ => ((namelessValues as).map Prod.snd).getLast?
  | .inr c => (valuesFor c as).getLast?

namespace Assigns

variable {read : Value → Except Error Expr} {ws : List (Value × Value)} {raw : List Assignment}

/-- Under each name the writes and the assignments go together. -/
theorem under (h : Assigns read ws raw) (name : String) :
    List.Forall₂ (fun e e' => e.1 = e'.1 ∧ read e.2 = .ok e'.2) (writesUnder name ws)
      (assignedUnder name raw) := by
  refine List.rel_filterMap (fun w a hwa => ?_) h
  rw [hwa.1, Option.bind_some]
  cases a.target.sense? name with
  | none => exact .none
  | some sense => exact .some ⟨rfl, hwa.2⟩

/-- The values for a name are those that remain for it, as they are read. -/
theorem remains (h : Assigns read ws raw) (name : String) :
    List.Forall₂ (fun v e => read v = .ok e) (remainsFor name ws)
      (valuesFor name (assignAll raw)) := by
  rw [valuesFor_assignAll]
  exact remains_rel (h.under name)

/-- The values for expressions without a name are those of the writes to them, as they are read. -/
theorem nameless (h : Assigns read ws raw) :
    List.Forall₂ (fun e e' => e.1 = e'.1 ∧ read e.2 = .ok e'.2) (namelessWrites ws)
      (namelessValues (assignAll raw)) := by
  rw [namelessValues_assignAll]
  refine List.rel_filterMap (fun w a hwa => ?_) h
  rw [hwa.1]
  cases a.target with
  | nameless e => exact .some ⟨rfl, hwa.2⟩
  | _ => exact .none

/-- **CELLS AS THEY WERE GIVEN**: the cells that are assigned are those of the writes, in the same
order, under the same headings and with the same values, as they are read. -/
theorem firstCells (h : Assigns read ws raw) (known : List String) :
    List.Forall₂ (fun c e => c.1 = e.1 ∧ read c.2 = .ok e.2) (firstCells known ws)
      (exprCells known (assignAll raw)) := by
  rw [exprCells, columnValues, List.map_filterMap]
  refine List.rel_append (List.rel_map (fun w e hwe => ⟨congrArg _ hwe.1, hwe.2⟩) h.nameless) ?_
  refine List.rel_filterMap (R := Eq) ?_ (List.forall₂_refl known)
  rintro c _ rfl
  have hfirst := head?_rel (h.remains c)
  dsimp only
  generalize (remainsFor c ws).head? = v, (valuesFor c (assignAll raw)).head? = e at hfirst ⊢
  cases hfirst with
  | none => exact .none
  | some hve => exact .some ⟨rfl, hve⟩

/-- So it is with the last value under each heading. -/
theorem lastUnder (h : Assigns read ws raw) (heading : Heading) :
    Option.Rel (fun v e => read v = .ok e) (lastUnder ws heading)
      (lastAssigned (assignAll raw) heading) := by
  cases heading with
  | inl e => exact getLast?_rel (List.rel_map (fun _ _ hwe => hwe.2) h.nameless)
  | inr c => exact getLast?_rel (h.remains c)

/-- Names that are written are assigned to. -/
theorem mem_names (h : Assigns read ws raw) {w : Value × Value} (hw : w ∈ ws) {name : String}
    (hname : keyName? w.1 = some name) :
    name ∈ (assignAll raw).filterMap (·.target.name?) := by
  refine valuesFor_ne_nil_iff.mp fun hnone => remainsFor_ne_nil hw hname ?_
  have hremains := h.remains name
  rw [hnone] at hremains
  exact List.forall₂_nil_right_iff.mp hremains

end Assigns

/-! ## Cells in words -/

/-- A cell of a statement that writes: what it stands under, how a placeholder in it is called, and
its value. -/
structure Cell where
  heading : Heading
  name : BindName
  value : Value

/-- A scalar in a cell is a placeholder in the words, and nothing else. -/
def Cell.Worded (c : Cell) (ts : List Token) : Prop :=
  c.value.isScalar = true → ts = [.bind c.name c.value]

/-- How a placeholder under a heading is called, if columns call theirs so. -/
def cellName (call : String → String) : Heading → BindName
  | .inl _ => .numbered valueStem
  | .inr c => .exact (call c)

/-- A value under a heading in words, if columns call theirs so. -/
def cellTokens (call : String → String) : Heading → Expr → List Token
  | .inl _, e => operandTokens e
  | .inr c, e => namedTokens (call c) e

/-- Cells that call their placeholders so. -/
def namedCells (call : String → String) (cells : List (Heading × Value)) : List Cell :=
  cells.map fun c => ⟨c.1, cellName call c.1, c.2⟩

/-- The cells of an UPDATE. -/
def setCells (known : List String) (ws : List (Value × Value)) : List Cell :=
  namedCells id (firstCells known ws)

/-- The cells of an INSERT, row by row.  Below the first row placeholders are numbered. -/
def insertCells (known : List String) (columns : List Value) : List (List Value) → List (List Cell)
  | [] => []
  | first :: later =>
    let cells := firstCells known (columns.zip first)
    namedCells firstRowName cells :: later.map fun row =>
      (laterCells (cells.map Prod.fst) (columns.zip row)).map fun c =>
        ⟨c.1, .numbered valueStem, c.2⟩

section Words

variable {read : Value → Except Error Expr} {into : Changed}

/-- A literal under a heading is a placeholder. -/
theorem cellTokens_literal (call : String → String) (heading : Heading) (v : Value) :
    cellTokens call heading (.literal v) = [.bind (cellName call heading) v] := by
  cases heading with
  | inl e => rfl
  | inr c => rfl

/-- Scalars in named cells are placeholders with the names of the cells. -/
theorem namedCells_worded (hread : ∀ v, v.isScalar = true → read v = .ok (.literal v))
    (call : String → String) {cells : List (Heading × Value)} {es : List (Heading × Expr)}
    (h : List.Forall₂ (fun c e => c.1 = e.1 ∧ read c.2 = .ok e.2) cells es) :
    List.Forall₂ Cell.Worded (namedCells call cells) (es.map fun e => cellTokens call e.1 e.2) := by
  refine List.rel_map (fun c e hce => ?_) h
  intro hscalar
  obtain ⟨heading, v⟩ := c
  obtain ⟨heading', e⟩ := e
  obtain ⟨rfl, hvalue⟩ : heading = heading' ∧ read v = .ok e := hce
  cases (hread v hscalar).symm.trans hvalue
  exact cellTokens_literal call heading v

/-- What stands over the cells is what stands over the values. -/
theorem headings_namedCells (call : String → String) {cells : List (Heading × Value)}
    {es : List (Heading × Expr)}
    (h : List.Forall₂ (fun c e => c.1 = e.1 ∧ read c.2 = .ok e.2) cells es) :
    (namedCells call cells).map (headingTokens ·.heading) = es.map fun e => headingTokens e.1 := by
  rw [namedCells, List.map_map, ← List.forall₂_eq_eq_eq]
  exact List.rel_map (fun c e hce => congrArg headingTokens hce.1) h

theorem map_exprCells {β : Type} (f : Heading × Expr → β) (known : List String)
    (as : List Assignment) :
    (exprCells known as).map f = (namelessValues as).map (fun p => f (.inl p.1, p.2)) ++
      (columnValues known as).map fun p => f (.inr p.1, p.2) := by
  rw [exprCells, List.map_append, List.map_map, List.map_map]
  rfl

/-- The words of SET, cell by cell, between faults. -/
theorem setTokens_of_cells (as : List Assignment) :
    setTokens into (some as) =
      invalidFault as ++ listed ((exprCells into.columns as).map fun c =>
        equated (headingTokens c.1) (cellTokens id c.1 c.2)) ++ leftoverFault into.columns as := by
  rw [map_exprCells]
  rfl

/-- Where nothing is at fault, every name that is written is one of a known column, and no words stand
beside those of the cells. -/
theorem Assigns.known_of_no_fault {ws : List (Value × Value)} {raw : List Assignment}
    (h : Assigns read ws raw) {known : List String} {ts : List Token}
    (hfault : ∀ cause, .fault cause ∉
      invalidFault (assignAll raw) ++ ts ++ leftoverFault known (assignAll raw)) :
    (∀ w ∈ ws, ∀ name, keyName? w.1 = some name → name ∈ known) ∧
      invalidFault (assignAll raw) ++ ts ++ leftoverFault known (assignAll raw) = ts := by
  have hinvalid := invalidFault_eq_nil fun hmem =>
    hfault .invalidOperand (List.mem_append_left _ (List.mem_append_left _ hmem))
  have hleft : .fault .unrenderable ∉ leftoverFault known (assignAll raw) :=
    fun hmem => hfault .unrenderable (List.mem_append_right _ hmem)
  refine ⟨fun w hw name hname => names_of_no_fault hleft (h.mem_names hw hname), ?_⟩
  rw [hinvalid.2, leftoverFault_eq_nil hleft, List.nil_append, List.append_nil]

/-- **AN UPDATE SETS ITS CELLS**: without a fault, every name that is written is one of a known
column, and the words of SET are the cells of what was written, one by one. -/
theorem update_worded {c : Catalog} {pairs : List (Value × Value)} {as : List Assignment}
    (h : readAssignments c into pairs = .ok as)
    (hfault : ∀ cause, .fault cause ∉ setTokens into (some as)) :
    (∀ w ∈ pairs, ∀ name, keyName? w.1 = some name → name ∈ into.columns) ∧
      ∃ values, setTokens into (some as) =
          listed (List.zipWith equated
            ((setCells into.columns pairs).map (headingTokens ·.heading)) values) ∧
        List.Forall₂ Cell.Worded (setCells into.columns pairs) values ∧
        ∀ ts ∈ values, ∀ t ∈ ts, t ∈ setTokens into (some as) := by
  obtain ⟨raw, rfl, hassigns⟩ := assigns_of_readAssignments h
  have hcells := hassigns.firstCells into.columns
  rw [setTokens_of_cells] at hfault ⊢
  obtain ⟨hknown, hwords⟩ := hassigns.known_of_no_fault hfault
  rw [hwords]
  refine ⟨hknown, _, ?_, namedCells_worded (fun _ => valueExpr_scalar) id hcells,
    fun ts hts t ht => ?_⟩
  · rw [setCells, headings_namedCells id hcells, List.zipWith_map, List.zipWith_self]
  · obtain ⟨e, he, rfl⟩ := List.mem_map.mp hts
    exact mem_separated (List.mem_map_of_mem he) (List.mem_append_right _ ht)

/-- What stands in a later row under a heading, in words. -/
def laterTokens (as : List Assignment) : Heading → List Token
  | .inl _ => laterValue .noSuchOperation ((namelessValues as).map Prod.snd)
  | .inr c => laterValue .unrenderable (valuesFor c as)

/-- The words of an INSERT, cell by cell, with faults. -/
theorem insertRows_of_cells (first : List Assignment) (later : List (List Assignment)) :
    insertRows into (some (first :: later)) =
      { columns := (exprCells into.columns first).map fun c => headingTokens c.1
        rows := (invalidFault first ++
            rowTokens
              ((exprCells into.columns first).map fun c => cellTokens firstRowName c.1 c.2) ++
            leftoverFault into.columns first) ::
          later.map fun as => invalidFault as ++
            rowTokens (((exprCells into.columns first).map Prod.fst).map (laterTokens as)) } := by
  have hlater : laterRow (namelessValues first).length
      ((columnValues into.columns first).map Prod.fst) = fun as => invalidFault as ++
        rowTokens (((exprCells into.columns first).map Prod.fst).map (laterTokens as)) := by
    funext as
    rw [laterRow, map_exprCells, List.map_append, List.map_map, List.map_map, List.map_map,
      ← List.map_const']
    rfl
  rw [← hlater, map_exprCells, map_exprCells]
  rfl

/-- A later value under a heading is there where it has no fault, and is an operand. -/
theorem laterTokens_of_no_fault {as : List Assignment} {heading : Heading}
    (h : ∀ cause, .fault cause ∉ laterTokens as heading) :
    ∃ e, lastAssigned as heading = some e ∧ laterTokens as heading = operandTokens e := by
  cases heading with
  | inl e => exact getLast?_of_no_fault (h .noSuchOperation)
  | inr c => exact getLast?_of_no_fault (h .unrenderable)

/-- A later row without a fault has the words of its cells. -/
theorem laterCells_worded {ws : List (Value × Value)} {raw : List Assignment}
    (h : Assigns cellExpr ws raw) {headings : List Heading}
    (hfault : ∀ heading ∈ headings, ∀ cause, .fault cause ∉ laterTokens (assignAll raw) heading) :
    List.Forall₂ Cell.Worded
      ((laterCells headings ws).map fun c => ⟨c.1, .numbered valueStem, c.2⟩)
      (headings.map (laterTokens (assignAll raw))) := by
  induction headings with
  | nil => exact .nil
  | cons heading rest ih =>
      obtain ⟨e, he, hwords⟩ := laterTokens_of_no_fault (hfault heading List.mem_cons_self)
      have hlast := h.lastUnder heading
      rw [laterCells, List.filterMap_cons]
      rw [he] at hlast
      generalize lastUnder ws heading = v at hlast
      cases hlast with
      | @some v e hve =>
          refine .cons (fun hscalar => ?_) (ih fun heading' hmem =>
            hfault heading' (List.mem_cons_of_mem _ hmem))
          cases (cellExpr_scalar hscalar).symm.trans hve
          exact hwords

/-- A later row without a fault says that nothing invalid is assigned to, and has no fault in any
of its values. -/
theorem laterRow_of_no_fault {as : List Assignment} {headings : List Heading}
    (h : ∀ cause, .fault cause ∉ invalidFault as ++ rowTokens (headings.map (laterTokens as))) :
    invalidFault as = [] ∧
      ∀ heading ∈ headings, ∀ cause, .fault cause ∉ laterTokens as heading := by
  refine ⟨(invalidFault_eq_nil fun hmem => h _ (List.mem_append_left _ hmem)).2, ?_⟩
  intro heading hmem cause hfault
  exact h cause (List.mem_append_right _ (mem_rowTokens (List.mem_map_of_mem hmem) hfault))

/-- Later rows without a fault have the words of their cells, row by row. -/
theorem laterRows_worded {columns : List Value} {headings : List Heading}
    {rows : List (List Value)} {raws : List (List Assignment)}
    (h : List.Forall₂ (Drawn columns) rows raws)
    (hfault : ∀ raw ∈ raws, ∀ cause, .fault cause ∉ invalidFault (assignAll raw) ++
      rowTokens (headings.map (laterTokens (assignAll raw)))) :
    (raws.map fun raw => invalidFault (assignAll raw) ++
        rowTokens (headings.map (laterTokens (assignAll raw)))) =
      (raws.map fun raw => headings.map (laterTokens (assignAll raw))).map rowTokens ∧
    List.Forall₂ (List.Forall₂ Cell.Worded)
      (rows.map fun row => (laterCells headings (columns.zip row)).map fun c =>
        ⟨c.1, .numbered valueStem, c.2⟩)
      (raws.map fun raw => headings.map (laterTokens (assignAll raw))) := by
  induction h with
  | nil => exact ⟨rfl, .nil⟩
  | @cons row raw rest others hraw _ ih =>
      obtain ⟨hnone, hvalues⟩ := laterRow_of_no_fault (hfault raw List.mem_cons_self)
      obtain ⟨hwords, hrest⟩ := ih fun raw' hmem => hfault raw' (List.mem_cons_of_mem _ hmem)
      refine ⟨?_, .cons (laterCells_worded hraw.assigns hvalues) hrest⟩
      rw [List.map_cons, List.map_cons, List.map_cons, hwords, hnone]
      rfl

/-- **AN INSERT HAS ITS CELLS**: without a fault, every name that the first row writes is one of a
known column, the columns listed are what stands over the first row's cells, and the words of the
rows are the cells of what was written, one by one. -/
theorem insert_worded {c : Catalog} {columns : List Value} {rows : List (List Value)}
    {table : List (List Assignment)} (h : readRows c into columns rows = .ok table)
    (hrows : rows ≠ [])
    (hfault : ∀ cause, .fault cause ∉ (insertRows into (some table)).rows.flatten) :
    (∀ row ∈ rows.head?, ∀ w ∈ columns.zip row, ∀ name, keyName? w.1 = some name →
        name ∈ into.columns) ∧
      ∃ values, insertRows into (some table) =
          { columns := ((insertCells into.columns columns rows).headD []).map
              (headingTokens ·.heading)
            rows := values.map rowTokens } ∧
        List.Forall₂ (List.Forall₂ Cell.Worded) (insertCells into.columns columns rows) values := by
  obtain ⟨raws, rfl, hdrawn⟩ := drawn_of_readRows h
  cases hdrawn with
  | nil => exact absurd rfl hrows
  | @cons row raw rest others hraw hothers =>
      have hcells := hraw.assigns.firstCells into.columns
      have hheadings : (firstCells into.columns (columns.zip row)).map Prod.fst =
          (exprCells into.columns (assignAll raw)).map Prod.fst := by
        rw [← List.forall₂_eq_eq_eq]
        exact List.rel_map (fun _ _ hce => hce.1) hcells
      rw [List.map_cons, insertRows_of_cells, List.map_map, ← hheadings] at hfault ⊢
      obtain ⟨hknown, hfirst⟩ := hraw.assigns.known_of_no_fault fun cause hmem =>
        hfault cause (List.mem_flatten.mpr ⟨_, List.mem_cons_self, hmem⟩)
      obtain ⟨hwords, hlater⟩ := laterRows_worded hothers fun raw' hraw' cause hmem =>
        hfault cause (List.mem_flatten.mpr
          ⟨_, List.mem_cons_of_mem _ (List.mem_map_of_mem hraw'), hmem⟩)
      refine ⟨?_, _ :: _, ?_,
        .cons (namedCells_worded (fun _ => cellExpr_scalar) firstRowName hcells) hlater⟩
      · rintro row ⟨⟩
        exact hknown
      · rw [hfirst, List.map_cons, ← hwords, ← headings_namedCells firstRowName hcells]
        rfl

end Words

end ModelQuery.Sql
