import ModelQuery.Proofs.Sql.Scalars

/-!
# Statements of queries that differ in values

Reading a query looks at none of the values it compares with, assigns or inserts.  So two queries
that differ in scalars become statements that differ in the same scalars, or neither becomes one,
for the same reason (`readStatement_matched`).
-/

namespace ModelQuery.Sql

open Outcome

variable {R : Value → Value → Prop} (hR : OfScalars R)
include hR

/-! ## Clauses -/

/-- Matched conditions are read as matched filters. -/
theorem readFilter_matched (c : Catalog) {cs cs' : List Condition}
    (h : Condition.AllMatched R cs cs') :
    Related (FilterMatched R) (readFilter c cs) (readFilter c cs') :=
  ofConditionsAfter_matched (fun column op _ _ => readTest_matched hR c column op) h .none

/-- Matched pairs are read as matched assignments. -/
theorem readAssignments_matched (c : Catalog) (into : Changed) {pairs pairs' : List (Value × Value)}
    (h : List.Forall₂ (fun a a' => a.1 = a'.1 ∧ Value.Matched R a.2 a'.2) pairs pairs') :
    Related (List.Forall₂ (Assignment.Matched R)) (readAssignments c into pairs)
      (readAssignments c into pairs') := by
  rw [readAssignments, readAssignments]
  refine (Related.mapM (T := fun a a' => a.1 = a'.1 ∧ Value.Matched R a.2 a'.2) h ?_).bind ?_
  · rintro ⟨column, v⟩ ⟨column', v'⟩ ⟨rfl, hv⟩
    refine Related.behind _ fun key => ?_
    exact (valueOf_matched hR hv).bind fun _ _ hv => .ok ⟨rfl, hv⟩
  · intro read read' hread
    refine (Related.mapM hread ?_).bind fun as as' has => .ok (assignAll_matched has)
    rintro ⟨key, v⟩ ⟨key', v'⟩ ⟨rfl, hv⟩
    refine Related.behind _ fun target => ?_
    exact (operandOf_matched hR hv).bind fun _ _ he => .ok ⟨rfl, he⟩

theorem readCell_matched (key : Target ⊕ Value) {v v' : Value} (h : v.Matched R v') :
    Related (Assignment.Matched R) (readCell (key, v)) (readCell (key, v')) := by
  refine (valueOf_matched hR h).bind fun w w' hw => ?_
  cases key with
  | inl target => exact .ok ⟨rfl, exprOf_matched hR hw⟩
  | inr k =>
      exact Related.behind _ fun key => .ok ⟨rfl, exprOf_matched hR hw⟩

/-- Matched rows are read as matched tables of assignments. -/
theorem readRows_matched (c : Catalog) (into : Changed) (columns : List Value)
    {rows rows' : List (List Value)}
    (h : List.Forall₂ (List.Forall₂ (Value.Matched R)) rows rows') :
    Related (List.Forall₂ (List.Forall₂ (Assignment.Matched R))) (readRows c into columns rows)
      (readRows c into columns rows') := by
  rw [readRows, readRows]
  refine Related.behind _ fun keys => ?_
  refine (Related.mapM h fun row row' hrow => ?_).bind fun read read' hread =>
    .ok (List.rel_map (fun _ _ has => assignAll_matched has) hread)
  refine Related.mapM (zip_matched keys hrow) ?_
  rintro ⟨key, v⟩ ⟨key', v'⟩ ⟨rfl, hv⟩
  exact readCell_matched hR key hv

/-! ## Whole statements -/

/-- Matched queries are read as matched SELECTs. -/
theorem readSelect_matched (f : Frame) {q q' : Query} (h : Query.Matched R q q') :
    Related (Select.Matched R) (readSelect f q) (readSelect f q') := by
  cases h with
  | intro hfilter hhaving hrows hassignments =>
      refine Related.behind _ fun items => Related.behind _ fun tables => ?_
      refine (readFilter_matched hR f.catalog hfilter).bind fun filter filter' hfilter => ?_
      refine Related.behind _ fun groupBy => ?_
      refine (readFilter_matched hR f.catalog hhaving).bind fun having having' hhaving => ?_
      refine Related.behind _ fun orderBy => Related.behind _ fun distinct => ?_
      refine Related.behind _ fun limit => Related.behind _ fun offset => ?_
      exact .ok (.intro _ hfilter hhaving)

/-- Matched queries are read as matched statements in one frame, whatever the kind. -/
theorem readIn_matched (f : Frame) {q q' : Query} (h : Query.Matched R q q') (kind : Kind) :
    Related (Statement.Matched R) (readIn f q kind) (readIn f q' kind) := by
  cases kind with
  | select => exact (readSelect_matched hR f h).bind fun s s' hs => .ok (.select hs)
  | update =>
      cases h with
      | intro hfilter hhaving hrows hassignments =>
          refine Related.behind _ fun into => ?_
          refine (readFilter_matched hR f.catalog hfilter).bind fun filter filter' hfilter => ?_
          dsimp only
          rw [isEmpty_of_forall₂ hassignments]
          split
          · exact .ok (.update into .none hfilter)
          · exact (readAssignments_matched hR f.catalog into hassignments).bind fun _ _ has =>
              .ok (.update into (.some has) hfilter)
  | insert =>
      cases h with
      | intro hfilter hhaving hrows hassignments =>
          refine Related.behind _ fun into => ?_
          dsimp only
          rw [isEmpty_of_forall₂ hrows]
          split
          · exact .ok (.insert into .none)
          · exact (readRows_matched hR f.catalog into _ hrows).bind fun _ _ hrows =>
              .ok (.insert into (.some hrows))
  | delete =>
      cases h with
      | intro hfilter hhaving hrows hassignments =>
          refine Related.behind _ fun into => ?_
          exact (readFilter_matched hR f.catalog hfilter).bind fun filter filter' hfilter =>
            .ok (.delete into hfilter)

/-- Matched queries are read as matched counts in one frame. -/
theorem countIn_matched (f : Frame) {q q' : Query} (h : Query.Matched R q q') :
    Related (Statement.Matched R) (countIn f q) (countIn f q') := by
  cases h with
  | intro hfilter hhaving hrows hassignments =>
      refine Related.behind _ fun tables => ?_
      exact (readFilter_matched hR f.catalog hfilter).bind fun _ _ hfilter =>
        .ok (.count tables hfilter)

/-- **READING LOOKS AT NO VALUE**: queries that differ in scalars become statements that differ in
the same scalars, of every kind, or fail for the same reason.  So do their counts. -/
theorem readStatement_matched {q q' : Query} (h : Query.Matched R q q') :
    (∀ kind, Related (Statement.Matched R) (readStatement q kind) (readStatement q' kind)) ∧
      Related (Statement.Matched R) (readCount q) (readCount q') := by
  constructor
  · intro kind
    rw [readStatement_eq, readStatement_eq, readFrame_matched h kind]
    exact Related.behind _ fun f => readIn_matched hR f h kind
  · rw [readCount_eq, readCount_eq, readFrame_matched h .select]
    exact Related.behind _ fun f => countIn_matched hR f h

end ModelQuery.Sql
