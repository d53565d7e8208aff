import ModelQuery.Proofs.Sql.Matched

/-!
# Tests of scalars

A scalar that a test compares with is treated like any other: either all scalars are refused there,
or each is put into the same slot of the same test (`compare_uniform`).  Where an operator asks for
several values, each of them is an operand of its own.  So matched values make matched tests
(`compare_matched`).
-/

namespace ModelQuery.Sql

open Outcome

variable {R : Value → Value → Prop}

/-! ## Scalars as operands -/

theorem valueOf_scalar {v : Value} (h : v.isScalar = true) : valueOf v = .ok v := by
  cases v with
  | query => cases h
  | _ => rfl

theorem exprOf_scalar {v : Value} (h : v.isScalar = true) : exprOf v = .literal v := by
  cases v with
  | null | sql => cases h
  | _ => rfl

theorem operandOf_scalar {v : Value} (h : v.isScalar = true) : operandOf v = .ok (.literal v) := by
  rw [← exprOf_scalar h]
  cases v with
  | sql => cases h
  | _ => rfl

theorem valueExpr_scalar {v : Value} (h : v.isScalar = true) : valueExpr v = .ok (.literal v) := by
  rw [valueExpr, valueOf_scalar h]
  exact operandOf_scalar h

/-! ## Tests of one value -/

/-- A test with a slot for an operand: matched operands make matched tests, and whatever is put into
the slot is written, wherever the test stands. -/
structure Comparison.Slot (K : Expr → Comparison) : Prop where
  matched : ∀ {R : Value → Value → Prop} {e e' : Expr}, e.Matched R e' → (K e).Matched R (K e')
  written : ∀ {e : Expr} {t : Token}, t ∈ operandTokens e → ∀ alone, t ∈ (K e).tokens alone

theorem slot_left (c : Comparator) (r : Expr) : Comparison.Slot fun e => .compare c e r where
  matched := fun h => .compare c h (.same r)
  written := fun h _ => List.mem_append_left _ (List.mem_append_left _ h)

theorem slot_right (c : Comparator) (l : Expr) : Comparison.Slot fun e => .compare c l e where
  matched := fun h => .compare c (.same l) h
  written := fun h _ => List.mem_append_right _ h

theorem slot_value (c : Comparator) (v : Value) :
    Comparison.Slot fun e => .compareValue c e v where
  matched := fun h => .compareValue c h v
  written := fun h _ => List.mem_append_left _ h

theorem slot_custom (op : String) (l : Expr) : Comparison.Slot fun e => .custom op l e where
  matched := fun h => .custom op (.same l) h
  written := by
    intro e t h alone
    have hmem := List.mem_append_right (operandTokens l ++ [.word " ", .verbatim op, .word " "]) h
    cases alone with
    | true => exact hmem
    | false => exact List.mem_append_left _ (List.mem_append_right _ hmem)

/-- Every scalar is treated alike: all are refused, or each is put into the slot of one test. -/
inductive Uniform (f : Value → Except Error Comparison) : Prop where
  | refused (e : Error) (h : ∀ v, v.isScalar = true → f v = .error e)
  | slot {K : Expr → Comparison} (hK : Comparison.Slot K)
      (h : ∀ v, v.isScalar = true → f v = .ok (K (.literal v)))

namespace Uniform

variable {f : Value → Except Error Comparison}

/-- Scalars that are treated alike make matched tests. -/
theorem matched (hf : Uniform f) (hR : OfScalars R) {v v' : Value} (h : R v v') :
    Related (Comparison.Matched R) (f v) (f v') := by
  obtain ⟨hv, hv'⟩ := hR _ _ h
  cases hf with
  | refused e hf =>
      rw [hf v hv, hf v' hv']
      exact .error e
  | slot hK hf =>
      rw [hf v hv, hf v' hv']
      exact .ok (hK.matched (.literal h))

/-- A scalar that is treated like any other is bound. -/
theorem written (hf : Uniform f) {v : Value} (hv : v.isScalar = true) {t : Comparison}
    (ht : f v = .ok t) (alone : Bool) : .bind (.numbered valueStem) v ∈ t.tokens alone := by
  cases hf with
  | refused e hf =>
      rw [hf v hv] at ht
      cases ht
  | slot hK hf =>
      rw [hf v hv] at ht
      cases ht
      exact hK.written List.mem_cons_self alone

/-- A test that reads its value as an operand and goes on with nothing else. -/
theorem of_operand {g : Expr → Except Error Comparison} (hf : ∀ v, f v = valueExpr v >>= g)
    (hg : Uniform fun v => g (.literal v)) : Uniform f := by
  have heq : ∀ v, v.isScalar = true → f v = g (.literal v) := by
    intro v hv
    rw [hf v, valueExpr_scalar hv]
    rfl
  cases hg with
  | refused e hg => exact .refused e fun v hv => (heq v hv).trans (hg v hv)
  | slot hK hg => exact .slot hK fun v hv => (heq v hv).trans (hg v hv)

end Uniform

/-- Compared with a null, all scalars are treated alike. -/
theorem compareNull_uniform (c : Comparator) :
    Uniform fun v => compareNull c (.literal v) := by
  cases c with
  | eq | is => exact .slot (slot_left .is .null) fun _ _ => rfl
  | ne | isNot => exact .slot (slot_left .isNot .null) fun _ _ => rfl
  | _ => exact .refused .invalidOperand fun _ _ => rfl

/-- With the sides turned, all scalars are treated alike. -/
theorem compareTurned_uniform (c : Comparator) (x : Value) : Uniform (compareTurned c x) := by
  have hread {g : Expr → Except Error Comparison}
      (hg : ∀ v, compareTurned c x v = valueOf v >>= fun w => operandOf w >>= g) (v : Value) :
      compareTurned c x v = valueExpr v >>= g := by
    rw [hg v, valueExpr, bind_assoc]
  cases x with
  | null => exact .of_operand (hread fun _ => rfl) (compareNull_uniform c)
  | bool b =>
      refine .of_operand (hread fun _ => rfl) ?_
      dsimp only
      split
      · exact .slot (slot_left c (.truth b)) fun _ _ => rfl
      · exact .refused .invalidOperand fun _ _ => rfl
  | query caption plain scalar =>
      refine .of_operand (hread fun _ => rfl) ?_
      cases scalar with
      | error e => exact .refused e fun _ _ => rfl
      | ok select => exact .slot (slot_left c (.subselect select)) fun _ _ => rfl
  | sql e => exact .of_operand (hread fun _ => rfl) (.refused .invalidOperand fun _ _ => rfl)
  | _ => exact .of_operand (hread fun _ => rfl) (.slot (slot_value c _) fun _ _ => rfl)

/-- By an operator that does not ask for several values all scalars are treated alike. -/
theorem compareBy_uniform {op : String} (hop : op ∉ severalWords) (x : Expr) :
    Uniform (compareBy op x) := by
  simp only [severalWords, List.mem_cons, List.not_mem_nil, or_false, not_or] at hop
  obtain ⟨hin, hnot, hbetween⟩ := hop
  unfold compareBy
  cases comparatorOf? op with
  | some c => exact .of_operand (fun _ => rfl) (.slot (slot_right c x) fun _ _ => rfl)
  | none =>
      simp only [if_neg hin, if_neg hnot, if_neg hbetween]
      exact .of_operand (fun _ => rfl) (.slot (slot_custom op x) fun _ _ => rfl)

/-- In a plain comparison by such an operator all scalars are treated alike. -/
theorem comparePlain_uniform {op : String} (hop : op ∉ severalWords) (x : Value) :
    Uniform (comparePlain op x) := by
  have hcheck (v : Value) : checkValue op v = .ok () := by
    simp only [severalWords, List.mem_cons, List.not_mem_nil, or_false, not_or] at hop
    obtain ⟨hin, hnot, hbetween⟩ := hop
    unfold checkValue
    rw [if_neg (not_or.mpr ⟨hin, hnot⟩), if_neg hbetween]
  have hpresent {v : Value} (hv : v.isScalar = true) : v.isPresent = true := by
    cases v with
    | null => cases hv
    | _ => rfl
  cases hc : (comparatorOf? op).bind turned? with
  | none =>
      refine .refused .noSuchOperation fun v _ => ?_
      rw [comparePlain, hcheck v, hc]
      rfl
  | some c =>
      have heq (v : Value) (hv : v.isScalar = true) : comparePlain op x v = compareTurned c x v := by
        rw [comparePlain, hcheck v, hc, hpresent hv, Bool.not_true]
        show (if isEquality c && false then _ else _) = _
        rw [Bool.and_false]
        rfl
      cases compareTurned_uniform c x with
      | refused e h => exact .refused e fun v hv => (heq v hv).trans (h v hv)
      | slot hK h => exact .slot hK fun v hv => (heq v hv).trans (h v hv)

/-- How an operand is tested, once the operator is read: as an expression or as something that has
no tests of its own. -/
theorem compare_of_word {op : Value} {word : String} (hword : operatorText op = .ok word)
    (x : Value) : (∃ e, compare x op = compareBy word e) ∨ compare x op = comparePlain word x := by
  unfold compare
  rw [hword]
  cases x with
  | sql e =>
      cases e with
      | relation name => exact .inr rfl
      | _ => exact .inl ⟨_, rfl⟩
  | _ => exact .inr rfl

/-- **ALL SCALARS ARE TREATED ALIKE** by an operator that does not ask for several values. -/
theorem compare_uniform {op : Value} (hop : ¬ asksSeveral op) (x : Value) :
    Uniform (compare x op) := by
  cases hword : operatorText op with
  | error e =>
      refine .refused e fun v _ => ?_
      rw [compare, hword]
      rfl
  | ok word =>
      have hnone : word ∉ severalWords := fun hmem => hop ⟨word, hmem, hword⟩
      rcases compare_of_word hword x with ⟨e, heq⟩ | heq
      · exact heq ▸ compareBy_uniform hnone e
      · exact heq ▸ comparePlain_uniform hnone x

/-! ## Tests of several values -/

/-- What is no expression has no test of several values. -/
theorem comparePlain_several {op : String} (hop : op ∈ severalWords) (x v : Value) :
    comparePlain op x v = checkValue op v >>= fun _ => .error .noSuchOperation := by
  have hturned : (comparatorOf? op).bind turned? = none := by
    simp only [severalWords, List.mem_cons, List.not_mem_nil, or_false] at hop
    rcases hop with rfl | rfl | rfl
    · rfl
    · rfl
    · rfl
  unfold comparePlain
  rw [hturned]
  rfl

/-- A membership is of the items that are held, each an operand. -/
theorem memberOf_items (negated : Bool) (x : Expr) {v : Value} {vs : List Value} (hv : v.Holds vs) :
    memberOf negated x v = (vs.mapM valueOf >>= fun items => items.mapM operandOf) >>= fun items =>
      .ok (.inList negated x items) := by
  rw [bind_assoc]
  rcases hv with rfl | rfl
  · rfl
  · rfl

/-- Matched items come in matched pairs. -/
theorem pair_matched {v v' : Value} {vs vs' : List Value} (hv : v.Holds vs) (hv' : v'.Holds vs')
    (h : List.Forall₂ (Value.Matched R) vs vs') :
    Related (fun a b => a.1.Matched R b.1 ∧ a.2.Matched R b.2) v.pair v'.pair := by
  rw [Value.pair, Value.pair, hv.items_eq, hv'.items_eq]
  cases h with
  | nil => exact .error _
  | cons hlow hrest =>
      cases hrest with
      | nil => exact .error _
      | cons hhigh hmore =>
          cases hmore with
          | nil => exact .ok ⟨hlow, hhigh⟩
          | cons _ _ => exact .error _

/-! ## Matched values -/

variable (hR : OfScalars R)
include hR

/-- Matched values are read as matched values. -/
theorem valueOf_matched {v v' : Value} (h : v.Matched R v') :
    Related (Value.Matched R) (valueOf v) (valueOf v') := by
  rcases h with rfl | h
  · exact .refl (fun v => .inl rfl) _
  · rw [valueOf_scalar (hR _ _ h).1, valueOf_scalar (hR _ _ h).2]
    exact .ok (.inr h)

theorem exprOf_matched {v v' : Value} (h : v.Matched R v') :
    (exprOf v).Matched R (exprOf v') := by
  rcases h with rfl | h
  · exact .same _
  · rw [exprOf_scalar (hR _ _ h).1, exprOf_scalar (hR _ _ h).2]
    exact .literal h

theorem operandOf_matched {v v' : Value} (h : v.Matched R v') :
    Related (Expr.Matched R) (operandOf v) (operandOf v') := by
  rcases h with rfl | h
  · exact .refl .same _
  · rw [operandOf_scalar (hR _ _ h).1, operandOf_scalar (hR _ _ h).2]
    exact .ok (.literal h)

/-- Matched items are matched operands. -/
theorem items_matched {vs vs' : List Value} (h : List.Forall₂ (Value.Matched R) vs vs') :
    Related (List.Forall₂ (Expr.Matched R)) (vs.mapM valueOf >>= fun items => items.mapM operandOf)
      (vs'.mapM valueOf >>= fun items => items.mapM operandOf) :=
  (Related.mapM h fun _ _ => valueOf_matched hR).bind fun _ _ hitems =>
    Related.mapM hitems fun _ _ => operandOf_matched hR

/-- Tests between matched bounds are matched. -/
theorem betweenOf_matched (x : Expr) {v v' : Value} {vs vs' : List Value} (hv : v.Holds vs)
    (hv' : v'.Holds vs') (h : List.Forall₂ (Value.Matched R) vs vs') :
    Related (Comparison.Matched R) (betweenOf x v) (betweenOf x v') := by
  refine (pair_matched hv hv' h).bind fun pair pair' hbounds => ?_
  refine (valueOf_matched hR hbounds.1).bind fun _ _ hlow => ?_
  refine (valueOf_matched hR hbounds.2).bind fun _ _ hhigh => ?_
  refine (operandOf_matched hR hlow).bind fun _ _ hlow => ?_
  refine (operandOf_matched hR hhigh).bind fun _ _ hhigh => ?_
  exact .ok (.between (.same x) hlow hhigh)

/-- An operator that asks for several values makes matched tests of matched items. -/
theorem compareBy_matched_items {op : String} (hop : op ∈ severalWords) (x : Expr)
    {v v' : Value} {vs vs' : List Value} (hv : v.Holds vs) (hv' : v'.Holds vs')
    (h : List.Forall₂ (Value.Matched R) vs vs') :
    Related (Comparison.Matched R) (compareBy op x v) (compareBy op x v') := by
  have hmember (negated : Bool) :
      Related (Comparison.Matched R) (memberOf negated x v) (memberOf negated x v') := by
    rw [memberOf_items negated x hv, memberOf_items negated x hv']
    exact (items_matched hR h).bind fun _ _ hitems => .ok (.inList negated (.same x) hitems)
  simp only [severalWords, List.mem_cons, List.not_mem_nil, or_false] at hop
  rcases hop with rfl | rfl | rfl
  · exact hmember false
  · exact hmember true
  · exact betweenOf_matched hR x hv hv' h

/-- Several values are looked at one by one before an operand without tests is refused. -/
theorem checkValue_matched {op : String} (hop : op ∈ severalWords) {v v' : Value}
    {vs vs' : List Value} (hv : v.Holds vs) (hv' : v'.Holds vs')
    (h : List.Forall₂ (Value.Matched R) vs vs') :
    Related (fun _ _ => True) (checkValue op v) (checkValue op v') := by
  have hmembers {w : Value} {ws : List Value} (hw : w.Holds ws) {op : String}
      (hop : op = "IN" ∨ op = "NOT IN") :
      checkValue op w = ws.mapM valueOf >>= fun _ => .ok () := by
    unfold checkValue
    rw [if_pos hop]
    rcases hw with rfl | rfl
    · rfl
    · rfl
  have hitems := Related.mapM h fun _ _ => valueOf_matched hR
  simp only [severalWords, List.mem_cons, List.not_mem_nil, or_false] at hop
  rcases hop with rfl | rfl | rfl
  · rw [hmembers hv (.inl rfl), hmembers hv' (.inl rfl)]
    exact hitems.bind fun _ _ _ => .ok trivial
  · rw [hmembers hv (.inr rfl), hmembers hv' (.inr rfl)]
    exact hitems.bind fun _ _ _ => .ok trivial
  · exact (pair_matched hv hv' h).map fun _ _ _ => trivial

/-- In a plain comparison it makes matched tests of matched items, too. -/
theorem comparePlain_matched_items {op : String} (hop : op ∈ severalWords) (x : Value)
    {v v' : Value} {vs vs' : List Value} (hv : v.Holds vs) (hv' : v'.Holds vs')
    (h : List.Forall₂ (Value.Matched R) vs vs') :
    Related (Comparison.Matched R) (comparePlain op x v) (comparePlain op x v') := by
  rw [comparePlain_several hop, comparePlain_several hop]
  exact (checkValue_matched hR hop hv hv' h).bind fun _ _ _ => .error _

/-- Matched values make matched tests, whatever the operator. -/
theorem compare_matched (x op : Value) {v v' : Value} (h : Value.MatchedUnder R op v v') :
    Related (Comparison.Matched R) (compare x op v) (compare x op v') := by
  have of_items (hop : asksSeveral op) {v v' : Value} {vs vs' : List Value} (hv : v.Holds vs)
      (hv' : v'.Holds vs') (h : List.Forall₂ (Value.Matched R) vs vs') :
      Related (Comparison.Matched R) (compare x op v) (compare x op v') := by
    obtain ⟨word, hmem, hword⟩ := hop
    rcases compare_of_word hword x with ⟨e, heq⟩ | heq
    · rw [heq]
      exact compareBy_matched_items hR hmem e hv hv' h
    · rw [heq]
      exact comparePlain_matched_items hR hmem x hv hv' h
  cases h with
  | same => exact .refl Comparison.Matched.refl _
  | single hop h => exact (compare_uniform hop x).matched hR h
  | list hop h => exact of_items hop (.inl rfl) (.inl rfl) h
  | tuple hop h => exact of_items hop (.inr rfl) (.inr rfl) h

/-- Matched values beside one column are read as matched tests. -/
theorem readTest_matched (c : Catalog) (column op : Value) {v v' : Value}
    (h : Value.MatchedUnder R op v v') :
    Related (Comparison.Matched R) (readTest c column op v) (readTest c column op v') := by
  rw [readTest, readTest]
  exact Related.behind _ fun x => compare_matched hR x op h

end ModelQuery.Sql
