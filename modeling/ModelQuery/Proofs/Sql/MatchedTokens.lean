import ModelQuery.Proofs.Sql.Matched

/-!
# Statements that differ in values, in words

A value of a statement is one token of its own.  Statements that differ in scalars have the same
tokens but for these (`statementTokens_matched`): no value decides what is written beside it.
-/

namespace ModelQuery

/-- A token and what stands in its place: only a bound value is replaced. -/
inductive Token.Matched (R : Value → Value → Prop) : Token → Token → Prop where
  | same (t : Token) : Matched R t t
  | bind (name : BindName) {v v' : Value} (h : R v v') : Matched R (.bind name v) (.bind name v')

namespace Sql

open Outcome

variable {R : Value → Value → Prop}

/-- Tokens one by one. -/
def TokensMatched (R : Value → Value → Prop) : List Token → List Token → Prop :=
  List.Forall₂ (Token.Matched R)

namespace TokensMatched

theorem refl (ts : List Token) : TokensMatched R ts ts := List.forall₂_same.mpr fun t _ => .same t

theorem append {ts ts' us us' : List Token} (ht : TokensMatched R ts ts')
    (hu : TokensMatched R us us') : TokensMatched R (ts ++ us) (ts' ++ us') :=
  List.rel_append ht hu

theorem parenthesized {ts ts' : List Token} (h : TokensMatched R ts ts') :
    TokensMatched R (Formula.parenthesized ts) (Formula.parenthesized ts') :=
  ((refl _).append h).append (refl _)

theorem separated (sep : String) {groups groups' : List (List Token)}
    (h : List.Forall₂ (TokensMatched R) groups groups') :
    TokensMatched R (separated sep groups) (separated sep groups') := by
  induction h with
  | nil => exact refl []
  | cons hg hrest ih =>
      cases hrest with
      | nil => exact hg
      | cons hsecond hmore => exact (hg.append (refl _)).append ih

end TokensMatched

/-! ## Conditions -/

/-- Matched operands have matched words. -/
theorem operandTokens_matched {e e' : Expr} (h : e.Matched R e') :
    TokensMatched R (operandTokens e) (operandTokens e') := by
  cases h with
  | same => exact .refl _
  | literal h => exact .cons (.bind _ h) .nil

theorem stemBeside_matched {e e' : Expr} (h : e.Matched R e') :
    Comparison.stemBeside e = Comparison.stemBeside e' := by
  cases h with
  | same => rfl
  | literal _ => rfl

theorem membership_matched (negated : Bool) {x x' : Expr} {set set' : List Token}
    (hx : x.Matched R x') (hset : TokensMatched R set set') :
    TokensMatched R (Comparison.membership negated x set)
      (Comparison.membership negated x' set') := by
  have hin (word : String) := ((operandTokens_matched hx).append (.refl [.word word])).append hset
  cases negated with
  | false => exact hin " IN "
  | true => exact (hin " NOT IN ").parenthesized

theorem memberTokens_matched (negated : Bool) {x x' : Expr} {items items' : List Expr}
    (hx : x.Matched R x') (h : List.Forall₂ (Expr.Matched R) items items') :
    TokensMatched R (Comparison.setTokens negated x items)
      (Comparison.setTokens negated x' items') := by
  cases h with
  | nil =>
      rw [Comparison.setTokens, Comparison.setTokens, stemBeside_matched hx]
      exact .refl _
  | cons he hrest =>
      refine TokensMatched.parenthesized (TokensMatched.separated ", " ?_)
      exact List.rel_map (fun _ _ he => operandTokens_matched he) (.cons he hrest)

/-- Matched tests have matched words. -/
theorem comparisonTokens_matched (alone : Bool) {t t' : Comparison} (h : t.Matched R t') :
    TokensMatched R (t.tokens alone) (t'.tokens alone) := by
  cases h with
  | compare c hl hr =>
      exact ((operandTokens_matched hl).append (.refl _)).append (operandTokens_matched hr)
  | compareValue c hl v =>
      rw [Comparison.tokens, Comparison.tokens, stemBeside_matched hl]
      exact (operandTokens_matched hl).append (.refl _)
  | custom op hl hr =>
      have hts := ((operandTokens_matched hl).append
        (.refl [.word " ", .verbatim op, .word " "])).append (operandTokens_matched hr)
      cases alone with
      | true => exact hts
      | false => exact hts.parenthesized
  | between hx hlow hhigh =>
      exact ((((operandTokens_matched hx).append (.refl _)).append
        (operandTokens_matched hlow)).append (.refl _)).append (operandTokens_matched hhigh)
  | inList negated hx hitems =>
      exact membership_matched negated hx (memberTokens_matched negated hx hitems)
  | inQuery negated x select => exact .refl _

theorem conjunct_matched {α : Type} {S : α → α → Prop} {f f' : Formula α} (hf : f.Matched S f')
    {ts ts' : List Token} (h : TokensMatched R ts ts') :
    TokensMatched R (f.conjunct ts) (f'.conjunct ts') := by
  cases hf with
  | test _ => exact h
  | and _ _ => exact h
  | or _ _ => exact h.parenthesized

/-- Matched conditions have matched words. -/
theorem filterTokens_matched {f f' : Filter} (h : f.Matched (Comparison.Matched R) f') :
    TokensMatched R (filterTokens f) (filterTokens f') := by
  have htokens (alone : Bool) : TokensMatched R (f.tokens Comparison.tokens alone)
      (f'.tokens Comparison.tokens alone) := by
    induction h generalizing alone with
    | test ht => exact comparisonTokens_matched alone ht
    | and hl hr ihl ihr =>
        exact ((conjunct_matched hl (ihl false)).append (.refl _)).append
          (conjunct_matched hr (ihr false))
    | or hl hr ihl ihr => exact ((ihl false).append (.refl _)).append (ihr false)
  exact htokens true

/-- Clauses of matched conditions have matched words. -/
theorem clauseTokens_matched (opening : String) {f f' : Option Filter} (h : FilterMatched R f f') :
    TokensMatched R (clauseTokens opening f) (clauseTokens opening f') := by
  cases h with
  | none => exact .refl _
  | some hf => exact (TokensMatched.refl _).append (filterTokens_matched hf)

/-! ## Sources -/

/-- Matched operands read the same sources. -/
theorem exprSources_matched {e e' : Expr} (h : e.Matched R e') : exprSources e = exprSources e' := by
  cases h with
  | same => rfl
  | literal _ => rfl

theorem exprSourcesAll_matched {es es' : List Expr} (h : List.Forall₂ (Expr.Matched R) es es') :
    exprSourcesAll es = exprSourcesAll es' := by
  induction h with
  | nil => rfl
  | cons he _ ih => rw [exprSourcesAll, exprSourcesAll, exprSources_matched he, ih]

/-- Matched tests read the same sources. -/
theorem comparisonSources_matched {t t' : Comparison} (h : t.Matched R t') :
    t.sources = t'.sources := by
  cases h with
  | compare c hl hr | custom op hl hr =>
      rw [Comparison.sources, Comparison.sources, exprSources_matched hl, exprSources_matched hr]
  | compareValue c hl v => exact exprSources_matched hl
  | between hx hlow hhigh =>
      rw [Comparison.sources, Comparison.sources, exprSources_matched hx, exprSources_matched hlow,
        exprSources_matched hhigh]
  | inList negated hx hitems =>
      rw [Comparison.sources, Comparison.sources, exprSources_matched hx,
        exprSourcesAll_matched hitems]
  | inQuery negated x select => rfl

theorem filterSources_matched {f f' : Option Filter} (h : FilterMatched R f f') :
    filterSources f = filterSources f' := by
  cases h with
  | none => rfl
  | some hf =>
      rw [filterSources, filterSources]
      induction hf with
      | test ht => simp only [Formula.tests, List.flatMap_singleton, comparisonSources_matched ht]
      | and _ _ ihl ihr | or _ _ ihl ihr =>
          simp only [Formula.tests, List.flatMap_append, ihl, ihr]

/-! ## SELECT -/

/-- Matched SELECTs read the same sources. -/
theorem read_matched {s s' : Select} (h : s.Matched R s') : s.read = s'.read := by
  cases h with
  | intro hfilter hhaving => rw [Select.read, Select.read, filterSources_matched hfilter]

/-- Matched SELECTs have matched words. -/
theorem selectTokens_matched {s s' : Select} (h : s.Matched R s') :
    TokensMatched R s.tokens s'.tokens := by
  have hclauses : TokensMatched R s.clauses s'.clauses := by
    have hread := read_matched h
    cases h with
    | intro hfilter hhaving =>
        rw [Select.clauses, Select.clauses, hread]
        exact (((((TokensMatched.refl _).append (clauseTokens_matched " \nWHERE " hfilter)).append
          (.refl _)).append (clauseTokens_matched " \nHAVING " hhaving)).append (.refl _)).append
          (.refl _)
  have hopening : s.items = s'.items ∧ s.opening = s'.opening := by
    cases h
    exact ⟨rfl, rfl⟩
  rw [Select.tokens, Select.tokens, hopening.1]
  cases itemsTokens {} s'.items with
  | error cause => exact .refl _
  | ok items =>
      show TokensMatched R (s.tokensWith items) (s'.tokensWith items)
      rw [Select.tokensWith, Select.tokensWith, hopening.2]
      exact (TokensMatched.refl _).append hclauses

/-- The counts of matched conditions have matched words. -/
theorem countTokens_matched (tables : Option Tables) {f f' : Option Filter}
    (h : FilterMatched R f f') : TokensMatched R (countTokens tables f) (countTokens tables f') := by
  rw [countTokens, countTokens, filterSources_matched h]
  exact (TokensMatched.refl _).append (clauseTokens_matched " \nWHERE " h)

/-! ## Assignments -/

theorem valuesFor_matched (column : String) {as as' : List Assignment}
    (h : List.Forall₂ (Assignment.Matched R) as as') :
    List.Forall₂ (Expr.Matched R) (valuesFor column as) (valuesFor column as') := by
  refine List.rel_filterMap (fun a a' ha => ?_) h
  rw [ha.1]
  split
  · exact .some ha.2
  · exact .none

theorem namelessValues_matched {as as' : List Assignment}
    (h : List.Forall₂ (Assignment.Matched R) as as') :
    List.Forall₂ (fun e e' => e.1 = e'.1 ∧ Expr.Matched R e.2 e'.2) (namelessValues as)
      (namelessValues as') := by
  refine List.rel_filterMap (fun a a' ha => ?_) h
  rw [ha.1]
  split
  · exact .some ⟨rfl, ha.2⟩
  · exact .none

/-- Matched assignments have matched values for the columns of a table. -/
theorem columnValues_matched (columns : List String) {as as' : List Assignment}
    (h : List.Forall₂ (Assignment.Matched R) as as') :
    List.Forall₂ (fun e e' => e.1 = e'.1 ∧ Expr.Matched R e.2 e'.2) (columnValues columns as)
      (columnValues columns as') := by
  induction columns with
  | nil => exact .nil
  | cons c rest ih =>
      have hvalues := valuesFor_matched c h
      rw [columnValues, columnValues, List.filterMap_cons, List.filterMap_cons]
      generalize valuesFor c as = es, valuesFor c as' = es' at hvalues
      cases hvalues with
      | nil => exact ih
      | cons he _ => exact .cons ⟨rfl, he⟩ ih

/-- Matched assignments are both invalid, or neither. -/
theorem invalidFault_matched {as as' : List Assignment}
    (h : List.Forall₂ (Assignment.Matched R) as as') : invalidFault as = invalidFault as' := by
  rw [invalidFault, invalidFault, hasInvalid, hasInvalid,
    any_target_matched (fun htarget => by rw [htarget]) h]

theorem leftoverFault_matched (columns : List String) {as as' : List Assignment}
    (h : List.Forall₂ (Assignment.Matched R) as as') :
    leftoverFault columns as = leftoverFault columns as' := by
  rw [leftoverFault, leftoverFault, all_target_matched (fun htarget => by rw [htarget]) h]

theorem namedTokens_matched (name : String) {e e' : Expr} (h : e.Matched R e') :
    TokensMatched R (namedTokens name e) (namedTokens name e') := by
  cases h with
  | same => exact .refl _
  | literal h => exact .cons (.bind _ h) .nil

/-- Matched assignments have matched SET lists. -/
theorem setTokens_matched (into : Changed) {as as' : Option (List Assignment)}
    (h : Option.Rel (List.Forall₂ (Assignment.Matched R)) as as') :
    TokensMatched R (setTokens into as) (setTokens into as') := by
  cases h with
  | none => exact .refl _
  | some has =>
      rw [setTokens, setTokens, invalidFault_matched has, leftoverFault_matched into.columns has]
      refine ((TokensMatched.refl _).append (TokensMatched.separated ", " ?_)).append (.refl _)
      refine List.rel_append ?_ ?_
      · refine List.rel_map ?_ (namelessValues_matched has)
        rintro ⟨t, e⟩ ⟨t', e'⟩ ⟨rfl, he⟩
        exact (TokensMatched.refl _).append (operandTokens_matched he)
      · refine List.rel_map ?_ (columnValues_matched into.columns has)
        rintro ⟨c, e⟩ ⟨c', e'⟩ ⟨rfl, he⟩
        exact (TokensMatched.refl _).append (namedTokens_matched c he)

/-- UPDATEs of matched assignments and conditions have matched words. -/
theorem updateTokens_matched (into : Changed) {as as' : Option (List Assignment)}
    {f f' : Option Filter} (has : Option.Rel (List.Forall₂ (Assignment.Matched R)) as as')
    (h : FilterMatched R f f') :
    TokensMatched R (updateTokens into as f) (updateTokens into as' f') := by
  rw [updateTokens, updateTokens, furtherSources, furtherSources, filterSources_matched h]
  exact (((TokensMatched.refl _).append (setTokens_matched into has)).append (.refl _)).append
    (clauseTokens_matched " WHERE " h)

/-- DELETEs of matched conditions have matched words. -/
theorem deleteTokens_matched (d : Dialect) (into : Changed) {f f' : Option Filter}
    (h : FilterMatched R f f') :
    TokensMatched R (deleteTokens d into f) (deleteTokens d into f') := by
  rw [deleteTokens, deleteTokens, furtherSources, furtherSources, filterSources_matched h]
  exact (TokensMatched.refl _).append (clauseTokens_matched " WHERE " h)

/-! ## INSERT -/

theorem laterValue_matched (cause : Error) {es es' : List Expr}
    (h : List.Forall₂ (Expr.Matched R) es es') :
    TokensMatched R (laterValue cause es) (laterValue cause es') := by
  have hreverse := List.forall₂_reverse_iff.mpr h
  rw [laterValue, laterValue, List.getLast?_eq_head?_reverse, List.getLast?_eq_head?_reverse]
  generalize es.reverse = es, es'.reverse = es' at hreverse
  cases hreverse with
  | nil => exact .refl _
  | cons he _ => exact operandTokens_matched he

theorem rowTokens_matched {values values' : List (List Token)}
    (h : List.Forall₂ (TokensMatched R) values values') :
    TokensMatched R (rowTokens values) (rowTokens values') :=
  (TokensMatched.separated ", " h).parenthesized

/-- Matched assignments have matched words as a later row. -/
theorem laterRow_matched (nameless : Nat) (columns : List String) {as as' : List Assignment}
    (h : List.Forall₂ (Assignment.Matched R) as as') :
    TokensMatched R (laterRow nameless columns as) (laterRow nameless columns as') := by
  have hfirst : TokensMatched R
      (laterValue .noSuchOperation ((namelessValues as).map Prod.snd))
      (laterValue .noSuchOperation ((namelessValues as').map Prod.snd)) :=
    laterValue_matched _ (List.rel_map (fun _ _ he => he.2) (namelessValues_matched h))
  rw [laterRow, laterRow, invalidFault_matched h]
  refine (TokensMatched.refl _).append (rowTokens_matched (List.rel_append ?_ ?_))
  · induction nameless with
    | zero => exact .nil
    | succ n ih => exact .cons hfirst ih
  · refine List.forall₂_map_left_iff.mpr (List.forall₂_map_right_iff.mpr ?_)
    exact List.forall₂_same.mpr fun c _ => laterValue_matched _ (valuesFor_matched c h)

/-- An INSERT writes the same columns and matched rows. -/
theorem insertRows_matched (into : Changed) {rows rows' : Option (List (List Assignment))}
    (h : Option.Rel (List.Forall₂ (List.Forall₂ (Assignment.Matched R))) rows rows') :
    (insertRows into rows).columns = (insertRows into rows').columns ∧
      List.Forall₂ (TokensMatched R) (insertRows into rows).rows (insertRows into rows').rows := by
  cases h with
  | none => exact ⟨rfl, List.forall₂_same.mpr fun ts _ => .refl ts⟩
  | some h =>
      cases h with
      | nil => exact ⟨rfl, List.forall₂_same.mpr fun ts _ => .refl ts⟩
      | @cons first first' later later' hfirst hlater =>
          have hnameless := namelessValues_matched hfirst
          have hcells := columnValues_matched into.columns hfirst
          constructor
          · show (namelessValues first).map (targetTokens ∘ Prod.fst) ++
              (columnValues into.columns first).map ((fun c => [Token.name c]) ∘ Prod.fst) = _
            rw [← List.map_map, ← List.map_map, map_fst_matched hnameless, map_fst_matched hcells,
              List.map_map, List.map_map]
            rfl
          · rw [insertRows, insertRows]
            dsimp only
            rw [invalidFault_matched hfirst, leftoverFault_matched into.columns hfirst,
              hnameless.length_eq, map_fst_matched hcells]
            refine .cons (((TokensMatched.refl _).append (rowTokens_matched ?_)).append (.refl _)) ?_
            · refine List.rel_append ?_ ?_
              · exact List.rel_map (fun _ _ he => operandTokens_matched he.2) hnameless
              · refine List.rel_map ?_ hcells
                rintro ⟨c, e⟩ ⟨c', e'⟩ ⟨rfl, he⟩
                exact namedTokens_matched _ he
            · exact List.rel_map (fun _ _ hrow => laterRow_matched _ _ hrow) hlater

/-- INSERTs of matched rows have matched words. -/
theorem insertTokens_matched (d : Dialect) (into : Changed)
    {rows rows' : Option (List (List Assignment))}
    (h : Option.Rel (List.Forall₂ (List.Forall₂ (Assignment.Matched R))) rows rows') :
    TokensMatched R (insertTokens d into rows) (insertTokens d into rows') := by
  obtain ⟨hcolumns, hrows⟩ := insertRows_matched into h
  rw [insertTokens, insertTokens]
  dsimp only
  rw [hcolumns]
  refine ((TokensMatched.refl _).append ?_).append (.refl _)
  split
  · refine (TokensMatched.refl _).append (List.rel_filter (fun t t' ht => ?_) ?_)
    · cases ht with
      | same => exact Iff.rfl
      | bind => exact Iff.rfl
    · exact List.rel_flatten hrows
  · exact (TokensMatched.refl _).append (TokensMatched.separated ", " hrows)

/-! ## Statements -/

/-- **MATCHED STATEMENTS** have matched words. -/
theorem statementTokens_matched (d : Dialect) {s s' : Statement} (h : s.Matched R s') :
    TokensMatched R (s.tokens d) (s'.tokens d) := by
  cases h with
  | select h => exact selectTokens_matched h
  | count tables h => exact countTokens_matched tables h
  | update into has h => exact updateTokens_matched into has h
  | insert into h => exact insertTokens_matched d into h
  | delete into h => exact deleteTokens_matched d into h

end Sql

end ModelQuery
