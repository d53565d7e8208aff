import ModelQuery.Proofs.Execution.Reset
import ModelQuery.Proofs.Query.Brackets

/-!
# The conditions of a run

A caller writes a clause as a word: conditions, openings and closings, with anything else said in
between.  `marks` is that word as a run says it, each column as it is resolved when it is said, and
the builder hears it mark by mark (`clause_act`, `clause_performed`).  What it makes of the word is
then no longer about builders: `Brackets` has it.
-/

namespace ModelQuery

open Step Mark OpenConditions

/-- The conditions of a clause as the query has them. -/
def Builder.conditions (k : Clause) (b : Builder) : List Condition :=
  match k with
  | .filter => b.query.filter
  | .having => b.query.having

namespace Session

variable {k : Clause}

/-! ## What a run says -/

/-- What an action says about a clause, for a builder that resolves the column. -/
def mark? (k : Clause) (b : Builder) : Action → Option Mark
  | .call (.condition k' logic column op value) =>
    if k' = k then some (.test logic (b.scope.column (Builder.qualified k') column) op value)
    else none
  | .call (.openGroup k' logic) => if k' = k then some (.opening logic) else none
  | .call (.closeGroup k') => if k' = k then some .closing else none
  | _ => none

/-- The word that a run says about a clause, closings that are refused included. -/
def marks (k : Clause) : List Action → Session → List Mark
  | [], _ => []
  | a :: rest, s => (mark? k s.builder a).toList ++ marks k rest (after (act a) s)

/-- The actions about a clause are of three kinds. -/
theorem about_cases {a : Action} (h : a.clause? = some k) :
    (∃ logic column op value, a = .call (.condition k logic column op value)) ∨
    (∃ logic, a = .call (.openGroup k logic)) ∨ a = .call (.closeGroup k) := by
  cases a with
  | execute group => cases h
  | count => cases h
  | call c =>
      cases c with
      | condition k' logic column op value =>
          cases h
          exact .inl ⟨logic, column, op, value, rfl⟩
      | openGroup k' logic =>
          cases h
          exact .inr (.inl ⟨logic, rfl⟩)
      | closeGroup k' =>
          cases h
          exact .inr (.inr rfl)
      | _ => cases h

theorem mark?_of_ne {a : Action} (h : a.clause? ≠ some k) (b : Builder) : mark? k b a = none := by
  cases a with
  | execute group => rfl
  | count => rfl
  | call c =>
      cases c with
      | condition k' logic column op value => exact if_neg fun hk => h (congrArg some hk)
      | openGroup k' logic => exact if_neg fun hk => h (congrArg some hk)
      | closeGroup k' => exact if_neg fun hk => h (congrArg some hk)
      | _ => rfl

/-! ## What the builder makes of it -/

/-- A condition is pushed, and never fails. -/
theorem act_condition (logic : Logic) (column op value : Value) (s : Session) :
    act (.call (.condition k logic column op value)) s =
      .ok (.reply .done) { s with builder := s.builder.condition k logic column op value } := rfl

theorem act_openGroup (logic : Logic) (s : Session) :
    act (.call (.openGroup k logic)) s =
      .ok (.reply .done) { s with builder := s.builder.openGroup k logic } := rfl

/-- A group is closed; where none is open this fails, and nothing changes. -/
theorem act_closeGroup (s : Session) :
    act (.call (.closeGroup k)) s =
      match (s.builder.draft.clause k).close? with
      | none => .error .noOpenGroup s
      | some o =>
        .ok (.reply .done)
          { s with builder := s.builder.withDraft (Draft.onClause k fun _ => o) } := by
  cases hclose : (s.builder.draft.clause k).close? with
  | none =>
      have hone : Call.closeOne k s.builder = .error .noOpenGroup := by
        rw [Call.closeOne, Builder.closeGroup?, hclose]
        rfl
      have hrun : (Call.closeGroup k).run s.builder = .error .noOpenGroup s.builder := by
        rw [Call.run, tryChange, hone]
      exact act_call_error hrun
  | some o =>
      have hone : Call.closeOne k s.builder =
          .ok (s.builder.withDraft (Draft.onClause k fun _ => o)) := by
        rw [Call.closeOne, Builder.closeGroup?, hclose]
        rfl
      have hrun : (Call.closeGroup k).run s.builder =
          .ok .done (s.builder.withDraft (Draft.onClause k fun _ => o)) := by
        rw [Call.run, tryChange, hone]
      exact act_call_ok Call.noConfusion hrun

/-- An action other than a reset is heard as what it says, and as nothing by the other clause. -/
theorem clause_act {a : Action} (ha : a ≠ .call .reset) (s : Session) :
    (after (act a) s).builder.draft.clause k =
      (mark? k s.builder a).toList.foldl hear (s.builder.draft.clause k) := by
  by_cases hk : a.clause? = some k
  · -- of the three that are about the clause, only a closing may find nothing to do
    obtain ⟨logic, column, op, value, rfl⟩ | ⟨logic, rfl⟩ | rfl := about_cases hk
    · rw [mark?, if_pos rfl, after, act_condition]
      exact Draft.clause_onClause_self k _ s.builder.draft
    · rw [mark?, if_pos rfl, after, act_openGroup]
      exact Draft.clause_onClause_self k _ s.builder.draft
    · rw [mark?, if_pos rfl, after, act_closeGroup]
      show _ = (s.builder.draft.clause k).close?.getD (s.builder.draft.clause k)
      cases (s.builder.draft.clause k).close? with
      | none => rfl
      | some o => exact Draft.clause_onClause_self k _ s.builder.draft
  · rw [mark?_of_ne hk]
    exact (kept_act ha s).clause k hk

/-- By induction on the run: the clause has heard the word. -/
theorem clause_performed {actions : List Action} (h : .call .reset ∉ actions) (s : Session) :
    (performed actions s).builder.draft.clause k =
      (marks k actions s).foldl hear (s.builder.draft.clause k) := by
  induction actions generalizing s with
  | nil => rfl
  | cons a rest ih =>
      obtain ⟨ha, hrest⟩ := not_or.mp fun hmem => h (List.mem_cons.mpr hmem)
      show (performed rest (after (act a) s)).builder.draft.clause k = _
      rw [ih hrest, clause_act (Ne.symm ha), marks, List.foldl_append]

/-! ## The whole run -/

/-- A session whose clause is a word read as a bracketed expression. -/
structure Bracketed (k : Clause) (ms : List Mark) (s : Session) : Prop where
  /-- The conditions are those the word spells, with a closing for each group left open and without
  the closings that close nothing. -/
  spells : ∀ cs, Reads (balanced 0 ms) cs ↔ cs = s.builder.conditions k
  /-- One more closing is refused exactly if no group is open. -/
  closing : act (.call (.closeGroup k)) s = .error .noOpenGroup s ↔ openBehind 0 ms = 0
  /-- Nothing else about the clause is ever refused, and what is refused changes nothing. -/
  refused : ∀ a e t, a.clause? = some k → act a s = .error e t →
    a = .call (.closeGroup k) ∧ e = .noOpenGroup ∧ t = s
  /-- What is not about the clause changes neither its conditions nor its open groups. -/
  others : ∀ a, a ≠ .call .reset → a.clause? ≠ some k →
    (after (act a) s).builder.draft.clause k = s.builder.draft.clause k

theorem conditions_eq (k : Clause) (b : Builder) :
    b.conditions k = (b.draft.clause k).conditions := by
  cases k <;> rfl

/-- Groups cannot be closed just where none is open. -/
theorem close?_eq_none (o : OpenConditions) : o.close? = none ↔ o.enclosing.length = 0 := by
  obtain ⟨current, enclosing⟩ := o
  cases enclosing with
  | nil => exact ⟨fun _ => rfl, fun _ => rfl⟩
  | cons outer around => exact ⟨nofun, nofun⟩

/-- A closing action fails just where no group of its clause is open. -/
theorem closing_iff (s : Session) :
    act (.call (.closeGroup k)) s = .error .noOpenGroup s ↔
      (s.builder.draft.clause k).enclosing.length = 0 := by
  rw [act_closeGroup, ← close?_eq_none]
  cases (s.builder.draft.clause k).close? with
  | none => exact ⟨fun _ => rfl, fun _ => rfl⟩
  | some o => exact ⟨nofun, nofun⟩

/-- Of the actions on a clause only a closing one fails, and it leaves the session as it was. -/
theorem refused_cases {a : Action} {e : Error} {s t : Session} (hk : a.clause? = some k)
    (h : act a s = .error e t) : a = .call (.closeGroup k) ∧ e = .noOpenGroup ∧ t = s := by
  obtain ⟨logic, column, op, value, rfl⟩ | ⟨logic, rfl⟩ | rfl := about_cases hk
  · rw [act_condition] at h
    cases h
  · rw [act_openGroup] at h
    cases h
  · rw [act_closeGroup] at h
    split at h
    · cases h
      exact ⟨rfl, rfl, rfl⟩
    · cases h

/-- **CLAUSES ARE BRACKETED EXPRESSIONS**: whatever a run without resets does to a new builder, and
whatever comes of it, the conditions of a clause are what the run said about the clause, read as a
bracketed expression, and no other clause, call, execution or count has a part in it. -/
theorem conditions_bracketed {registry : Registry} {model kind : Value} {b : Builder}
    (h : Builder.create registry model kind = .ok b) (database : Option Database)
    {actions : List Action} (hreset : .call .reset ∉ actions) (k : Clause) :
    Bracketed k (marks k actions (ofBuilder b database))
      (performed actions (ofBuilder b database)) := by
  obtain ⟨_, hopened⟩ := Builder.opened_of_create h
  obtain ⟨-, -, -, hempty⟩ := Builder.opened_eq_ok hopened
  have hclause : (performed actions (ofBuilder b database)).builder.draft.clause k =
      (marks k actions (ofBuilder b database)).foldl hear .empty := by
    rw [clause_performed hreset, ← hempty k]
    rfl
  have hreads : Reads (balanced 0 (marks k actions (ofBuilder b database)))
      ((performed actions (ofBuilder b database)).builder.conditions k) := by
    rw [conditions_eq, hclause]
    exact reads_hear .empty _
  refine ⟨fun cs => ⟨fun hcs => hcs.unique hreads, ?_⟩, ?_, fun a e t => refused_cases, ?_⟩
  · rintro rfl
    exact hreads
  · rw [closing_iff, hclause, length_enclosing_hear]
    rfl
  · exact fun a ha hk => (kept_act ha _).clause k hk

/-- Two groups, one in the other and both left open, after a closing too many; a condition of the
other clause and a new canonical model in between. -/
def nested : List Action :=
  [.call (.condition .filter .and (.text "a") (.text "=") (.int 1)),
    .call (.closeGroup .filter), .call (.openGroup .filter .or),
    .call (.condition .having .or (.text "n") (.text ">") (.int 2)),
    .call (.addTables [.text "user"]),
    .call (.condition .filter .and (.text "name") (.text "=") .null),
    .call (.openGroup .filter .and), .call (.openGroup .filter .or), .call (.closeGroup .filter),
    .call (.condition .filter .or (.text "b") (.text "=") (.int 3)), .count]

/-- Two nested groups in WHERE, with a HAVING between their parts. -/
theorem nested_bracketed :
    ∃ b, Builder.create (.ofModels [userModel]) (.text "log") (.text "select") = .ok b ∧
      let ms := marks .filter nested (ofBuilder b none)
      let s := performed nested (ofBuilder b none)
      openBehind 0 ms = 2 ∧
      Reads (balanced 0 ms)
        [.test .and (.text "a") (.text "=") (.int 1),
          .group .or [.test .and (.text "users.name") (.text "=") .null,
            .group .and [.group .or [], .test .or (.text "users.b") (.text "=") (.int 3)]]] ∧
      s.builder.conditions .having = [.test .or (.text "n") (.text ">") (.int 2)] := by
  have hreset : .call .reset ∉ nested := by simp [nested]
  have h := @conditions_bracketed (.ofModels [userModel]) (.text "log") (.text "select") _ rfl none
    nested hreset .filter
  exact ⟨_, rfl, rfl, (h.spells _).mpr rfl, rfl⟩

end Session

end ModelQuery
