import ModelQuery.Proofs.Execution.Runs

/-!
# Executed once

A run hands statements to its database: an execution at most one, a count at most one, a call none.
`sent` lists them in order, each with its sender and with whether the database answered it; that
nothing else reaches the database is `performed_database`.

Whether an execution sends at all hangs on one slot, the answer the session has.  Only an execution
that returns fills it, only a reset empties it, and no count looks at it.  A statement that changes
rows needs nothing from its answer, so that once the database has answered it the slot is full, and
no execution behind it sends until the next reset.
-/

namespace ModelQuery

open Step

/-! ## What a database is given -/

/-- A statement handed to a database. -/
structure Sending where
  /-- By an execution; else by a count. -/
  byExecution : Bool
  group : Value
  statement : Sql.Statement
  /-- The database answered and did not refuse. -/
  answered : Bool

namespace Database

/-- The handing over of a statement. -/
def sending (byExecution : Bool) (group : Value) (st : Sql.Statement) (db : Database) : Sending :=
  ⟨byExecution, group, st, (db.run group st).1.isOk⟩

/-- The database after it was given statements, whatever it answered. -/
def given (xs : List Sending) (db : Database) : Database :=
  xs.foldl (fun db x => (db.run x.group x.statement).2) db

/-- A statement that was answered is the last of those given. -/
theorem calls_run {group : Value} {st : Sql.Statement} {db : Database} {a : DatabaseAnswer}
    (h : (db.run group st).1 = .ok a) : (db.run group st).2.calls = db.calls ++ [(group, st)] := by
  obtain ⟨backing, calls⟩ := db
  cases backing with
  | single script failures =>
      cases failures with
      | zero => rfl
      | succ n => rfl
  | grouped groups =>
      rw [run] at h ⊢
      dsimp only at h ⊢
      cases hscript : scriptOf groups group with
      | error e =>
          rw [hscript] at h
          cases h
      | ok script => rfl
  | custom lends respond => rfl

/-- What a change of rows is answered with is no rows. -/
theorem answer_of_change {group : Value} {st : Sql.Statement} {db : Database} {a : DatabaseAnswer}
    (hst : st.hasRows = false) (h : (db.run group st).1 = .ok a) : ∃ m, a = .mutation m := by
  have hanswer : ∀ script lastrowid, ∃ m, answer script lastrowid st = .mutation m := by
    intro script lastrowid
    rw [answer, hst]
    exact ⟨_, rfl⟩
  obtain ⟨backing, calls⟩ := db
  cases backing with
  | single script failures =>
      cases failures with
      | zero =>
          cases h
          exact hanswer ..
      | succ n => cases h
  | grouped groups =>
      rw [run] at h
      dsimp only at h
      cases hscript : scriptOf groups group with
      | error e =>
          rw [hscript] at h
          cases h
      | ok script =>
          rw [hscript] at h
          cases h
          exact hanswer ..
  | custom lends respond =>
      obtain ⟨script, -, rfl⟩ := Outcome.map_eq_ok h
      exact hanswer ..

end Database

namespace Session

/-- The statement, if there is one, handed to the database, if there is one. -/
def handing? (byExecution : Bool) (group : Value) (statement : Except Error Sql.Statement)
    (s : Session) : Option Sending :=
  match s.database, statement with
  | some db, .ok st => some (db.sending byExecution (s.builder.groupOr group) st)
  | _, _ => none

/-- What an action hands to the database. -/
def sending? (s : Session) : Action → Option Sending
  | .call _ => none
  | .execute group => if s.answered.isSome then none else s.handing? true group s.builder.toSend
  | .count => s.handing? false (.text defaultGroup) s.builder.countStatement

/-- What is handed over is the statement, to the database that there is. -/
theorem handing?_eq_some {b : Bool} {group : Value} {statement : Except Error Sql.Statement}
    {s : Session} {y : Sending} (h : s.handing? b group statement = some y) :
    ∃ db st, s.database = some db ∧ statement = .ok st ∧
      y = db.sending b (s.builder.groupOr group) st := by
  unfold handing? at h
  split at h
  · rename_i db st hd
    exact ⟨db, st, hd, rfl, (Option.some.inj h).symm⟩
  · cases h

/-- Executing sends the statement of the builder, if there is no answer yet. -/
theorem sending?_execute {group : Value} {s : Session} {y : Sending}
    (h : s.sending? (.execute group) = some y) :
    s.answered = none ∧ ∃ db st, s.database = some db ∧ s.builder.toSend = .ok st ∧
      y = db.sending true (s.builder.groupOr group) st := by
  rw [sending?] at h
  split at h
  · cases h
  · rename_i ha
    exact ⟨Option.not_isSome_iff_eq_none.mp ha, handing?_eq_some h⟩

/-- What the actions of a run hand to the database, in order. -/
def sent : List Action → Session → List Sending
  | [], _ => []
  | a :: rest, s => (s.sending? a).toList ++ sent rest (after (act a) s)

/-- The statements the session's database was given. -/
def calls (s : Session) : List (Value × Sql.Statement) :=
  match s.database with
  | some db => db.calls
  | none => []

theorem map_given_nil (database : Option Database) : database.map (Database.given []) = database := by
  cases database <;> rfl

/-- An action gives the database what it hands over, and nothing else. -/
theorem act_database (a : Action) (s : Session) :
    (after (act a) s).database = s.database.map (Database.given (s.sending? a).toList) := by
  cases a with
  | call c =>
      rw [after_act_call, after_call_database]
      exact (map_given_nil s.database).symm
  | execute group =>
      rw [after_act_execute, sending?]
      cases ha : s.answered with
      | some x =>
          rw [after_execute_unsent group (.inl (ha ▸ Option.some_ne_none x))]
          exact (map_given_nil s.database).symm
      | none =>
          rw [if_neg (by simp)]
          unfold handing?
          cases ht : s.builder.toSend with
          | error e =>
              have hno : ∀ st, s.builder.toSend ≠ .ok st := by
                intro st h
                cases ht.symm.trans h
              rw [after_execute_unsent group (.inr hno)]
              cases s.database <;> rfl
          | ok st =>
              cases hd : s.database with
              | none =>
                  -- without a database nothing can have been sent
                  rw [after, execute_eq, ha, hd]
                  exact hd
              | some db =>
                  rw [after_execute_database group ha hd ht]
                  rfl
  | count =>
      rw [after_act_count, after_count]
      unfold sending? handing?
      cases hd : s.database with
      | none => exact hd
      | some db =>
          cases s.builder.countStatement with
          | error e => exact hd
          | ok st => rfl

/-- A run gives the database what its actions hand over, and nothing else. -/
theorem performed_database (actions : List Action) (s : Session) :
    (performed actions s).database = s.database.map (Database.given (sent actions s)) := by
  induction actions generalizing s with
  | nil => cases h : s.database <;> exact h
  | cons a rest ih =>
      show (performed rest (after (act a) s)).database = _
      rw [ih, act_database, Option.map_map]
      congr 1
      funext db
      exact List.foldl_append.symm

/-! ## The answer -/

/-- What the session has answered stays, until a reset. -/
theorem act_answered {a : Action} (h : a ≠ .call .reset) {s : Session} {x : Answer}
    (hx : s.answered = some x) : (after (act a) s).answered = some x := by
  cases a with
  | call c =>
      rw [after_act_call, after_call (call_ne_reset h)]
      exact hx
  | execute group =>
      rw [after_act_execute, after, execute_answered hx]
      exact hx
  | count =>
      rw [after_act_count, after_count_answered]
      exact hx

/-- Without a reset, an answer stays. -/
theorem performed_answered {actions : List Action} (h : Action.call .reset ∉ actions) {s : Session}
    {x : Answer} (hx : s.answered = some x) : (performed actions s).answered = some x := by
  refine performed_keeps (P := fun s => s.answered = some x) hx ?_
  intro a ha t ht
  exact act_answered (fun hreset => h (hreset ▸ ha)) ht

/-- Only an execution gives a session without an answer one. -/
theorem act_unanswered {a : Action} (h : ∀ group, a ≠ .execute group) {s : Session}
    (hs : s.answered = none) : (after (act a) s).answered = none := by
  cases a with
  | call c =>
      rw [after_act_call, after, call]
      cases c.run s.builder with
      | error e b => exact hs
      | ok r b =>
          cases c with
          | reset => rfl
          | _ => exact hs
  | execute group => exact absurd rfl (h group)
  | count =>
      rw [after_act_count, after_count_answered]
      exact hs

/-- What executing answers is kept as the answer. -/
theorem answered_of_execute {group : Value} {s t : Session} {x : Answer}
    (h : execute group s = .ok x t) : t.answered = some x := by
  have hanswered := after_execute_answered group s
  rw [after, h] at hanswered
  exact hanswered

/-- An answered session sends nothing when it is executed. -/
theorem sent_answered {actions : List Action} (h : Action.call .reset ∉ actions) {s : Session}
    {x : Answer} (hx : s.answered = some x) : ∀ y ∈ sent actions s, y.byExecution = false := by
  induction actions generalizing s with
  | nil => exact fun y hy => absurd hy List.not_mem_nil
  | cons a rest ih =>
      rw [List.mem_cons, not_or] at h
      intro y hy
      rw [sent] at hy
      rcases List.mem_append.mp hy with hy | hy
      · have hsome : s.sending? a = some y := Option.mem_toList.mp hy
        cases a with
        | call c => cases hsome
        | execute group =>
            obtain ⟨ha, -⟩ := sending?_execute hsome
            cases hx.symm.trans ha
        | count =>
            obtain ⟨db, st, -, -, rfl⟩ := handing?_eq_some hsome
            rfl
      · exact ih h.2 (act_answered (Ne.symm h.1) hx) y hy

/-- A change of rows that was answered by the database answers the execution that sent it. -/
theorem answered_of_change {a : Action} {s : Session} {y : Sending} (h : s.sending? a = some y)
    (hby : y.byExecution = true) (hanswered : y.answered = true)
    (hst : y.statement.hasRows = false) : ∃ x, (after (act a) s).answered = some x := by
  cases a with
  | call c => cases h
  | count =>
      obtain ⟨db, st, -, -, rfl⟩ := handing?_eq_some h
      cases hby
  | execute group =>
      obtain ⟨ha, db, st, hd, ht, rfl⟩ := sending?_execute h
      cases hrun : (db.run (s.builder.groupOr group) st).1 with
      | error e =>
          rw [Database.sending, hrun] at hanswered
          cases hanswered
      | ok reply =>
          -- the answer is none of rows, so that no record has to be made of it
          obtain ⟨m, rfl⟩ := Database.answer_of_change hst hrun
          rw [after_act_execute, after, execute_eq, ha, hd, ht]
          dsimp only
          rw [handed, hrun]
          exact ⟨_, rfl⟩

/-- Behind a change of rows that was answered no execution of the run sends anything. -/
theorem sent_behind_change {actions : List Action} (h : Action.call .reset ∉ actions) {s : Session}
    {before behind : List Sending} {y : Sending} (hsent : sent actions s = before ++ y :: behind)
    (hby : y.byExecution = true) (hanswered : y.answered = true)
    (hst : y.statement.hasRows = false) : ∀ z ∈ behind, z.byExecution = false := by
  induction actions generalizing s before with
  | nil =>
      have hne := List.append_ne_nil_of_right_ne_nil before (List.cons_ne_nil y behind)
      exact absurd hsent.symm hne
  | cons a rest ih =>
      have hrest : Action.call .reset ∉ rest := fun hin => h (List.mem_cons_of_mem a hin)
      rw [sent] at hsent
      cases ha : s.sending? a with
      | none =>
          rw [ha] at hsent
          exact ih hrest hsent
      | some w =>
          rw [ha] at hsent
          cases before with
          | nil =>
              obtain ⟨rfl, rfl⟩ := List.cons.inj hsent
              obtain ⟨x, hx⟩ := answered_of_change ha hby hanswered hst
              exact sent_answered hrest hx
          | cons b before => exact ih hrest (List.cons.inj hsent).2

/-! ## Refusals -/

/-- A refusal of the database leaves the session without an answer. -/
theorem unanswered_of_refusal {group : Value} {s : Session} {y : Sending}
    (h : s.sending? (.execute group) = some y) (hanswered : y.answered = false) :
    (after (execute group) s).answered = none := by
  obtain ⟨ha, db, st, hd, ht, rfl⟩ := sending?_execute h
  cases hrun : (db.run (s.builder.groupOr group) st).1 with
  | ok reply =>
      rw [Database.sending, hrun] at hanswered
      cases hanswered
  | error e =>
      rw [after, execute_eq, ha, hd, ht]
      dsimp only
      rw [handed, hrun]
      exact ha

/-! ## Counts -/

/-- A count comes to the same whatever the session has answered, and leaves that as it is. -/
theorem count_with_answered (s : Session) (x : Option Answer) :
    outcome count { s with answered := x } = outcome count s ∧
    after count { s with answered := x } = { after count s with answered := x } := by
  obtain ⟨builder, database, answered⟩ := s
  rw [outcome, outcome, after_count, after_count, count_eq, count_eq]
  dsimp only
  cases database with
  | none => exact ⟨rfl, rfl⟩
  | some db =>
      cases builder.countStatement with
      | error e => exact ⟨rfl, rfl⟩
      | ok st =>
          refine ⟨?_, rfl⟩
          dsimp only
          cases (db.run (builder.groupOr (.text defaultGroup)) st).1.bind totalOf <;> rfl

/-- A count that returns has sent one statement, and it was answered. -/
theorem calls_of_count {s t : Session} {n : Int} (h : count s = .ok n t) :
    ∃ y, s.sending? .count = some y ∧ y.answered = true ∧
      t.calls = s.calls ++ [(y.group, y.statement)] := by
  rw [count_eq] at h
  unfold sending? handing? calls
  cases hd : s.database with
  | none =>
      rw [hd] at h
      cases h
  | some db =>
      rw [hd] at h
      cases hst : s.builder.countStatement with
      | error e =>
          rw [hst] at h
          cases h
      | ok st =>
          rw [hst] at h
          dsimp only at h
          cases hrun : (db.run (s.builder.groupOr (.text defaultGroup)) st).1 with
          | error e =>
              rw [hrun] at h
              cases h
          | ok reply =>
              rw [hrun] at h
              refine ⟨_, rfl, ?_, ?_⟩
              · rw [Database.sending, hrun]
                rfl
              · rw [Except.bind] at h
                cases htotal : totalOf reply with
                | error e =>
                    rw [htotal] at h
                    cases h
                | ok total =>
                    rw [htotal] at h
                    cases h
                    exact Database.calls_run hrun

/-! ## Runs without a reset -/

/-- What a run comes to between two resets. -/
structure RunsOnce (actions : List Action) (s : Session) : Prop where
  /-- The database is given what executions and counts hand over, and nothing else. -/
  given : (performed actions s).database = s.database.map (Database.given (sent actions s))
  /-- Once an execution has returned, every later one returns the same and sends nothing. -/
  kept : ∀ before group behind x t, actions = before ++ .execute group :: behind →
    execute group (performed before s) = .ok x t →
    ∀ group', execute group' (performed actions s) = .ok x (performed actions s)
  /-- A count that returns has sent one statement. -/
  counted : ∀ n t, count (performed actions s) = .ok n t →
    ∃ y, (performed actions s).sending? .count = some y ∧ y.answered = true ∧
      t.calls = (performed actions s).calls ++ [(y.group, y.statement)]
  /-- A count neither looks at the answer nor changes it. -/
  unread : ∀ x, outcome count { performed actions s with answered := x } =
      outcome count (performed actions s) ∧
    after count { performed actions s with answered := x } =
      { after count (performed actions s) with answered := x }
  /-- Behind a change of rows that the database answered no execution sends anything. -/
  once : ∀ before y behind, sent actions s = before ++ y :: behind → y.byExecution = true →
    y.answered = true → y.statement.hasRows = false → ∀ z ∈ behind, z.byExecution = false
  /-- Behind an execution that the database refused the next one sends its statement. -/
  free : ∀ before group behind y, actions = before ++ .execute group :: behind →
    (performed before s).sending? (.execute group) = some y → y.answered = false →
    (∀ a ∈ behind, ∀ g, a ≠ .execute g) → ∀ db st, (performed actions s).database = some db →
    (performed actions s).builder.toSend = .ok st → ∀ group',
    (performed actions s).sending? (.execute group') =
      some (db.sending true ((performed actions s).builder.groupOr group') st)

/-- **EXECUTED ONCE**: from any session and for any calls, executions and counts, whatever comes of
each, as long as there is no reset among them. -/
theorem executed_once (s : Session) {actions : List Action} (h : Action.call .reset ∉ actions) :
    RunsOnce actions s where
  given := performed_database actions s
  kept := by
    rintro before group behind x t rfl hrun group'
    have hx : (after (act (.execute group)) (performed before s)).answered = some x := by
      rw [after_act_execute, after, hrun]
      exact answered_of_execute hrun
    have hbehind : Action.call .reset ∉ behind := fun hin =>
      h (List.mem_append_right before (List.mem_cons_of_mem _ hin))
    rw [performed_append]
    exact execute_answered (performed_answered hbehind hx)
  counted := fun n t => calls_of_count
  unread := count_with_answered (performed actions s)
  once := fun before y behind => sent_behind_change h
  free := by
    rintro before group behind y rfl hy hanswered hbehind db st hd ht group'
    have hnone : (after (act (.execute group)) (performed before s)).answered = none := by
      rw [after_act_execute]
      exact unanswered_of_refusal hy hanswered
    -- no execution stands behind the refused one, and nothing else gives an answer
    have hlast : (performed behind (after (act (.execute group)) (performed before s))).answered =
        none :=
      performed_keeps (P := fun t => t.answered = none) hnone
        fun a ha t ht => act_unanswered (hbehind a ha) ht
    rw [performed_append] at hd ht ⊢
    have hlast' : (performed (.execute group :: behind) (performed before s)).answered = none :=
      hlast
    unfold sending? handing?
    rw [hlast', hd, ht]
    rfl

/-- A DELETE before a database that refuses the first statement it is given. -/
def purging : Session :=
  { builder :=
      { registry := .empty, model := .text "log", kind := .delete, canonical := none
        draft := { Draft.empty with tables := [(.text "log", .null)] } }
    database := some ⟨.custom false fun calls =>
      if calls.length = 1 then .error .databaseFailed
      else .ok { rows := [[(.text "total", .int 7)]], rowcount := .int 3 }, []⟩ }

/-- Executed and refused, counted, executed again, made a SELECT of one row, counted. -/
def purge : List Session.Action :=
  [.execute (.text "main"), .count, .execute (.text "main"), .call (.kind (.text "select")),
    .call (.limit (.int 1)), .count]

/-- The DELETE was sent twice, since it was refused once; behind the answer it got, what is executed
as a SELECT still returns that answer. -/
theorem purge_executed_once :
    Action.call .reset ∉ purge ∧ RunsOnce purge purging ∧
    (sent purge purging).map (fun y => (y.byExecution, y.answered)) =
      [(true, false), (false, true), (true, true), (false, true)] ∧
    (performed purge purging).builder.kind = .select ∧
    execute .null (performed purge purging) =
      .ok ⟨.mutation ⟨.int 3, .null⟩, .made 3⟩ (performed purge purging) := by
  have hreset : Action.call .reset ∉ purge := by simp [purge]
  have hruns : RunsOnce purge purging := executed_once purging hreset
  refine ⟨hreset, hruns, rfl, rfl, ?_⟩
  exact hruns.kept [.execute (.text "main"), .count] (.text "main") _ _ _ rfl rfl .null

end Session

end ModelQuery
