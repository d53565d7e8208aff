import ModelQuery.Execution.Session
import ModelQuery.Proofs.Outcome
import ModelQuery.Proofs.Query.Extends

/-!
# Executions and the query they leave behind

A SELECT of a registered model is sent with more than its builder holds: the model's sort keys, and
what following its relationship paths adds.  The additions are made on the builder itself, step by
step, and each step may fail.  Since a step can only add, taking the clauses back leaves the builder
as it was, at whatever point the steps stopped.

What is sent is computed here once more without any state (`toSend`): the sort keys resolved one
after the other, then the calls a caller would make for the paths.  `executed_eq` says that the two
agree, in what they answer and in the error they fail with.  Executions in a row therefore all hand
the same statement to the database, with the defaults in it once.
-/

namespace ModelQuery

open Outcome Step

namespace Builder

/-! ## The statement with its defaults -/

/-- A default sort key: its column, always qualified, and its direction. -/
def sortKey (b : Builder) (entry : Value) : Except Error (Value × Value) := do
  let (column, direction) ← entry.pair
  return (b.scope.column (some true) column, direction)

/-- The builder with what a model adds to every SELECT: behind its own sort keys those of the model,
in order, and then each path of the model, in order, loaded as a caller would have it loaded. -/
def defaulted (m : Model) (b : Builder) : Except Error Builder := do
  let keys ← m.sorting.mapM b.sortKey
  m.loadWith.foldlM (fun b path => applied (Call.run (.eager path)) b) (b.adding [] [] keys)

/-- The statement an execution sends: for a SELECT of a registered model with what the model adds,
else the builder's own. -/
def toSend (b : Builder) : Except Error Sql.Statement :=
  match b.canonical, b.kind with
  | some m, .select => do (← b.defaulted m).statement
  | _, _ => b.statement

theorem sortKey_adding (b : Builder) (select orderBy : List (Value × Value)) (joins : List Join) :
    (b.adding select joins orderBy).sortKey = b.sortKey := rfl

theorem adds_sortDefault (entry : Value) : Adds (tryChange (sortDefault entry)) := by
  intro b
  rw [after, tryChange, sortDefault]
  cases entry.pair with
  | error e => exact Extends.refl b
  | ok key =>
      refine ⟨[], [], [(b.scope.column (some true) key.1, key.2)], ?_⟩
      simp only [adding, withDraft, List.append_nil]
      rfl

/-- Sort keys added one by one are the sort keys resolved together. -/
theorem sorted_eq (entries : List Value) (b : Builder) :
    entries.foldlM (fun b entry => applied (tryChange (sortDefault entry)) b) b =
      (entries.mapM b.sortKey).map (b.adding [] []) := by
  induction entries generalizing b with
  | nil => exact congrArg Except.ok b.adding_nil.symm
  | cons entry rest ih =>
      rw [List.foldlM_cons, List.mapM_cons]
      cases h : entry.pair with
      | error e =>
          have hkey : b.sortKey entry = .error e := by rw [sortKey, h]; rfl
          have hstep : applied (tryChange (sortDefault entry)) b = .error e := by
            rw [applied, tryChange, sortDefault, h]
            rfl
          rw [hkey, hstep]
          rfl
      | ok pair =>
          obtain ⟨column, direction⟩ := pair
          have hkey : b.sortKey entry =
              .ok (b.scope.column (some true) column, direction) := by rw [sortKey, h]; rfl
          have hstep : applied (tryChange (sortDefault entry)) b =
              .ok (b.adding [] [] [(b.scope.column (some true) column, direction)]) := by
            rw [applied, tryChange, sortDefault, h]
            simp only [adding, withDraft, List.append_nil]
            rfl
          rw [hkey, hstep]
          -- the keys after the first mean the same with the first in place
          show List.foldlM _ (b.adding _ _ _) rest = _
          rw [ih, sortKey_adding]
          cases rest.mapM b.sortKey with
          | error e => rfl
          | ok keys => exact congrArg Except.ok (adding_adding ..)

/-- The defaults of a model only add to the statement. -/
theorem adds_addDefaults (m : Model) : Adds (addDefaults m) :=
  (Adds.each adds_sortDefault m.sorting).bind fun _ => Adds.each adds_eagerOn m.loadWith

/-- The steps that add what a model adds lead to the builder with its defaults. -/
theorem applied_addDefaults (m : Model) (b : Builder) :
    applied (addDefaults m) b = b.defaulted m := by
  rw [addDefaults, defaulted, applied_then, applied_each, sorted_eq]
  cases m.sorting.mapM b.sortKey with
  | error e => rfl
  | ok keys => exact applied_each ..

/-- Taken back, the steps that add defaults leave the builder alone. -/
theorem buildWithDefaults_eq (m : Model) (b : Builder) :
    buildWithDefaults m b = Step.lift ((b.defaulted m).bind Builder.statement) b := by
  have hadds : Extends b (after (addDefaults m) b) := adds_addDefaults m b
  rw [← applied_addDefaults, buildWithDefaults, takingBack, applied]
  rw [after] at hadds
  cases h : addDefaults m b with
  | error e b' =>
      -- the additions made before the failure are what is taken back
      rw [h] at hadds
      rw [bind_error h]
      show EStateM.Result.error e { b' with draft := b.draft } = _
      rw [hadds.taken_back]
      rfl
  | ok r b' =>
      rw [h] at hadds
      rw [bind_ok h]
      have hlast : (get >>= fun b => Step.lift b.statement : EStateM Error Builder _) b' =
          Step.lift b'.statement b' := rfl
      rw [hlast]
      show _ = Step.lift b'.statement b
      cases b'.statement with
      | error e => exact congrArg (EStateM.Result.error e) hadds.taken_back
      | ok st => exact congrArg (EStateM.Result.ok st) hadds.taken_back

/-- The statement is the one computed without any state, and the builder stays as it is. -/
theorem executed_eq (b : Builder) : executed b = Step.lift b.toSend b := by
  rw [toSend]
  show (match b.canonical, b.kind with
    | some m, .select => buildWithDefaults m
    | _, _ => Step.lift b.statement) b = _
  cases b.canonical with
  | none => rfl
  | some m =>
      cases b.kind with
      | select => exact buildWithDefaults_eq m b
      | insert => rfl
      | update => rfl
      | delete => rfl

/-- A builder with the defaults of its model extends the builder. -/
theorem extends_defaulted {m : Model} {b b' : Builder} (h : b.defaulted m = .ok b') :
    Extends b b' := by
  have hadds : Extends b (after (addDefaults m) b) := adds_addDefaults m b
  rw [← applied_addDefaults, applied] at h
  rw [after] at hadds
  cases hrun : addDefaults m b with
  | error e b'' =>
      rw [hrun] at h
      cases h
  | ok r b'' =>
      rw [hrun] at h hadds
      cases h
      exact hadds

end Builder

namespace Session

open Builder

/-! ## Executions -/

/-- What comes of a statement handed to a database: the database has been given it in any case, and
the session keeps the answer if there is one. -/
def handed (group : Value) (st : Sql.Statement) (db : Database) (s : Session) :
    EStateM.Result Error Session Answer :=
  let s' := { s with database := some (db.run group st).2 }
  match (db.run group st).1.bind s'.answerOf with
  | .ok a => .ok a { s' with answered := some a }
  | .error e => .error e s'

/-- Whatever comes of a statement, the database has been given it, and an answer is kept. -/
theorem handed_cases (group : Value) (st : Sql.Statement) (db : Database) (s : Session) :
    let s' := { s with database := some (db.run group st).2 }
    (∃ a, handed group st db s = .ok a { s' with answered := some a }) ∨
      ∃ e, handed group st db s = .error e s' := by
  intro s'
  rw [handed]
  cases (db.run group st).1.bind s'.answerOf with
  | ok a => exact .inl ⟨a, rfl⟩
  | error e => exact .inr ⟨e, rfl⟩

/-- The steps of an execution of a session without an answer. -/
def executing (group : Value) (s : Session) : Run Answer := do
  let _ ← Step.lift s.databaseOf
  let statement ← onBuilder executed
  let reply ← send (s.builder.groupOr group) statement
  let answer ← Step.lift ((← get).answerOf reply)
  modify fun s => { s with answered := some answer }
  return answer

/-- An answer that is there is given again. -/
theorem execute_answered {group : Value} {s : Session} {a : Answer} (h : s.answered = some a) :
    execute group s = .ok a s := by
  obtain ⟨builder, database, answered⟩ := s
  cases h
  rfl

theorem execute_unanswered {group : Value} {s : Session} (h : s.answered = none) :
    execute group s = executing group s s := by
  obtain ⟨builder, database, answered⟩ := s
  cases h
  rfl

/-- The statement that is executed leaves the builder as it was. -/
theorem onBuilder_executed (s : Session) :
    onBuilder executed s = (Step.lift s.builder.toSend : Run Sql.Statement) s := by
  rw [onBuilder, executed_eq]
  cases s.builder.toSend with
  | error e => rfl
  | ok st => rfl

theorem send_run {group : Value} {st : Sql.Statement} {db : Database} {s : Session}
    (h : s.database = some db) :
    let s' := { s with database := some (db.run group st).2 }
    (∀ reply, (db.run group st).1 = .ok reply → send group st s = .ok reply s') ∧
    ∀ e, (db.run group st).1 = .error e → send group st s = .error e s' := by
  obtain ⟨builder, database, answered⟩ := s
  cases h
  rcases hrun : db.run group st with ⟨answer, db'⟩
  constructor
  · intro reply hreply
    cases hreply
    simp only [send, hrun]
  · intro e he
    cases he
    simp only [send, hrun]

/-- To send a statement and to keep the answer is to hand it over. -/
theorem send_handed {group : Value} {st : Sql.Statement} {db : Database} {s : Session}
    (h : s.database = some db) :
    (do let reply ← send group st
        let answer ← Step.lift ((← get).answerOf reply)
        modify fun s => { s with answered := some answer }
        return answer : Run Answer) s = handed group st db s := by
  obtain ⟨hok, herror⟩ := @send_run group st db s h
  rw [handed]
  cases hreply : (db.run group st).1 with
  | error e => exact bind_error (herror e hreply)
  | ok reply =>
      rw [bind_ok (hok reply hreply), Except.bind]
      show (Step.lift (answerOf _ reply) >>= _ : Run Answer) _ = _
      cases answerOf { s with database := some (db.run group st).2 } reply with
      | error e => rfl
      | ok a => rfl

/-- An execution taken apart.  It ends early with an answer that is there already, for want of a
database, or of a statement; else the statement is handed to the database. -/
theorem execute_eq (group : Value) (s : Session) :
    execute group s =
      match s.answered, s.database, s.builder.toSend with
      | some a, _, _ => .ok a s
      | none, none, _ => .error .noDatabase s
      | none, some _, .error e => .error e s
      | none, some db, .ok st => handed (s.builder.groupOr group) st db s := by
  cases ha : s.answered with
  | some a => exact execute_answered ha
  | none =>
      rw [execute_unanswered ha]
      cases hd : s.database with
      | none =>
          have hno : (Step.lift s.databaseOf : Run Database) s = .error .noDatabase s := by
            rw [databaseOf, hd]
            rfl
          exact bind_error hno
      | some db =>
          have hdb : (Step.lift s.databaseOf : Run Database) s = .ok db s := by
            rw [databaseOf, hd]
            rfl
          have hst : onBuilder executed s = (Step.lift s.builder.toSend : Run Sql.Statement) s :=
            onBuilder_executed s
          -- the database is there, so what is left is the statement
          have hrun : executing group s s = _ := bind_ok hdb
          rw [hrun]
          cases ht : s.builder.toSend with
          | error e =>
              rw [ht] at hst
              exact bind_error hst
          | ok st =>
              rw [ht] at hst
              exact (bind_ok hst).trans (send_handed hd)

/-- The ways an execution can go, with the session it leaves: answered before, nothing sent, or sent
with or without an answer. -/
theorem execute_cases (group : Value) (s : Session) :
    (∃ a, s.answered = some a ∧ execute group s = .ok a s) ∨
    (s.answered = none ∧ (∀ db st, s.database = some db → s.builder.toSend ≠ .ok st) ∧
      ∃ e, execute group s = .error e s) ∨
    (∃ db st, s.answered = none ∧ s.database = some db ∧ s.builder.toSend = .ok st ∧
      let s' := { s with database := some (db.run (s.builder.groupOr group) st).2 }
      ((∃ a, execute group s = .ok a { s' with answered := some a }) ∨
        ∃ e, execute group s = .error e s')) := by
  rcases Option.eq_none_or_eq_some s.answered with ha | ⟨a, ha⟩
  · have hrun := execute_eq group s
    rw [ha] at hrun
    cases hd : s.database with
    | none =>
        rw [hd] at hrun
        refine .inr (.inl ⟨ha, ?_, .noDatabase, hrun⟩)
        intro db st h
        cases h
    | some db =>
        rw [hd] at hrun
        cases ht : s.builder.toSend with
        | error e =>
            rw [ht] at hrun
            refine .inr (.inl ⟨ha, ?_, e, hrun⟩)
            intro db st _ h
            cases h
        | ok st =>
            rw [ht] at hrun
            refine .inr (.inr ⟨db, st, ha, rfl, rfl, ?_⟩)
            rw [hrun]
            exact handed_cases (s.builder.groupOr group) st db s
  · exact .inl ⟨a, ha, execute_answered ha⟩

/-- Executing leaves the builder as it was. -/
theorem after_execute_builder (group : Value) (s : Session) :
    (after (execute group) s).builder = s.builder := by
  rw [after]
  rcases execute_cases group s with
    ⟨a, -, h⟩ | ⟨-, -, e, h⟩ | ⟨db, st, -, -, -, ⟨a, h⟩ | ⟨e, h⟩⟩
  · rw [h]
  · rw [h]
  · rw [h]
  · rw [h]

/-- The answer a session has is the one its execution ended with; a failure leaves it as it was. -/
theorem after_execute_answered (group : Value) (s : Session) :
    (after (execute group) s).answered =
      match execute group s with
      | .ok a _ => some a
      | .error _ _ => s.answered := by
  rw [after]
  rcases execute_cases group s with
    ⟨a, ha, h⟩ | ⟨-, -, e, h⟩ | ⟨db, st, -, -, -, ⟨a, h⟩ | ⟨e, h⟩⟩
  · rw [h]
    exact ha
  · rw [h]
  · rw [h]
  · rw [h]

/-- A session without an answer hands its statement, if there is one, to its database. -/
theorem after_execute_database (group : Value) {s : Session} {db : Database} {st : Sql.Statement}
    (ha : s.answered = none) (hd : s.database = some db) (ht : s.builder.toSend = .ok st) :
    (after (execute group) s).database =
      some (db.run (s.builder.groupOr group) st).2 := by
  rw [after]
  rcases execute_cases group s with ⟨a, ha', -⟩ | ⟨-, hno, -⟩ | ⟨db', st', -, hd', ht', h⟩
  · rw [ha] at ha'
    cases ha'
  · exact absurd ht (hno db st hd)
  · rw [hd] at hd'
    rw [ht] at ht'
    cases hd'
    cases ht'
    rcases h with ⟨a, h⟩ | ⟨e, h⟩
    · rw [h]
    · rw [h]

/-- Without a statement, or with an answer, nothing is handed to the database. -/
theorem after_execute_unsent (group : Value) {s : Session}
    (h : s.answered ≠ none ∨ ∀ st, s.builder.toSend ≠ .ok st) :
    (after (execute group) s).database = s.database := by
  rw [after]
  rcases execute_cases group s with ⟨a, -, h'⟩ | ⟨-, -, e, h'⟩ | ⟨db, st, ha, -, ht, -⟩
  · rw [h']
  · rw [h']
  · rcases h with h | h
    · exact absurd ha h
    · exact absurd ht (h st)

/-! ## Executions one after the other -/

/-- The session after executions for these groups, whatever comes of each. -/
def attempts : List Value → Session → Session
  | [], s => s
  | group :: rest, s => attempts rest (after (execute group) s)

/-- A database handed one statement for one group after the other. -/
def handedAll (b : Builder) (st : Sql.Statement) (groups : List Value) (db : Database) : Database :=
  groups.foldl (fun db group => (db.run (b.groupOr group) st).2) db

/-- Any number of executions leave the builder as it was. -/
theorem attempts_builder (groups : List Value) (s : Session) :
    (attempts groups s).builder = s.builder := by
  induction groups generalizing s with
  | nil => rfl
  | cons group rest ih => exact (ih _).trans (after_execute_builder group s)

/-- An answer stays, and with it everything else. -/
theorem attempts_answered (groups : List Value) {s : Session} {a : Answer}
    (h : s.answered = some a) : attempts groups s = s := by
  induction groups with
  | nil => rfl
  | cons group rest ih =>
      have hstay : after (execute group) s = s := by rw [after, execute_answered h]
      show attempts rest (after (execute group) s) = s
      rw [hstay]
      exact ih

/-- A session that has no answer after some attempts had none before. -/
theorem answered_of_attempts (groups : List Value) {s : Session}
    (h : (attempts groups s).answered = none) : s.answered = none := by
  cases ha : s.answered with
  | none => rfl
  | some a =>
      rw [attempts_answered groups ha, ha] at h
      cases h

/-- Executions that all failed have each handed the same statement to the database. -/
theorem attempts_database {groups : List Value} {s : Session} {db : Database} {st : Sql.Statement}
    (hd : s.database = some db) (ht : s.builder.toSend = .ok st)
    (h : (attempts groups s).answered = none) :
    (attempts groups s).database = some (handedAll s.builder st groups db) := by
  induction groups generalizing s db with
  | nil => exact hd
  | cons group rest ih =>
      have ha : s.answered = none := answered_of_attempts (group :: rest) h
      have hb : (after (execute group) s).builder = s.builder := after_execute_builder group s
      -- the builder is the one it was, so the next execution sends what this one sent
      have hnext := ih (after_execute_database group ha hd ht) (hb ▸ ht) h
      rw [hb] at hnext
      exact hnext

/-- Where no statement can be made, attempts send nothing. -/
theorem attempts_unsent {groups : List Value} {s : Session}
    (h : ∀ st, s.builder.toSend ≠ .ok st) : (attempts groups s).database = s.database := by
  induction groups generalizing s with
  | nil => rfl
  | cons group rest ih =>
      have hb : (after (execute group) s).builder = s.builder := after_execute_builder group s
      exact (ih (hb ▸ h)).trans (after_execute_unsent group (.inr h))

/-- **EXECUTIONS LEAVE THE QUERY ALONE**: after any number of executions, whatever came of each, the
next one ends with the builder the session began with, its clauses, open groups, canonical model and
kind among it; the answer is the one it returned, if it returned one, and else the one there was.
What it sends as a SELECT of a registered model is the statement of the builder with the model's
sort keys and paths behind its own clauses, which themselves stay as they are.  Executions that all
failed have sent that one statement each time, and without a statement nothing is sent. -/
theorem execute_leaves_query (s : Session) (groups : List Value) (group : Value) :
    let before := attempts groups s
    let final := after (execute group) before
    final.builder = s.builder ∧
    (final.answered =
      match execute group before with
      | .ok a _ => some a
      | .error _ _ => before.answered) ∧
    (∀ m, s.builder.canonical = some m → s.builder.kind = .select →
      s.builder.toSend = (s.builder.defaulted m).bind Builder.statement ∧
      ∀ b, s.builder.defaulted m = .ok b → Extends s.builder b) ∧
    (∀ db st, before.answered = none → s.database = some db → s.builder.toSend = .ok st →
      final.database = some (handedAll s.builder st (groups ++ [group]) db)) ∧
    ((∀ st, s.builder.toSend ≠ .ok st) → final.database = s.database) ∧
    (before.answered ≠ none → final = before) := by
  intro before final
  have hbuilder : before.builder = s.builder := attempts_builder groups s
  refine ⟨?_, after_execute_answered group before, ?_, ?_, ?_, ?_⟩
  · exact (after_execute_builder group before).trans hbuilder
  · intro m hm hk
    refine ⟨?_, fun b => extends_defaulted⟩
    rw [toSend, hm, hk]
    rfl
  · intro db st ha hd ht
    have hsent : before.database = some (handedAll s.builder st groups db) :=
      attempts_database hd ht ha
    have hlast := after_execute_database group ha hsent (hbuilder ▸ ht)
    rw [hbuilder] at hlast
    rw [handedAll, List.foldl_append]
    exact hlast
  · intro hno
    have hlast := after_execute_unsent group (s := before) (.inr (hbuilder ▸ hno))
    exact hlast.trans (attempts_unsent hno)
  · intro ha
    cases hsome : before.answered with
    | none => exact absurd hsome ha
    | some a => exact attempts_answered [group] hsome

/-! ## A database that refuses -/

/-- Users that are sorted by name and loaded with their posts. -/
def userModel : Model :=
  { name := "user", table := "users"
    fields := .ofList
      [.plain "id" "" true "user", .hasMany "posts" "" true "user" ⟨"post", "author"⟩]
    sorting := [.tuple [.text "name", .text "DESC"]], loadWith := [.text "posts"]
    group := "main", primaryKey := "id", factory := none }

/-- Their posts. -/
def postModel : Model :=
  { name := "post", table := "posts"
    fields := .ofList [.plain "id" "" true "post"]
    sorting := [], loadWith := []
    group := "main", primaryKey := "id", factory := none }

/-- A query for users before a database that refuses two statements. -/
def refused : Session :=
  { builder :=
      { registry := .ofModels [userModel, postModel], model := .text "user", kind := .select
        canonical := some userModel
        draft := { Draft.empty with tables := [(.text "users", .null)] } }
    database := some ⟨.single {} 2, []⟩ }

/-- A database that refuses both statements was given the same one twice, each with one sort key. -/
theorem refused_executions_leave_query :
    ∃ b st,
      refused.builder.defaulted userModel = .ok b ∧ b.statement = .ok st ∧
      b.draft.orderBy = [(.text "users.name", .text "DESC")] ∧
      (after (execute .null) (attempts [.null] refused)).builder = refused.builder ∧
      (after (execute .null) (attempts [.null] refused)).answered = none ∧
      (after (execute .null) (attempts [.null] refused)).database =
        some ⟨.single {} 0, [(.text "main", st), (.text "main", st)]⟩ := by
  have h := execute_leaves_query refused [.null] .null
  obtain ⟨hbuilder, hanswered, -, hsent, -, -⟩ := h
  refine ⟨_, _, rfl, rfl, ?_, hbuilder, hanswered, ?_⟩
  · rfl
  · exact hsent _ _ rfl rfl rfl

end Session

end ModelQuery
