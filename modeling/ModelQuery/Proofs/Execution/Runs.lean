import ModelQuery.Proofs.Execution.Defaults
import ModelQuery.Proofs.Query.Kept

/-!
# Runs of a session

A run is any list of calls, executions and counts, of which any may fail.  Here stands what each of
the three can do to a session, and the principle by which what one of them keeps is kept by a run.

A count sends its statement and looks at nothing else, and never at the answer the session has.
-/

namespace ModelQuery

open Step

namespace Step

variable {σ α β : Type}

/-- What a step comes to, without what it leaves. -/
def outcome (step : EStateM Error σ α) (s : σ) : Except Error α :=
  match step s with
  | .ok a _ => .ok a
  | .error e _ => .error e

theorem after_return (step : EStateM Error σ α) (f : α → β) (s : σ) :
    after (step >>= fun a => pure (f a)) s = after step s := by
  rw [after, after]
  cases h : step s with
  | ok a s' =>
      rw [bind_ok h]
      rfl
  | error e s' => rw [bind_error h]

end Step

namespace Session

/-! ## Calls -/

theorem after_act_call (c : Call) (s : Session) : after (act (.call c)) s = after (call c) s :=
  after_return (call c) Response.reply s

/-- A call other than a reset works on the builder alone. -/
theorem after_call {c : Call} (h : c ≠ .reset) (s : Session) :
    after (call c) s = { s with builder := after c.run s.builder } := by
  rw [after, after, call]
  cases hrun : c.run s.builder with
  | error e b => rfl
  | ok r b =>
      cases c with
      | reset => exact absurd rfl h
      | _ => rfl

/-- A reset leaves the database alone. -/
theorem after_call_database (c : Call) (s : Session) :
    (after (call c) s).database = s.database := by
  rw [after, call]
  cases c.run s.builder with
  | error e b => rfl
  | ok r b => cases c <;> rfl

/-- A call does to the builder of a session what it does to a builder. -/
theorem after_call_builder (c : Call) (s : Session) :
    (after (call c) s).builder = after c.run s.builder := by
  rw [after, after, call]
  cases c.run s.builder with
  | error e b => rfl
  | ok r b => cases c <;> rfl

/-- A call that succeeds replies what it replies on the builder, and changes the builder alone. -/
theorem act_call_ok {c : Call} (h : c ≠ .reset) {s : Session} {r : Reply} {b : Builder}
    (hrun : c.run s.builder = .ok r b) :
    act (.call c) s = .ok (.reply r) { s with builder := b } := by
  have hcall : call c s = .ok r { s with builder := b } := by
    rw [call, hrun]
    cases c with
    | reset => exact absurd rfl h
    | _ => rfl
  exact bind_ok hcall

/-- A call that fails leaves the builder as far as it came, and changes the builder alone. -/
theorem act_call_error {c : Call} {s : Session} {e : Error} {b : Builder}
    (hrun : c.run s.builder = .error e b) :
    act (.call c) s = .error e { s with builder := b } := by
  have hcall : call c s = .error e { s with builder := b } := by
    rw [call, hrun]
  exact bind_error hcall

/-! ## Executions -/

theorem after_act_execute (group : Value) (s : Session) :
    after (act (.execute group)) s = after (execute group) s :=
  after_return (execute group) Response.answer s

/-! ## Counts -/

theorem after_act_count (s : Session) : after (act .count) s = after count s :=
  after_return count Response.total s

/-- A count taken apart: without a database or a statement it ends early, else the statement is
handed to the database. -/
theorem count_eq (s : Session) :
    count s =
      match s.database, s.builder.countStatement with
      | none, _ => .error .noDatabase s
      | some _, .error e => .error e s
      | some db, .ok st =>
        let sent := db.run (s.builder.groupOr (.text defaultGroup)) st
        match sent.1.bind totalOf with
        | .ok n => .ok n { s with database := some sent.2 }
        | .error e => .error e { s with database := some sent.2 } := by
  obtain ⟨builder, database, answered⟩ := s
  cases database with
  | none => rfl
  | some db =>
      cases hst : builder.countStatement with
      | error e =>
          show (Step.lift builder.countStatement >>= _ : Run Int) _ = _
          rw [hst]
          rfl
      | ok st =>
          show (Step.lift builder.countStatement >>= _ : Run Int) _ = _
          rw [hst]
          show (send _ st >>= fun reply => Step.lift (totalOf reply) : Run Int) _ = _
          obtain ⟨hok, herror⟩ := @send_run (builder.groupOr (.text defaultGroup)) st db
            ⟨builder, some db, answered⟩ rfl
          dsimp only
          cases hreply : (db.run (builder.groupOr (.text defaultGroup)) st).1 with
          | error e => exact bind_error (herror e hreply)
          | ok reply =>
              rw [bind_ok (hok reply hreply)]
              show Step.lift (totalOf reply) _ = match totalOf reply with | .ok n => _ | .error e => _
              cases totalOf reply with
              | ok n => rfl
              | error e => rfl

/-- Counting sends the statement that counts, if there is a database and a statement. -/
theorem after_count (s : Session) :
    after count s =
      match s.database, s.builder.countStatement with
      | some db, .ok st =>
        { s with database := some (db.run (s.builder.groupOr (.text defaultGroup)) st).2 }
      | _, _ => s := by
  rw [after, count_eq]
  cases s.database with
  | none => rfl
  | some db =>
      cases s.builder.countStatement with
      | error e => rfl
      | ok st =>
          dsimp only
          cases (db.run (s.builder.groupOr (.text defaultGroup)) st).1.bind totalOf <;> rfl

theorem after_count_builder (s : Session) : (after count s).builder = s.builder := by
  rw [after_count]
  split <;> rfl

theorem after_count_answered (s : Session) : (after count s).answered = s.answered := by
  rw [after_count]
  split <;> rfl

/-! ## All actions -/

/-- The clause whose conditions an action is about. -/
def Action.clause? : Action → Option Clause
  | .call c => c.clause?
  | _ => none

theorem call_ne_reset {c : Call} (h : Action.call c ≠ .call .reset) : c ≠ .reset :=
  fun hc => h (congrArg Action.call hc)

/-- Whatever comes of an action other than a reset, it keeps to its clause. -/
theorem kept_act {a : Action} (h : a ≠ .call .reset) (s : Session) :
    Builder.Kept a.clause? s.builder (after (act a) s).builder := by
  cases a with
  | call c =>
      rw [after_act_call, after_call_builder]
      exact (Builder.kept_run c (call_ne_reset h) s.builder).toKept
  | execute group =>
      rw [after_act_execute, after_execute_builder]
      exact .refl _
  | count =>
      rw [after_act_count, after_count_builder]
      exact .refl _

/-! ## Runs -/

/-- The session after actions, whatever comes of each. -/
def performed (actions : List Action) (s : Session) : Session :=
  actions.foldl (fun s a => after (act a) s) s

theorem performed_append (actions more : List Action) (s : Session) :
    performed (actions ++ more) s = performed more (performed actions s) :=
  List.foldl_append

/-- What each of its actions keeps is kept by a run. -/
theorem performed_keeps {P : Session → Prop} {actions : List Action} {s : Session} (hs : P s)
    (h : ∀ a ∈ actions, ∀ s, P s → P (after (act a) s)) : P (performed actions s) := by
  induction actions generalizing s with
  | nil => exact hs
  | cons a rest ih =>
      exact ih (h a List.mem_cons_self s hs) fun b hb => h b (List.mem_cons_of_mem _ hb)

end Session

end ModelQuery
