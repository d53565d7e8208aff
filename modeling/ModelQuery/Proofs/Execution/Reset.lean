import ModelQuery.Proofs.Execution.Runs

/-!
# Beginning again

A reset makes everything anew out of three things a session has had all the time: the registry, the
model its builder was made for, and the kind.  The first two no action can change, and with them a
builder could be made once; a kind only has to be one, which the present kind is.  So a reset never
fails, and the session behind it is the one a new builder would be given, before the same database.
-/

namespace ModelQuery

open Outcome Step

namespace Builder

/-! ## New builders -/

theorem kindOf_word (k : Kind) : kindOf (.text k.word) = .ok k := by
  cases k <;> rfl

/-- A builder that could be made can be made with any kind, and begins alike. -/
theorem create_with_kind {registry : Registry} {model kind : Value} {b : Builder}
    (h : create registry model kind = .ok b) (k : Kind) :
    create registry model (.text k.word) = .ok { b with kind := k } := by
  rw [create] at h ⊢
  obtain ⟨given, hgiven, h⟩ := bind_eq_ok h
  -- what is asked of the model is asked once more, and answered as before
  rw [hgiven]
  cases given with
  | false => cases h
  | true =>
      cases hpresent : kind.isPresent with
      | false =>
          rw [hpresent] at h
          cases h
      | true =>
          rw [hpresent] at h
          obtain ⟨k', -, h⟩ := bind_eq_ok h
          show (kindOf (.text k.word) >>= fun k => opened registry model k) = _
          rw [kindOf_word]
          exact opened_kind h k

end Builder

namespace Session

/-! ## What a run cannot change -/

/-- The session's builder is about the same things as another: its model, and the models there
are. -/
def SameSubject (b : Builder) (s : Session) : Prop :=
  s.builder.registry = b.registry ∧ s.builder.model = b.model

/-- No action changes what a builder is about. -/
theorem sameSubject_act (a : Action) {b : Builder} {s : Session} (h : SameSubject b s) :
    SameSubject b (after (act a) s) := by
  by_cases ha : a = .call .reset
  · subst ha
    rw [SameSubject, after_act_call, after_call_builder, after, Call.run, tryChange]
    cases hreset : Builder.reset s.builder with
    | error e => exact h
    | ok b' =>
        obtain ⟨hregistry, hmodel, -, -⟩ := Builder.opened_eq_ok hreset
        exact ⟨hregistry.trans h.1, hmodel.trans h.2⟩
  · have hkept := kept_act ha s
    exact ⟨hkept.registry.trans h.1, hkept.model.trans h.2⟩

/-- No run changes what a builder is about. -/
theorem sameSubject_performed (actions : List Action) (b : Builder) (database : Option Database) :
    SameSubject b (performed actions (ofBuilder b database)) :=
  performed_keeps ⟨rfl, rfl⟩ fun a _ _ hs => sameSubject_act a hs

/-! ## Resets -/

/-- What the actions of a run come to, each with the session it leaves. -/
def transcript : List Action → Session → List (Except Error Response × Session)
  | [], _ => []
  | a :: rest, s => (outcome (act a) s, after (act a) s) :: transcript rest (after (act a) s)

/-- A reset begins a session with the same database. -/
theorem act_reset {s : Session} {b : Builder} (h : s.builder.reset = .ok b) :
    act (.call .reset) s = .ok (.reply .done) (ofBuilder b s.database) := by
  have hrun : Call.reset.run s.builder = .ok .done b := by
    show tryChange Builder.reset s.builder = _
    rw [tryChange, h]
  have hcall : call .reset s = .ok .done (ofBuilder b s.database) := by
    rw [call, hrun]
    rfl
  exact bind_ok hcall

/-- **A RESET BUILDER IS A NEW ONE**: after any run of a builder that was made, whatever came of
each of its actions, a reset succeeds, and leaves the session that a builder made for the same
model, with the same registry and the present kind, has before the same database; whatever is done
next comes to the same and leaves the same for both. -/
theorem reset_begins_again {registry : Registry} {model kind : Value} {b : Builder}
    (h : Builder.create registry model kind = .ok b) (database : Option Database)
    (actions : List Action) :
    let s := performed actions (ofBuilder b database)
    ∃ fresh, Builder.create registry model (.text s.builder.kind.word) = .ok fresh ∧
      act (.call .reset) s = .ok (.reply .done) (ofBuilder fresh s.database) ∧
      ∀ more, transcript more (after (act (.call .reset)) s) =
        transcript more (ofBuilder fresh s.database) := by
  intro s
  obtain ⟨k, hopened⟩ := Builder.opened_of_create h
  obtain ⟨hregistry, hmodel⟩ : SameSubject b s := sameSubject_performed actions b database
  obtain ⟨hregistry', hmodel', -, -⟩ := Builder.opened_eq_ok hopened
  have hreset : s.builder.reset = .ok { b with kind := s.builder.kind } := by
    rw [Builder.reset, hregistry.trans hregistry', hmodel.trans hmodel']
    exact Builder.opened_kind hopened s.builder.kind
  have hact := act_reset hreset
  refine ⟨{ b with kind := s.builder.kind }, Builder.create_with_kind h _, hact, fun more => ?_⟩
  rw [after, hact]

/-- Executed, refused and executed again; then another canonical model, a call that fails, groups
left open or closed too often, and another kind. -/
def busy : List Action :=
  [.execute (.text "main"), .execute (.text "main"), .call (.addTables [.text "user", .tuple []]),
    .call (.openGroup .filter .or), .call (.openGroup .having .and), .call (.closeGroup .having),
    .call (.closeGroup .having), .call (.limit (.int 1)), .call (.kind (.text "DELETE"))]

/-- A busy session, answered and about to delete users, becomes a DELETE of which nothing was
said. -/
theorem busy_begins_again :
    ∃ b fresh, Builder.create (.ofModels [userModel]) (.text "log") (.text "select") = .ok b ∧
      let s := performed busy (ofBuilder b (some ⟨.single {} 1, []⟩))
      s.builder.canonical.map (·.name) = some "user" ∧
      s.builder.draft.filter.enclosing.length = 1 ∧ s.answered.isSome ∧
      Builder.create (.ofModels [userModel]) (.text "log") (.text "delete") = .ok fresh ∧
      fresh.draft = { Draft.empty with tables := [(.text "log", .null)] } ∧
      fresh.canonical.isNone ∧
      act (.call .reset) s = .ok (.reply .done) (ofBuilder fresh s.database) := by
  obtain ⟨fresh, hfresh, hreset, -⟩ := @reset_begins_again (.ofModels [userModel]) (.text "log")
    (.text "select") _ rfl (some ⟨.single {} 1, []⟩) busy
  cases hfresh
  exact ⟨_, _, rfl, rfl, rfl, rfl, rfl, rfl, rfl, hreset⟩

end Session

end ModelQuery
