import ModelQuery.Proofs.Execution.Reset
import ModelQuery.Proofs.Query.Beginning
import ModelQuery.Proofs.Sql.Overwritten

/-!
# The assignments of a run

A caller writes columns one by one or several at once, spells them in any way, and asks for each
whether it is to be resolved.  `written` is the list of these writes as a run makes them, each under
the key it comes to when it is made; a write whose column can be no key is refused, and so are those
behind it in the same call.

The query keeps the writes one over the other (`assignments_performed`), and what an UPDATE makes of
that is told in `Overwritten`.
-/

namespace ModelQuery

open Outcome Step

namespace Builder

/-! ## What a call writes -/

/-- The key a column is written under. -/
def writtenKey (b : Builder) (resolve column : Value) : Except Error Value := do
  (b.assignmentKey (← resolve.isTrue) column).asKey

/-- The writes of some pairs, up to the first that is refused. -/
def writtenPairs (b : Builder) (resolve : Value) : List (Value × Value) → List (Value × Value)
  | [] => []
  | (column, v) :: rest =>
    match b.writtenKey resolve column with
    | .ok key => (key, v) :: b.writtenPairs resolve rest
    | .error _ => []

/-- The writes of a call. -/
def writtenBy (b : Builder) : Call → List (Value × Value)
  | .set pairs resolve =>
    match Call.entriesOf pairs with
    | .ok entries => b.writtenPairs resolve entries
    | .error _ => []
  | .assign column v resolve => b.writtenPairs resolve [(column, v)]
  | _ => []

/-- What a key is resolved to does not depend on what is assigned already. -/
theorem writtenKey_assign (b : Builder) (key v resolve column : Value) :
    (b.assign key v).writtenKey resolve column = b.writtenKey resolve column := rfl

/-- The pairs that are written do not depend on what is assigned already. -/
theorem writtenPairs_assign (b : Builder) (key v resolve : Value) (pairs : List (Value × Value)) :
    (b.assign key v).writtenPairs resolve pairs = b.writtenPairs resolve pairs := by
  induction pairs with
  | nil => rfl
  | cons pair rest ih =>
      obtain ⟨column, w⟩ := pair
      rw [writtenPairs, writtenPairs, writtenKey_assign, ih]

/-- A write is made under its key, or refused. -/
theorem assignOne_run (resolve column v : Value) (b : Builder) :
    tryChange (Call.assignOne resolve column v) b =
      match b.writtenKey resolve column with
      | .ok key => .ok .done (b.assign key v)
      | .error e => .error e b := by
  have hone : Call.assignOne resolve column v b =
      (b.writtenKey resolve column).map fun key => b.assign key v := by
    rw [Call.assignOne, writtenKey]
    cases resolve.isTrue with
    | error e => rfl
    | ok r =>
        show (b.assignmentKey r column).asKey >>= _ = Except.map _ (b.assignmentKey r column).asKey
        cases (b.assignmentKey r column).asKey <;> rfl
  rw [tryChange, hone]
  cases b.writtenKey resolve column <;> rfl

/-- The pairs are written one over the other, up to the first that is refused. -/
theorem after_each_assignOne (resolve : Value) (pairs : List (Value × Value)) (b : Builder) :
    (after (each (fun (column, v) => tryChange (Call.assignOne resolve column v)) pairs)
        b).draft.assignments =
      Assoc.putAll (b.writtenPairs resolve pairs) b.draft.assignments := by
  -- the key of a pair does not depend on what was assigned before it
  induction pairs generalizing b with
  | nil => rfl
  | cons pair rest ih =>
      obtain ⟨column, v⟩ := pair
      have hone := assignOne_run resolve column v b
      rw [each, writtenPairs, after]
      cases hkey : b.writtenKey resolve column with
      | error e =>
          rw [hkey] at hone
          rw [bind_error hone]
          rfl
      | ok key =>
          rw [hkey] at hone
          rw [bind_ok hone]
          refine (ih (b.assign key v)).trans ?_
          rw [writtenPairs_assign]
          rfl

/-- Whatever comes of a call other than a reset, its writes are made, and nothing else is
assigned. -/
theorem assignments_run {c : Call} (hreset : c ≠ .reset) (b : Builder) :
    (after c.run b).draft.assignments = Assoc.putAll (b.writtenBy c) b.draft.assignments := by
  cases c with
  | set pairs resolve =>
      rw [after, Call.run, writtenBy]
      cases hentries : Call.entriesOf pairs with
      | error e => rfl
      | ok entries => exact after_each_assignOne resolve entries b
  | assign column v resolve =>
      have hone := assignOne_run resolve column v b
      rw [after, Call.run, hone, writtenBy, writtenPairs]
      cases b.writtenKey resolve column <;> rfl
  | reset => exact absurd rfl hreset
  | _ => exact (kept_run _ hreset b).assignments rfl

end Builder

namespace Session

/-! ## What a run writes -/

/-- The writes of an action. -/
def writtenIn (b : Builder) : Action → List (Value × Value)
  | .call c => b.writtenBy c
  | _ => []

/-- The writes of a run, each under the key it comes to when it is made. -/
def written : List Action → Session → List (Value × Value)
  | [], _ => []
  | a :: rest, s => writtenIn s.builder a ++ written rest (after (act a) s)

/-- One action, other than a reset, puts what it writes into the assignments, one pair after the
other. -/
theorem assignments_act {a : Action} (ha : a ≠ .call .reset) (s : Session) :
    (after (act a) s).builder.draft.assignments =
      Assoc.putAll (writtenIn s.builder a) s.builder.draft.assignments := by
  cases a with
  | call c =>
      rw [after_act_call, after_call_builder]
      exact Builder.assignments_run (call_ne_reset ha) s.builder
  | execute group =>
      rw [after_act_execute, after_execute_builder]
      rfl
  | count =>
      rw [after_act_count, after_count_builder]
      rfl

/-- The writes of a run are kept one over the other. -/
theorem assignments_performed {actions : List Action} (h : .call .reset ∉ actions) (s : Session) :
    (performed actions s).builder.draft.assignments =
      Assoc.putAll (written actions s) s.builder.draft.assignments := by
  induction actions generalizing s with
  | nil => rfl
  | cons a rest ih =>
      obtain ⟨ha, hrest⟩ := not_or.mp fun hmem => h (List.mem_cons.mpr hmem)
      show (performed rest (after (act a) s)).builder.draft.assignments = _
      rw [ih hrest, assignments_act (Ne.symm ha), written, Assoc.putAll, Assoc.putAll, Assoc.putAll,
        List.foldl_append]

open Sql

/-- **THE LAST WRITE OF THE NEWEST SPELLING**: whatever a run without resets does to a new builder,
and whatever comes of it, an UPDATE of the builder assigns to each column, once, the value the run
last wrote under the spelling of the column that came up last.  That is the last write to the column
unless its spelling had come up before another one. -/
theorem newest_spelling_assigned {registry : Registry} {model kind : Value} {b : Builder}
    (hb : Builder.create registry model kind = .ok b) (database : Option Database)
    {actions : List Action} (hactions : .call .reset ∉ actions) {into : Changed}
    {as : Option (List Assignment)} {filter : Option Filter}
    (h : readStatement (performed actions (ofBuilder b database)).builder.query .update =
      .ok (.update into as filter)) :
    let ws := written actions (ofBuilder b database)
    (as = none ↔ ws = []) ∧
      ∀ as', as = some as' → ∀ column, Assigned into column (writesTo column ws) as' := by
  intro ws
  refine update_assigns_newest ?_ h
  have hnone : b.draft.assignments = [] := by
    obtain ⟨-, entry, hdraft⟩ := Builder.create_entry hb
    rw [hdraft]
    rfl
  show (performed actions (ofBuilder b database)).builder.draft.assignments = _
  rw [assignments_performed hactions]
  show Assoc.putAll ws b.draft.assignments = _
  rw [hnone]
  rfl

/-- Posts with a title. -/
def titledModel : Model := Builder.plainModel "post" "posts" [.plain "title" "" true "post"]

/-- The title written bare, with its model, and bare again. -/
def retitled : List Action :=
  [.call (.assign (.text "title") (.int 1) (.bool true)),
    .call (.set (.mapping [(.text "post.title", .int 2)]) (.bool true)),
    .call (.assign (.text "title") (.int 3) (.bool true))]

/-- What becomes of it: the second write. -/
def titleAssigned : Assignment := ⟨.column "title", .literal (.int 2)⟩

/-- A title written as `title`, as `posts.title` and as `title` again: the second value is assigned.
-/
theorem retitled_second_assigned :
    ∃ b into, Builder.create (.ofModels [titledModel]) (.text "post") (.text "update") = .ok b ∧
      readStatement (performed retitled (ofBuilder b none)).builder.query .update =
        .ok (.update into (some [titleAssigned]) none) ∧
      writesTo "title" (written retitled (ofBuilder b none)) =
        [("title", .int 1), ("posts.title", .int 2), ("title", .int 3)] ∧
      ("title", .literal (.int 2)) ∈ columnValues into.columns [titleAssigned] := by
  obtain ⟨-, hassigned⟩ := @newest_spelling_assigned (.ofModels [titledModel]) (.text "post")
    (.text "update") _ rfl none retitled (by simp [retitled])
    ⟨{ name := .text "posts", aliasOf := none }, ["title"]⟩ (some [titleAssigned]) none rfl
  have hcolumn := hassigned _ rfl "title"
  refine ⟨_, _, rfl, rfl, rfl, ?_⟩
  have hnewest : Assoc.Newest "posts.title"
      [("title", Value.int 1), ("posts.title", .int 2), ("title", .int 3)] :=
    ⟨[("title", .int 1)], .int 2, [("title", .int 3)], rfl, by decide, by decide⟩
  obtain ⟨e, he, hvalue⟩ := hcolumn.newest "posts.title" (.int 2) hnewest rfl
  cases he
  refine (hcolumn.written ?_ _).mpr hvalue
  intro a ha
  rw [List.mem_singleton.mp ha]
  exact nofun

end Session

end ModelQuery
