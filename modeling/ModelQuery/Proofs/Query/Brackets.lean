import ModelQuery.Query.Conditions

/-!
# Conditions as bracketed expressions

What is said about a clause is a word over three marks: a test, an opening with its connective, a
closing.  `Reads` is the grammar of the words in which every opening has its closing, and of the
conditions they spell; a word spells one list of conditions at most (`Reads.unique`).  Any word
becomes such a one if the closings are left out that close nothing, and closings are added for what
is still open at the end (`balanced`).

A clause in the making keeps its open groups and forgets the word.  `Spine` recovers it: between two
openings of groups that are still open stands a word of its own, which spells the conditions that
the outer group had when the inner one was opened.
-/

namespace ModelQuery

/-- What is said about a clause, one thing at a time. -/
inductive Mark where
  | test (logic : Logic) (column op value : Value)
  | opening (logic : Logic)
  | closing

namespace Mark

/-- The conditions a bracketed expression spells. -/
inductive Reads : List Mark → List Condition → Prop where
  | nothing : Reads [] []
  | test {logic : Logic} {column op value : Value} {ms : List Mark} {cs : List Condition} :
      Reads ms cs → Reads (.test logic column op value :: ms) (.test logic column op value :: cs)
  | group {logic : Logic} {inside ms : List Mark} {children cs : List Condition} :
      Reads inside children → Reads ms cs →
      Reads (.opening logic :: inside ++ .closing :: ms) (.group logic children :: cs)

variable {ms ns inside : List Mark} {cs ds children : List Condition}

/-- The word with a closing for each of its openings: inside so many open groups, closings count as
long as one is open, and what is open at the end is closed. -/
def balanced : Nat → List Mark → List Mark
  | depth, [] => List.replicate depth .closing
  | depth, .test logic column op value :: ms => .test logic column op value :: balanced depth ms
  | depth, .opening logic :: ms => .opening logic :: balanced (depth + 1) ms
  | 0, .closing :: ms => balanced 0 ms
  | depth + 1, .closing :: ms => .closing :: balanced depth ms

/-- How many groups are open behind a word, if so many were open before it. -/
def openBehind : Nat → List Mark → Nat
  | depth, [] => depth
  | depth, .test .. :: ms => openBehind depth ms
  | depth, .opening _ :: ms => openBehind (depth + 1) ms
  | depth, .closing :: ms => openBehind (depth - 1) ms

/-! ## One reading -/

/-- What a word adds to the group it begins in, and, closing by closing, to the groups around it. -/
def levels : List Mark → List Condition × List (List Condition)
  | [] => ([], [])
  | .test logic column op value :: ms =>
    (.test logic column op value :: (levels ms).1, (levels ms).2)
  | .closing :: ms => ([], (levels ms).1 :: (levels ms).2)
  | .opening logic :: ms =>
    match levels ms with
    | (inner, outer :: around) => (.group logic inner :: outer, around)
    | (inner, []) => ([.group logic inner], [])

/-- What is read first stays in front of what is read further. -/
theorem Reads.levels_append (h : Reads ms cs) (ns : List Mark) :
    levels (ms ++ ns) = (cs ++ (levels ns).1, (levels ns).2) := by
  induction h generalizing ns with
  | nothing => rfl
  | test _ ih =>
      rw [List.cons_append, levels, ih]
      rfl
  | @group logic inside ms children cs _ _ ihinside ih =>
      -- the closing of the group is where the word inside it ends
      have hinside : levels (inside ++ .closing :: (ms ++ ns)) =
          (children, (cs ++ (levels ns).1) :: (levels ns).2) := by
        rw [ihinside, levels, ih, List.append_nil]
      rw [List.append_assoc, List.cons_append, List.cons_append, levels, hinside]
      rfl

/-- Marks are read as one list of conditions at most. -/
theorem Reads.unique (h : Reads ms cs) (h' : Reads ms ds) : cs = ds := by
  have heq := (h.levels_append []).symm.trans (h'.levels_append [])
  rw [levels, List.append_nil, List.append_nil] at heq
  exact congrArg Prod.fst heq

/-- Marks that are read one after the other are read as one. -/
theorem Reads.append (h : Reads ms cs) (h' : Reads ns ds) : Reads (ms ++ ns) (cs ++ ds) := by
  induction h with
  | nothing => exact h'
  | test _ ih => exact .test ih
  | group hinside _ _ ih =>
      rw [List.append_assoc]
      exact .group hinside ih

end Mark

namespace OpenConditions

open Mark

/-! ## The spine of open groups -/

/-- The clause in the making that has heard a word. -/
inductive Spine : List Mark → OpenConditions → Prop where
  | root {logic : Logic} {ms : List Mark} {cs : List Condition} :
      Reads ms cs → Spine ms ⟨⟨logic, cs⟩, []⟩
  | opened {logic : Logic} {ms inside : List Mark} {cs : List Condition} {outer : OpenGroup}
      {around : List OpenGroup} :
      Spine ms ⟨outer, around⟩ → Reads inside cs →
      Spine (ms ++ .opening logic :: inside) ⟨⟨logic, cs⟩, outer :: around⟩

variable {ms more : List Mark} {ds : List Condition} {o : OpenConditions}

namespace Spine

theorem empty : Spine [] .empty := root .nothing

/-- A bracketed expression goes to the innermost open group. -/
theorem add (h : Spine ms o) (hmore : Reads more ds) :
    Spine (ms ++ more)
      ⟨{ o.current with children := o.current.children ++ ds }, o.enclosing⟩ := by
  cases h with
  | root hms => exact .root (hms.append hmore)
  | opened houter hinside =>
      rw [List.append_assoc]
      exact .opened houter (hinside.append hmore)

theorem push (h : Spine ms o) (logic : Logic) (column op value : Value) :
    Spine (ms ++ [.test logic column op value]) (o.push (.test logic column op value)) :=
  h.add (.test .nothing)

theorem openGroup (h : Spine ms o) (logic : Logic) :
    Spine (ms ++ [.opening logic]) (o.openGroup logic) :=
  .opened h .nothing

/-- The group that is closed becomes one condition of the group around it. -/
theorem close {current outer : OpenGroup} {around : List OpenGroup}
    (h : Spine ms ⟨current, outer :: around⟩) :
    Spine (ms ++ [.closing]) ⟨place current outer, around⟩ := by
  cases h with
  | opened houter hinside =>
      rw [List.append_assoc]
      exact houter.add (.group hinside .nothing)

/-- With a closing for each open group, the word spells the conditions of the clause. -/
theorem conditions (h : Spine ms o) :
    Reads (ms ++ List.replicate o.enclosing.length .closing) o.conditions := by
  obtain ⟨current, enclosing⟩ := o
  induction enclosing generalizing ms current with
  | nil =>
      cases h with
      | root hms =>
          rw [List.length_nil, List.replicate_zero, List.append_nil]
          exact hms
  | cons outer around ih =>
      have hclosed := ih (place current outer) h.close
      rw [List.append_assoc] at hclosed
      exact hclosed

end Spine

/-! ## Hearing a word -/

/-- The clause after one more mark; a closing that closes nothing is not heard. -/
def hear (o : OpenConditions) : Mark → OpenConditions
  | .test logic column op value => o.push (.test logic column op value)
  | .opening logic => o.openGroup logic
  | .closing => o.close?.getD o

/-- How many levels are open depends on the marks alone. -/
theorem length_enclosing_hear (o : OpenConditions) (ms : List Mark) :
    (ms.foldl hear o).enclosing.length = openBehind o.enclosing.length ms := by
  induction ms generalizing o with
  | nil => rfl
  | cons m rest ih =>
      rw [List.foldl_cons, ih]
      cases m with
      | test logic column op value => rfl
      | opening logic => rfl
      | closing =>
          obtain ⟨current, enclosing⟩ := o
          cases enclosing with
          | nil => rfl
          | cons outer around => rfl

/-- Whatever was heard before, a clause holds the conditions spelled by what it has heard,
balanced. -/
theorem reads_hear (h : Spine ms o) (ns : List Mark) :
    Reads (ms ++ balanced o.enclosing.length ns) (ns.foldl hear o).conditions := by
  induction ns generalizing ms o with
  | nil => exact h.conditions
  | cons m rest ih =>
      rw [List.foldl_cons]
      cases m with
      | test logic column op value =>
          have hrest := ih (h.push logic column op value)
          rw [List.append_assoc] at hrest
          exact hrest
      | opening logic =>
          have hrest := ih (h.openGroup logic)
          rw [List.append_assoc] at hrest
          exact hrest
      | closing =>
          obtain ⟨current, enclosing⟩ := o
          cases enclosing with
          | nil => exact ih h
          | cons outer around =>
              have hrest := ih h.close
              rw [List.append_assoc] at hrest
              exact hrest

end OpenConditions

end ModelQuery
