import ModelQuery.Proofs.Sql.Reading
import ModelQuery.Proofs.Sql.Written
import ModelQuery.Sql.Text

/-!
# The condition of a statement

A statement says of a row what the conditions it was compiled from say, in its tree and in its
text.  `Means` puts the two together, `readStatement_means` is about every statement a query
becomes.

The text is what is written on a page.  Writing only adds to what stands there (`tokens_grows`), so
the text of a condition falls into the texts of its symbols, one for each.
-/

namespace ModelQuery.Sql

open ModelQuery.Outcome

/-! ## The text of a formula -/

/-- A comparison with the text that stands for it on some page. -/
structure Shown (d : Dialect) (mode : Values) (alone : Bool) where
  comparison : Comparison
  text : String
  onPage : ∃ p p' : Page, p.tokens d mode (comparison.tokens alone) = .ok p' ∧
    p'.text = p.text ++ text

/-- A symbol as it stands in a text. -/
def Symbol.text : Symbol String → String
  | .test s => s
  | .and => " AND "
  | .or => " OR "
  | .opening => "("
  | .closing => ")"

/-- Symbols as they stand in a text. -/
def textOf : List (Symbol String) → String
  | [] => ""
  | s :: rest => s.text ++ textOf rest

variable {d : Dialect} {mode : Values} {alone : Bool}

/-- A symbol is written as its text, a test as it is shown. -/
theorem symbol_text {p p' : Page} (s : Symbol Comparison)
    (h : p.tokens d mode (s.tokens (Comparison.tokens alone)) = .ok p') :
    ∃ u : Symbol (Shown d mode alone), u.map Shown.comparison = s ∧
      p'.text = p.text ++ (u.map Shown.text).text := by
  cases s with
  | test t =>
      obtain ⟨text, htext⟩ := Page.tokens_grows _ h
      exact ⟨.test ⟨t, text, p, p', h, htext⟩, rfl, htext⟩
  | and =>
      cases h
      exact ⟨.and, rfl, rfl⟩
  | or =>
      cases h
      exact ⟨.or, rfl, rfl⟩
  | opening =>
      cases h
      exact ⟨.opening, rfl, rfl⟩
  | closing =>
      cases h
      exact ⟨.closing, rfl, rfl⟩

/-- What a page shows of symbols: the text of each, in order. -/
theorem spelled_text {p p' : Page} (ss : List (Symbol Comparison))
    (h : p.tokens d mode (spelled (Comparison.tokens alone) ss) = .ok p') :
    ∃ us : List (Symbol (Shown d mode alone)), us.map (Symbol.map Shown.comparison) = ss ∧
      p'.text = p.text ++ textOf (us.map (Symbol.map Shown.text)) := by
  induction ss generalizing p with
  | nil =>
      cases h
      exact ⟨[], rfl, String.append_empty.symm⟩
  | cons s rest ih =>
      obtain ⟨q, hq, hrest⟩ := Page.tokens_append _ _ h
      obtain ⟨u, hu, htext⟩ := symbol_text s hq
      obtain ⟨us, hus, htexts⟩ := ih hrest
      refine ⟨u :: us, ?_, ?_⟩
      · rw [List.map_cons, hu, hus]
      · rw [htexts, htext, String.append_assoc]
        rfl

/-- The text words the formula: it falls into symbols, and who reads them, taking each test for one
thing and AND to bind tighter than OR, finds the comparisons of the formula in their order, joined
to something that says the same. -/
def Words (d : Dialect) (mode : Values) (f : Filter) (text : String) : Prop :=
  ∃ (alone : Bool) (us : List (Symbol (Shown d mode alone)))
    (g : Formula (Shown d mode alone)),
    text = textOf (us.map (Symbol.map Shown.text)) ∧
    read (us.map (Symbol.map Shown.text)) = some (g.map Shown.text) ∧
    g.tests.map Shown.comparison = f.tests ∧
    ∀ v n, (g.map Shown.text).value v n = f.value v n

/-- The text of a condition is one that reads as the condition. -/
theorem filterTokens_words {p p' : Page} {f : Filter}
    (h : p.tokens d mode (filterTokens f) = .ok p') :
    ∃ text, p'.text = p.text ++ text ∧ Words d mode f text := by
  rw [filterTokens, Formula.tokens_eq_spelled] at h
  obtain ⟨us, hus, htext⟩ := spelled_text f.symbols h
  obtain ⟨g, hread, htests, hvalue⟩ := Formula.read_symbols f
  rw [← hus, Formula.read_map] at hread
  obtain ⟨g', hread', rfl⟩ := Option.map_eq_some_iff.mp hread
  refine ⟨_, htext, _, us, g', rfl, ?_, ?_, fun v n => ?_⟩
  · rw [Formula.read_map, hread']
    rfl
  · rw [← Formula.tests_map, htests]
  · rw [Formula.value_map, ← Formula.value_map Shown.comparison, hvalue]

/-! ## The condition of a statement -/

/-- The condition in the WHERE clause of a statement. -/
def Statement.filter : Statement → Option Filter
  | .select s => s.filter
  | .count _ filter => filter
  | .update _ _ filter => filter
  | .insert _ _ => none
  | .delete _ filter => filter

/-- The condition in the HAVING clause of a statement. -/
def Statement.having : Statement → Option Filter
  | .select s => s.having
  | _ => none

/-- The tokens stand somewhere among others. -/
def Inside (part whole : List Token) : Prop := ∃ before after, whole = before ++ part ++ after

namespace Inside

theorem refl (part : List Token) : Inside part part := ⟨[], [], (List.append_nil part).symm⟩

theorem before {part whole : List Token} (h : Inside part whole) (others : List Token) :
    Inside part (whole ++ others) := by
  obtain ⟨b, a, rfl⟩ := h
  exact ⟨b, a ++ others, List.append_assoc _ a others⟩

theorem behind {part whole : List Token} (h : Inside part whole) (others : List Token) :
    Inside part (others ++ whole) := by
  obtain ⟨b, a, rfl⟩ := h
  exact ⟨others ++ b, a, by simp only [List.append_assoc]⟩

end Inside

/-- A condition behind the word of its clause, which blanks lead in. -/
def WrittenBehind (word : String) (f : Filter) (ts : List Token) : Prop :=
  ∃ blanks, Inside (clauseTokens (blanks ++ word) (some f)) ts

/-- What a SELECT has behind its items is in its text, unless the whole cannot be written. -/
theorem select_inside {s : Select} {part : List Token} (h : Inside part s.clauses) :
    Inside part s.tokens ∨ ∃ cause, s.tokens = [.fault cause] := by
  unfold Select.tokens
  split
  · exact Or.inl (h.behind _)
  · exact Or.inr ⟨_, rfl⟩

/-- A condition is written where its clause belongs, unless the whole statement cannot be. -/
theorem filter_inside {s : Statement} {f : Filter} (d : Dialect) (h : s.filter = some f) :
    WrittenBehind "WHERE " f (s.tokens d) ∨ ∃ cause, s.tokens d = [.fault cause] := by
  cases s with
  | select s =>
      change s.filter = some f at h
      have hclauses : Inside (clauseTokens " \nWHERE " (some f)) s.clauses := by
        -- behind the tables, before the groups, their condition, the order and the limits
        rw [Select.clauses, h]
        exact ((((Inside.refl _).behind _).before _).before _).before _ |>.before _
      exact (select_inside hclauses).imp_left fun hinside => ⟨" \n", hinside⟩
  | count tables filter =>
      change filter = some f at h
      subst h
      exact Or.inl ⟨" \n", (Inside.refl _).behind _⟩
  | update into assignments filter =>
      change filter = some f at h
      subst h
      exact Or.inl ⟨" ", (Inside.refl _).behind _⟩
  | insert into rows => cases h
  | delete into filter =>
      change filter = some f at h
      subst h
      exact Or.inl ⟨" ", (Inside.refl _).behind _⟩

/-- A statement writes its second condition behind HAVING, or is nothing but a fault. -/
theorem having_inside {s : Statement} {f : Filter} (d : Dialect) (h : s.having = some f) :
    WrittenBehind "HAVING " f (s.tokens d) ∨ ∃ cause, s.tokens d = [.fault cause] := by
  cases s with
  | select s =>
      change s.having = some f at h
      have hclauses : Inside (clauseTokens " \nHAVING " (some f)) s.clauses := by
        rw [Select.clauses, h]
        exact (((Inside.refl _).behind _).before _).before _
      exact (select_inside hclauses).imp_left fun hinside => ⟨" \n", hinside⟩
  | count tables filter => cases h
  | update into assignments filter => cases h
  | insert into rows => cases h
  | delete into filter => cases h

/-- A written statement shows the wording of a condition behind its clause's word. -/
theorem words_of_written {page : Page} {f : Filter} {word : String} {ts : List Token}
    (hwritten : WrittenBehind word f ts ∨ ∃ cause, ts = [.fault cause])
    (h : Page.tokens d mode {} ts = .ok page) :
    ∃ before text after, page.text = before ++ word ++ text ++ after ∧ Words d mode f text := by
  rcases hwritten with ⟨blanks, before, after, rfl⟩ | ⟨cause, rfl⟩
  · -- the pages before and behind the clause
    obtain ⟨p₂, h₂, hafter⟩ := Page.tokens_append _ _ h
    obtain ⟨p₁, -, hclause⟩ := Page.tokens_append _ _ h₂
    obtain ⟨text, htext, hwords⟩ :=
      filterTokens_words (p := p₁.write (blanks ++ word)) hclause
    obtain ⟨s, hs⟩ := Page.tokens_grows _ hafter
    refine ⟨p₁.text ++ blanks, text, s, ?_, hwords⟩
    rw [hs, htext]
    show p₁.text ++ (blanks ++ word) ++ text ++ s = _
    simp only [String.append_assoc]
  · cases h

/-- The condition says what the conditions it was compiled from say. -/
structure Means (c : Catalog) (cs : List Condition) (filter : Option Filter) : Prop where
  /-- Its comparisons are the tests in their order, as the catalog reads them. -/
  tests : (Condition.leavesAll cs).mapM (Formula.readLeaf (readTest c)) =
    .ok (Formula.testsOf filter)
  /-- It is absent exactly where there is no test. -/
  absent : filter = none ↔ Condition.leavesAll cs = []
  /-- Whatever its tests come to, it comes to what they say from the left. -/
  value : ∀ v, Formula.value? v 0 filter = Condition.meaningAll v cs

/-- A condition that is read means what the query's conditions say. -/
theorem readFilter_means {c : Catalog} {cs : List Condition} {filter : Option Filter}
    (h : readFilter c cs = .ok filter) : Means c cs filter := by
  have hvalue := fun v => Formula.ofConditions_value v cs h
  refine ⟨(hvalue fun _ => .unknown).1, ?_, fun v => (hvalue v).2⟩
  rw [← Formula.testsOf_eq_nil_iff, ← List.length_eq_zero_iff, ← List.length_eq_zero_iff,
    length_of_mapM (hvalue fun _ => .unknown).1]

/-- Only a test that cannot be read keeps conditions from becoming one. -/
theorem readFilter_isOk {c : Catalog} {cs : List Condition} {ts : List Comparison}
    (h : (Condition.leavesAll cs).mapM (Formula.readLeaf (readTest c)) = .ok ts) :
    ∃ filter, readFilter c cs = .ok filter :=
  Formula.ofConditions_isOk h

/-! ## Whole statements -/

/-- The query becomes the statement, of some kind or as a count. -/
def Becomes (q : Query) (s : Statement) : Prop :=
  (∃ kind, readStatement q kind = .ok s) ∨ readCount q = .ok s

/-- The statement is one that can have a WHERE clause. -/
def Statement.isFiltered : Statement → Bool
  | .insert _ _ => false
  | _ => true

/-- The statement is one that can have a HAVING clause. -/
def Statement.isGrouped : Statement → Bool
  | .select _ => true
  | _ => false

/-- The conditions of a statement say what those of the query say, read in the query's catalog. -/
def Carries (q : Query) (s : Statement) : Prop :=
  ∃ kind f, readFrame q kind = .ok f ∧
    (s.isFiltered → Means f.catalog q.filter s.filter) ∧
    (s.isGrouped → Means f.catalog q.having s.having)

/-- A SELECT carries the conditions of its query. -/
theorem readSelect_carries {f : Frame} {q : Query} {s : Select}
    (hf : readFrame q .select = .ok f) (h : readSelect f q = .ok s) : Carries q (.select s) := by
  unfold readSelect at h
  obtain ⟨items, -, h⟩ := bind_eq_ok h
  obtain ⟨tables, -, h⟩ := bind_eq_ok h
  obtain ⟨filter, hfilter, h⟩ := bind_eq_ok h
  obtain ⟨groupBy, -, h⟩ := bind_eq_ok h
  obtain ⟨having, hhaving, h⟩ := bind_eq_ok h
  obtain ⟨orderBy, -, h⟩ := bind_eq_ok h
  obtain ⟨distinct, -, h⟩ := bind_eq_ok h
  obtain ⟨limit, -, h⟩ := bind_eq_ok h
  obtain ⟨offset, -, h⟩ := bind_eq_ok h
  cases h
  exact ⟨.select, f, hf, fun _ => readFilter_means hfilter, fun _ => readFilter_means hhaving⟩

/-- A statement carries the conditions of its query, as far as its kind has any. -/
theorem readStatement_carries {q : Query} {kind : Kind} {s : Statement}
    (h : readStatement q kind = .ok s) : Carries q s := by
  unfold readStatement at h
  obtain ⟨f, hf, h⟩ := bind_eq_ok h
  cases kind with
  | select =>
      obtain ⟨select, hselect, h⟩ := bind_eq_ok h
      cases h
      exact readSelect_carries hf hselect
  | update =>
      obtain ⟨into, -, h⟩ := bind_eq_ok h
      obtain ⟨filter, hfilter, h⟩ := bind_eq_ok h
      have hmeans : Means f.catalog q.filter filter := readFilter_means hfilter
      split at h
      · cases h
        exact ⟨_, f, hf, fun _ => hmeans, fun hgrouped => nomatch hgrouped⟩
      · obtain ⟨assignments, -, h⟩ := bind_eq_ok h
        cases h
        exact ⟨_, f, hf, fun _ => hmeans, fun hgrouped => nomatch hgrouped⟩
  | insert =>
      -- an INSERT has neither clause
      obtain ⟨into, -, h⟩ := bind_eq_ok h
      split at h
      · cases h
        exact ⟨_, f, hf, fun hfiltered => Bool.noConfusion hfiltered,
          fun hgrouped => Bool.noConfusion hgrouped⟩
      · obtain ⟨rows, -, h⟩ := bind_eq_ok h
        cases h
        exact ⟨_, f, hf, fun hfiltered => Bool.noConfusion hfiltered,
          fun hgrouped => Bool.noConfusion hgrouped⟩
  | delete =>
      obtain ⟨into, -, h⟩ := bind_eq_ok h
      obtain ⟨filter, hfilter, h⟩ := bind_eq_ok h
      cases h
      exact ⟨_, f, hf, fun _ => readFilter_means hfilter, fun hgrouped => nomatch hgrouped⟩

/-- A count carries the conditions of its query. -/
theorem readCount_carries {q : Query} {s : Statement} (h : readCount q = .ok s) :
    Carries q s := by
  unfold readCount at h
  obtain ⟨f, hf, h⟩ := bind_eq_ok h
  obtain ⟨tables, -, h⟩ := bind_eq_ok h
  obtain ⟨filter, hfilter, h⟩ := bind_eq_ok h
  cases h
  exact ⟨_, f, hf, fun _ => readFilter_means hfilter, fun hgrouped => nomatch hgrouped⟩

/-- **CONDITIONS ARE READ FROM THE LEFT.**  In every statement a query becomes, WHERE and HAVING
say of a row what the conditions of the query say from the left, whatever the tests come to for it;
they are absent exactly where there is no test; and the text of the statement words them, so that
who reads it finds the same said.  Only a test that cannot be read keeps conditions from becoming
part of a statement. -/
theorem conditions_read_from_left {q : Query} {s : Statement} (h : Becomes q s) :
    Carries q s ∧
    (∀ d mode page, Page.tokens d mode {} (s.tokens d) = .ok page →
      (∀ f, s.filter = some f → ∃ before text after,
        page.text = before ++ "WHERE " ++ text ++ after ∧ Words d mode f text) ∧
      ∀ f, s.having = some f → ∃ before text after,
        page.text = before ++ "HAVING " ++ text ++ after ∧ Words d mode f text) ∧
    ∀ c cs ts, (Condition.leavesAll cs).mapM (Formula.readLeaf (readTest c)) = .ok ts →
      ∃ filter, readFilter c cs = .ok filter := by
  refine ⟨?_, fun d mode page hpage => ⟨?_, ?_⟩, fun c cs ts hts => readFilter_isOk hts⟩
  · rcases h with ⟨kind, hkind⟩ | hcount
    · exact readStatement_carries hkind
    · exact readCount_carries hcount
  · exact fun f hf => words_of_written (filter_inside d hf) hpage
  · exact fun f hf => words_of_written (having_inside d hf) hpage

/-- A condition, then a group that begins with an empty one. -/
def nestedQuery : Query :=
  { tables := [(.text "post", .null)]
    filter := [.test .or (.text "post.a") (.text "=") (.int 1),
      .group .and [.group .or [], .test .and (.text "post.b") (.text "=") (.int 2),
        .test .or (.text "post.c") (.text "=") (.int 3)]]
    having := [] }

/-- A column of the table `post` compared with a number. -/
def postColumnIs (name : String) (n : Int) : Filter :=
  .test (.compare .eq (.column (some { name := .text "post", aliasOf := none }) name)
    (.literal (.int n)))

/-- The condition that the query says. -/
def nestedFilter : Filter :=
  .and (postColumnIs "a" 1) (.or (postColumnIs "b" 2) (postColumnIs "c" 3))

/-- The query as a DELETE. -/
def nestedDelete : Statement :=
  .delete ⟨{ name := .text "post", aliasOf := none }, ["a", "b", "c"]⟩ (some nestedFilter)

/-- A group behind AND, and in it an OR, in the text of a DELETE. -/
theorem nested_conditions_read_from_left :
    Becomes nestedQuery nestedDelete ∧ Carries nestedQuery nestedDelete ∧
    ∃ before text after,
      "DELETE FROM post WHERE post.a = 1 AND (post.b = 2 OR post.c = 3)" =
        before ++ "WHERE " ++ text ++ after ∧ Words .standard .written nestedFilter text := by
  have h : Becomes nestedQuery nestedDelete := Or.inl ⟨.delete, rfl⟩
  obtain ⟨hcarries, hwords, -⟩ := conditions_read_from_left h
  refine ⟨h, hcarries, ?_⟩
  exact (hwords .standard .written
    { text := "DELETE FROM post WHERE post.a = 1 AND (post.b = 2 OR post.c = 3)" } rfl).1
    nestedFilter rfl

end ModelQuery.Sql
