import ModelQuery.Proofs.Sql.Assigned
import ModelQuery.Proofs.Sql.Compared
import ModelQuery.Proofs.Sql.MatchedStatements
import ModelQuery.Proofs.Sql.MatchedTokens
import ModelQuery.Proofs.Sql.Remains

/-!
# Values stay out of the text

Where values are bound, a value leaves a placeholder in the text, whose name it has no part in.  So
statements that differ in scalars have the same text with the same placeholders, and their
parameters differ in the same scalars (`values_stay_parameters`).

And the parameters are the query's own values at their places.  What its conditions compare with
stands by placeholders in the tests, in order (`BindsCompared`).  What it assigns or inserts, as far
as it is not written over, stands by placeholders at the places of the columns (`BindsWrites`).
-/

namespace ModelQuery.Sql

open Outcome

variable {R : Value → Value → Prop}

/-! ## Pages -/

/-- Bound values by their names, one by one. -/
def ParamsMatched (R : Value → Value → Prop) :
    List (String × Value) → List (String × Value) → Prop :=
  List.Forall₂ fun e e' => e.1 = e'.1 ∧ Value.Matched R e.2 e'.2

/-- Under each name the values are matched, or there are none. -/
theorem ParamsMatched.lookup {params params' : List (String × Value)}
    (h : ParamsMatched R params params') (name : String) :
    Option.Rel (Value.Matched R) (params.lookup name) (params'.lookup name) := by
  induction h with
  | nil => exact .none
  | @cons e e' rest rest' he _ ih =>
      obtain ⟨key, v⟩ := e
      obtain ⟨key', v'⟩ := e'
      obtain ⟨rfl, hv⟩ : key = key' ∧ Value.Matched R v v' := he
      rw [List.lookup_cons, List.lookup_cons]
      split
      · exact .some hv
      · exact ih

namespace Page

/-- Two pages on which the same is written and the same is counted, with matched values. -/
inductive Matched (R : Value → Value → Prop) : Page → Page → Prop where
  | intro (p : Page) {params : List (String × Value)} (h : ParamsMatched R p.params params) :
      Matched R p { p with params }

variable {d : Dialect} {mode : Values} {p p' : Page}

theorem Matched.text_eq (h : p.Matched R p') : p.text = p'.text := by
  cases h
  rfl

theorem Matched.withText (h : p.Matched R p') (s : String) :
    Matched R { p with text := s } { p' with text := s } := by
  cases h with
  | intro h => exact .intro _ h

theorem Matched.write (h : p.Matched R p') (s : String) : (p.write s).Matched R (p'.write s) := by
  cases h with
  | intro h => exact .intro _ h

/-- A name is cut to its length alike on matched pages. -/
theorem Matched.fit (h : p.Matched R p') (sort : NumberedSort) (name : String) :
    (p.fit d sort name).1 = (p'.fit d sort name).1 ∧
      (p.fit d sort name).2.Matched R (p'.fit d sort name).2 := by
  cases h with
  | intro h =>
      unfold Page.fit
      by_cases hlength : name.length ≤ d.longestNumbered
      · rw [if_pos hlength, if_pos hlength]
        exact ⟨rfl, .intro _ h⟩
      · rw [if_neg hlength, if_neg hlength]
        exact ⟨rfl, .intro _ h⟩

/-- A name is numbered alike on matched pages. -/
theorem Matched.number (h : p.Matched R p') (sort : NumberedSort) (stem : String) :
    (p.number d sort stem).1 = (p'.number d sort stem).1 ∧
      (p.number d sort stem).2.Matched R (p'.number d sort stem).2 := by
  cases h with
  | intro h =>
      let counted : Page :=
        { p with counters := Assoc.put stem ((p.counters.lookup stem).getD 0 + 1) p.counters }
      exact Matched.fit (.intro counted h) sort _

/-- A label is chosen alike on matched pages. -/
theorem Matched.label (h : p.Matched R p') (stem : String) (shared : Option String) :
    (p.label d stem shared).1 = (p'.label d stem shared).1 ∧
      (p.label d stem shared).2.Matched R (p'.label d stem shared).2 := by
  obtain ⟨hname, hpage⟩ := h.number (d := d) .label stem
  unfold Page.label
  cases shared with
  | none => exact ⟨hname, hpage⟩
  | some key =>
      have hshared : p.shared = p'.shared := by
        cases h
        rfl
      dsimp only
      rw [hshared]
      split
      · exact ⟨rfl, h⟩
      · refine ⟨hname, ?_⟩
        rw [hname]
        generalize p.number d .label stem = numbered, p'.number d .label stem = numbered' at hpage
        obtain ⟨name, q⟩ := numbered
        obtain ⟨name', q'⟩ := numbered'
        cases hpage with
        | intro h => exact .intro _ h

theorem Matched.setAside (h : p.Matched R p') (label : String) :
    Matched R { p with labels := label :: p.labels } { p' with labels := label :: p'.labels } := by
  cases h with
  | intro h => exact .intro _ h

theorem Matched.closeLabel (h : p.Matched R p') :
    Related (Matched R) (p.token d mode .closeLabel) (p'.token d mode .closeLabel) := by
  cases h with
  | intro h =>
      rw [Page.token, Page.token]
      dsimp only
      split
      · exact .ok (.intro _ h)
      · exact .ok (.intro _ h)

/-- Matched values under one name are bound on both pages, or refused on both. -/
theorem Matched.bind (h : p.Matched R p') (late : Bool) (name : String) {v v' : Value}
    (hv : v.Matched R v') :
    Related (Matched R) (p.bind d late name v) (p'.bind d late name v') := by
  cases h with
  | @intro params h =>
      have hlookup := h.lookup name
      unfold Page.bind
      dsimp only
      generalize p.params.lookup name = found, params.lookup name = found' at hlookup
      cases hlookup with
      | none => exact .ok (.intro _ (List.rel_append h (.cons ⟨rfl, hv⟩ .nil)))
      | some _ => exact .error _

/-- Matched values under a generated name are bound on both pages, or refused on both. -/
theorem Matched.bindAs (h : p.Matched R p') (late : Bool) (name : BindName) {v v' : Value}
    (hv : v.Matched R v') :
    Related (Matched R) (p.bindAs d late name v) (p'.bindAs d late name v') := by
  cases name with
  | exact n => exact h.bind late n hv
  | numbered stem =>
      have hnumber := h.number (d := d) .value stem
      rw [Page.bindAs, Page.bindAs]
      generalize p.number d .value stem = numbered, p'.number d .value stem = numbered' at hnumber
      obtain ⟨name, q⟩ := numbered
      obtain ⟨name', q'⟩ := numbered'
      obtain ⟨rfl, hq⟩ : name = name' ∧ q.Matched R q' := hnumber
      exact hq.bind late name hv

/-- A value is written alike on matched pages, in whatever way values are written. -/
theorem Matched.value (h : p.Matched R p') (name : BindName) (v : Value) :
    Related (Matched R) (p.value d mode name v) (p'.value d mode name v) := by
  cases mode with
  | written =>
      refine (Related.refl (S := Eq) (fun _ => rfl) _).map ?_
      rintro s _ rfl
      exact h.write s
  | bound => exact h.bindAs false name (.inl rfl)
  | late => exact h.bindAs true name (.inl rfl)

/-- An empty set is written alike on matched pages. -/
theorem Matched.emptySet (h : p.Matched R p') (negated : Bool) (stem : String) :
    Related (Matched R) (p.emptySet d mode negated stem) (p'.emptySet d mode negated stem) := by
  unfold Page.emptySet
  split
  · exact .ok (h.write _)
  · exact ((h.write "(").bindAs true (.numbered stem) (.inl rfl)).bind fun _ _ hq =>
      .ok (hq.write ")")

/-- Limits are written alike on matched pages, if the values in them are. -/
theorem Matched.limits (h : p.Matched R p') {limit offset : List Token}
    (hlimit : ∀ q q' : Page, q.Matched R q' →
      Related (Matched R) (q.tokens d mode limit) (q'.tokens d mode limit))
    (hoffset : ∀ q q' : Page, q.Matched R q' →
      Related (Matched R) (q.tokens d mode offset) (q'.tokens d mode offset)) :
    Related (Matched R) (p.token d mode (.limits limit offset))
      (p'.token d mode (.limits limit offset)) := by
  by_cases hempty : limit = [] ∧ offset = []
  · obtain ⟨rfl, rfl⟩ := hempty
    rw [Page.token, Page.token]
    exact .ok h
  · rw [Page.token, Page.token]
    rotate_left
    · exact fun hl ho => hempty ⟨hl, ho⟩
    · exact fun hl ho => hempty ⟨hl, ho⟩
    -- what follows the limit is the same with a value standing in for it and without
    have hrest (r r' : Page) (hr : r.Matched R r') : Related (Matched R)
        (if offset.isEmpty then
          if d == .sqlite then (r.write " OFFSET ").standIn d mode 0 else pure r
        else (r.write " OFFSET ").tokens d mode offset)
        (if offset.isEmpty then
          if d == .sqlite then (r'.write " OFFSET ").standIn d mode 0 else pure r'
        else (r'.write " OFFSET ").tokens d mode offset) := by
      split
      · split
        · exact (hr.write _).value _ _
        · exact .ok hr
      · exact hoffset _ _ (hr.write _)
    refine (hlimit _ _ (h.write _)).bind fun q q' hq => ?_
    dsimp only
    split
    · exact (hq.value _ _).bind hrest
    · exact hrest q q' hq

mutual

/-- Each token is written alike on matched pages. -/
theorem token_matched (t : Token) {p p' : Page} (h : p.Matched R p') (mode : Values) :
    Related (Matched R) (p.token d mode t) (p'.token d mode t) := by
  cases t with
  | word text => exact .ok (h.write text)
  | verbatim text => exact .ok (h.write _)
  | name text => exact .ok (h.write _)
  | call function args =>
      rw [Page.token, Page.token]
      split
      · exact .ok (h.write _)
      · -- the arguments are written on a page of their own
        refine (tokens_matched args (h.withText "") _).bind fun inner inner' hinner => ?_
        rw [hinner.text_eq, h.text_eq]
        exact Related.behind _ fun text => .ok (hinner.withText _)
  | part field time =>
      rw [Page.token, Page.token]
      split
      · exact .error _
      · exact (tokens_matched time (h.write _) mode).bind fun _ _ hq => .ok (hq.write _)
  | null => exact .ok (h.write _)
  | truth b => exact .ok (h.write _)
  | bind name v => exact h.value name v
  | bound ts => exact tokens_matched ts h .bound
  | late ts => exact tokens_matched ts h _
  | always => exact .ok (h.write _)
  | emptySet negated stem => exact h.emptySet negated stem
  | limits limit offset =>
      exact h.limits (fun _ _ hq => tokens_matched limit hq mode)
        (fun _ _ hq => tokens_matched offset hq mode)
  | openLabel stem shared =>
      obtain ⟨hlabel, hpage⟩ := h.label (d := d) stem shared
      rw [Page.token, Page.token]
      dsimp only
      rw [hlabel]
      exact .ok (hpage.setAside _)
  | closeLabel => exact h.closeLabel
  | fault cause => exact .error cause

/-- Tokens one after the other are written alike on matched pages. -/
theorem tokens_matched (ts : List Token) {p p' : Page} (h : p.Matched R p') (mode : Values) :
    Related (Matched R) (p.tokens d mode ts) (p'.tokens d mode ts) := by
  cases ts with
  | nil => exact .ok h
  | cons t rest =>
      rw [Page.tokens, Page.tokens]
      exact (token_matched t h mode).bind fun _ _ hq => tokens_matched rest hq mode

end

/-- Matched tokens whose values are bound: a value that is replaced leaves the same placeholder. -/
theorem tokens_bound_matched {ts ts' : List Token} (hts : TokensMatched R ts ts') {p p' : Page}
    (h : p.Matched R p') :
    Related (Matched R) (p.tokens d .bound ts) (p'.tokens d .bound ts') := by
  induction hts generalizing p p' with
  | nil => exact .ok h
  | cons ht _ ih =>
      rw [Page.tokens, Page.tokens]
      refine Related.bind ?_ fun _ _ hq => ih hq
      cases ht with
      | same => exact token_matched _ h .bound
      | bind name hv => exact h.bindAs false name (.inr hv)

end Page

/-! ## Finished texts -/

/-- Matched values put under one name stay matched. -/
theorem ParamsMatched.put {params params' : List (String × Value)}
    (h : ParamsMatched R params params') (name : String) {v v' : Value} (hv : v.Matched R v') :
    ParamsMatched R (Assoc.put name v params) (Assoc.put name v' params') := by
  induction h with
  | nil => exact .cons ⟨rfl, hv⟩ .nil
  | @cons e e' rest rest' he hrest ih =>
      obtain ⟨key, w⟩ := e
      obtain ⟨key', w'⟩ := e'
      obtain ⟨rfl, hw⟩ : key = key' ∧ Value.Matched R w w' := he
      rw [Assoc.put, Assoc.put]
      split
      · exact .cons ⟨rfl, hv⟩ hrest
      · exact .cons ⟨rfl, hw⟩ ih

/-- Parameters stay matched under the names of their placeholders. -/
theorem ParamsMatched.named {params params' : List (String × Value)}
    (h : ParamsMatched R params params') :
    ParamsMatched R (namedParams params) (namedParams params') := by
  have hputAll {sofar sofar' : List (String × Value)} (hsofar : ParamsMatched R sofar sofar') :
      ParamsMatched R (Assoc.putAll (params.map fun p => (placeholderName p.1, p.2)) sofar)
        (Assoc.putAll (params'.map fun p => (placeholderName p.1, p.2)) sofar') := by
    induction h generalizing sofar sofar' with
    | nil => exact hsofar
    | @cons e e' rest rest' he _ ih =>
        obtain ⟨key, v⟩ := e
        obtain ⟨key', v'⟩ := e'
        obtain ⟨rfl, hv⟩ : key = key' ∧ Value.Matched R v v' := he
        exact ih (hsofar.put (placeholderName key) hv)
  exact hputAll .nil

/-- Two finished texts that are the same, with the same places and the same names of parameters,
whose values are matched. -/
structure Rendered.Matched (R : Value → Value → Prop) (r r' : Rendered) : Prop where
  text : r.text = r'.text
  places : r.places = r'.places
  params : ParamsMatched R r.params r'.params

/-- So the values at the places are matched. -/
theorem Rendered.Matched.placed {r r' : Rendered} (h : r.Matched R r') :
    Related (List.Forall₂ (Value.Matched R)) r.placed r'.placed := by
  rw [Rendered.placed, Rendered.placed, h.places]
  refine Related.mapM (S := Eq) (List.forall₂_same.mpr fun _ _ => rfl) ?_
  rintro name _ rfl
  have hlookup := h.params.lookup name
  generalize r.params.lookup name = found, r'.params.lookup name = found' at hlookup
  cases hlookup with
  | none => exact .error _
  | some hv => exact .ok hv

/-- Matched tokens come to matched texts, in every dialect. -/
theorem render_matched (d : Dialect) {ts ts' : List Token} (h : TokensMatched R ts ts') :
    Related (Rendered.Matched R) (render d .bound ts) (render d .bound ts') := by
  have hpage := Page.tokens_bound_matched (d := d) h (.intro {} .nil)
  have hnamed : ∀ p p' : Page, p.Matched R p' →
      Related (Rendered.Matched R) (.ok p.named : Except Error Rendered) (.ok p'.named) := by
    intro p p' hp
    cases hp with
    | intro hparams => exact .ok ⟨rfl, rfl, hparams.named⟩
  cases d with
  | standard => exact hpage.bind hnamed
  | postgresql => exact hpage.bind hnamed
  | sqlite =>
      refine hpage.bind fun p p' hp => ?_
      cases hp with
      | @intro params hparams =>
          have hnames : p.params.map Prod.fst = params.map Prod.fst := map_fst_matched hparams
          unfold Page.placed
          dsimp only
          rw [hnames]
          split
          · exact .error _
          · exact .ok ⟨rfl, rfl, hparams.named⟩

/-! ## What is bound -/

/-- A condition is written behind its word in every statement that can be written. -/
theorem behind_of_written {word : String} {f : Filter} {ts : List Token}
    (h : WrittenBehind word f ts ∨ ∃ cause, ts = [.fault cause]) {d : Dialect} {mode : Values}
    {p p' : Page} (hp : p.tokens d mode ts = .ok p') : WrittenBehind word f ts := by
  rcases h with h | ⟨cause, rfl⟩
  · exact h
  · cases hp

/-- The scalars that conditions compare with are bound: the condition that stands behind the word of
its clause has them as placeholders, and they are parameters. -/
structure BindsCompared (word : String) (cs : List Condition) (filter : Option Filter) (p : Page)
    (ts : List Token) : Prop where
  /-- The condition stands behind the word of its clause. -/
  behind : ∀ f, filter = some f → WrittenBehind word f ts
  /-- What a test is given to compare with stands in the words of the test in its place. -/
  placed : ∀ wss, ComparesEach cs wss →
    List.Forall₂ Comparison.Places wss (Formula.testsOf filter)
  /-- All of it stands in the words of the condition, in order. -/
  ordered : ∀ wss, ComparesEach cs wss → ∀ f, filter = some f →
    (placeholders wss.flatten).Sublist (filterTokens f)
  bound : ∀ wss, ComparesEach cs wss → ∀ w ∈ wss.flatten, ∃ key, (key, w) ∈ p.params

/-- What the conditions of a clause compare with is bound, if the clause can be written. -/
theorem bindsCompared {word : String} {c : Catalog} {cs : List Condition} {filter : Option Filter}
    (h : Means c cs filter) {d : Dialect} {p : Page} {ts : List Token}
    (hp : Page.tokens d .bound {} ts = .ok p)
    (hwritten : ∀ f, filter = some f → WrittenBehind word f ts ∨ ∃ cause, ts = [.fault cause]) :
    BindsCompared word cs filter p ts := by
  have hbehind := fun f hf => behind_of_written (hwritten f hf) hp
  have hplaced := fun wss hwss => @places_of_means c cs filter h wss hwss
  have hordered : ∀ wss, ComparesEach cs wss → ∀ f, filter = some f →
      (placeholders wss.flatten).Sublist (filterTokens f) := by
    rintro wss hwss f rfl
    exact placed_of_tests (hplaced wss hwss) true
  refine ⟨hbehind, hplaced, hordered, fun wss hwss w hw => ?_⟩
  cases filter with
  | none =>
      cases hplaced wss hwss
      cases hw
  | some f =>
      obtain ⟨blanks, before, after, rfl⟩ := hbehind f rfl
      have hmem : .bind (.numbered valueStem) w ∈ filterTokens f :=
        (hordered wss hwss f rfl).subset (List.mem_map_of_mem hw)
      obtain ⟨key, hkey, -⟩ := Page.tokens_bound hp (List.mem_append_left _
        (List.mem_append_right _ (List.mem_append_right _ hmem)))
      exact ⟨key, hkey⟩

/-- Conditions that a statement carries are bound in both of its clauses. -/
theorem compared_bound {q : Query} {s : Statement} (h : Becomes q s) {d : Dialect} {p : Page}
    (hp : Page.tokens d .bound {} (s.tokens d) = .ok p) :
    (s.isFiltered = true → BindsCompared "WHERE " q.filter s.filter p (s.tokens d)) ∧
      (s.isGrouped = true → BindsCompared "HAVING " q.having s.having p (s.tokens d)) := by
  have hcarries : Carries q s := by
    rcases h with ⟨kind, hkind⟩ | hcount
    · exact readStatement_carries hkind
    · exact readCount_carries hcount
  obtain ⟨kind, f, -, hfilter, hhaving⟩ := hcarries
  exact ⟨fun hs => bindsCompared (hfilter hs) hp fun f hf => filter_inside d hf,
    fun hs => bindsCompared (hhaving hs) hp fun f hf => having_inside d hf⟩

/-! ## What is written -/

/-- A scalar in a cell is a placeholder in the words and nothing else, and the parameter of that
placeholder. -/
def Cell.Bound (p : Page) (c : Cell) (ts : List Token) : Prop :=
  c.value.isScalar = true →
    ts = [.bind c.name c.value] ∧
      ∃ key, (key, c.value) ∈ p.params ∧ ∀ own, c.name = .exact own → key = own

/-- A scalar under a name of its own is the parameter of that name. -/
theorem Cell.Bound.mem_params {p : Page} {c : Cell} {ts : List Token} (h : c.Bound p ts)
    (hscalar : c.value.isScalar = true) {own : String} (hname : c.name = .exact own) :
    (own, c.value) ∈ p.params := by
  obtain ⟨-, key, hkey, hown⟩ := h hscalar
  exact hown own hname ▸ hkey

/-- An UPDATE sets what the query assigns: the words of SET are the cells of the assignments, in
which scalars are bound. -/
structure BindsSet (q : Query) (p : Page) (into : Changed) (as : List Assignment) : Prop where
  /-- What is assigned to by name is a column that the cells can be of. -/
  known : ∀ w ∈ q.assignments, ∀ name, keyName? w.1 = some name → name ∈ into.columns
  cells : ∃ values,
    setTokens into (some as) = listed (List.zipWith equated
      ((setCells into.columns q.assignments).map (headingTokens ·.heading)) values) ∧
    List.Forall₂ (Cell.Bound p) (setCells into.columns q.assignments) values

/-- An INSERT has the rows of the query: the words of the rows are the cells of their values under
the columns, in which scalars are bound. -/
structure BindsRows (q : Query) (p : Page) (into : Changed) (table : List (List Assignment)) :
    Prop where
  /-- What the first row assigns to by name is a column that the cells can be of. -/
  known : ∀ row ∈ q.rows.head?, ∀ w ∈ q.columns.zip row, ∀ name,
    keyName? w.1 = some name → name ∈ into.columns
  cells : ∃ values,
    insertRows into (some table) =
      { columns := ((insertCells into.columns q.columns q.rows).headD []).map
          (headingTokens ·.heading)
        rows := values.map rowTokens } ∧
    List.Forall₂ (List.Forall₂ (Cell.Bound p)) (insertCells into.columns q.columns q.rows) values

/-- What a statement of the query writes are the query's own values, each bound at its place.  Only
a query that gives no values becomes a statement without any. -/
def BindsWrites (q : Query) (p : Page) : Statement → Prop
  | .update _ none _ => q.assignments = []
  | .update into (some as) _ => BindsSet q p into as
  | .insert _ none => q.columns = [] ∨ q.rows = []
  | .insert into (some table) => BindsRows q p into table
  | _ => True

section Writes

variable {d : Dialect} {p : Page}

/-- Placeholders among the tokens are bound. -/
theorem bound_of_worded {ts : List Token} (hp : Page.tokens d .bound {} ts = .ok p)
    {cells : List Cell} {values : List (List Token)} (h : List.Forall₂ Cell.Worded cells values)
    (hmem : ∀ value ∈ values, ∀ t ∈ value, t ∈ ts) :
    List.Forall₂ (Cell.Bound p) cells values := by
  induction h with
  | nil => exact .nil
  | @cons c value cells values hworded _ ih =>
      refine .cons (fun hscalar => ?_) (ih fun value' hvalue' =>
        hmem value' (List.mem_cons_of_mem value hvalue'))
      have hvalue := hworded hscalar
      refine ⟨hvalue, Page.tokens_bound hp ?_⟩
      exact hmem value List.mem_cons_self _ (hvalue ▸ List.mem_cons_self)

theorem mem_updateTokens {into : Changed} {as : List Assignment} {filter : Option Filter}
    {t : Token} (h : t ∈ setTokens into (some as)) : t ∈ updateTokens into (some as) filter :=
  List.mem_append_left _ (List.mem_append_left _ (List.mem_append_right _ h))

/-- A value in a row of an INSERT is one of its tokens, if there are columns to write it to. -/
theorem mem_insertTokens_of_row {into : Changed} {rows : Option (List (List Assignment))}
    (hcolumns : (insertRows into rows).columns ≠ []) {row : List Token}
    (hrow : row ∈ (insertRows into rows).rows) {t : Token} (ht : t ∈ row) :
    t ∈ insertTokens d into rows := by
  rw [insertTokens]
  refine List.mem_append_left _ (List.mem_append_right _ ?_)
  rw [List.isEmpty_eq_false_iff.mpr hcolumns]
  exact List.mem_append_right _ (mem_separated hrow ht)

variable {c : Catalog} {q : Query} {into : Changed}

/-- What an UPDATE assigns is bound. -/
theorem bindsSet {as : List Assignment} {filter : Option Filter}
    (has : readAssignments c into q.assignments = .ok as)
    (hp : Page.tokens d .bound {} (updateTokens into (some as) filter) = .ok p) :
    BindsSet q p into as := by
  obtain ⟨hknown, values, hwords, hworded, hmem⟩ := update_worded has fun cause hfault =>
    fault_not_mem hp cause (mem_updateTokens hfault)
  refine ⟨hknown, values, hwords, bound_of_worded hp hworded fun value hvalue t ht => ?_⟩
  exact mem_updateTokens (hmem value hvalue t ht)

/-- Where cells stand in a row, headings stand over them. -/
theorem headings_ne_nil {known : List String} {columns : List Value} {rows : List (List Value)}
    {row : List Cell} (hrow : row ∈ insertCells known columns rows) (hcell : row ≠ []) :
    (insertCells known columns rows).headD [] ≠ [] := by
  cases rows with
  | nil => cases hrow
  | cons first later =>
      rcases List.mem_cons.mp hrow with rfl | hlater
      · exact hcell
      · obtain ⟨row', -, rfl⟩ := List.mem_map.mp hlater
        intro hnone
        have hnothing : firstCells known (columns.zip first) = [] := List.map_eq_nil_iff.mp hnone
        rw [hnothing] at hcell
        exact hcell rfl

/-- What an INSERT inserts is bound. -/
theorem bindsRows {table : List (List Assignment)} (hrows : q.rows ≠ [])
    (htable : readRows c into q.columns q.rows = .ok table)
    (hp : Page.tokens d .bound {} (insertTokens d into (some table)) = .ok p) :
    BindsRows q p into table := by
  obtain ⟨hknown, values, hwords, hworded⟩ := insert_worded htable hrows fun cause hfault =>
    fault_not_mem hp cause (mem_insertTokens hfault)
  refine ⟨hknown, values, hwords, List.forall₂_iff_zip.mpr ⟨hworded.length_eq, ?_⟩⟩
  intro cells value hpair
  obtain ⟨hcells, hvalue⟩ := List.of_mem_zip hpair
  have hrow := List.forall₂_zip hworded hpair
  refine bound_of_worded hp hrow fun ts hts t ht => ?_
  have hcolumns : (insertRows into (some table)).columns ≠ [] := by
    rw [hwords]
    refine mt List.map_eq_nil_iff.mp (headings_ne_nil hcells ?_)
    rintro rfl
    rw [List.forall₂_nil_left_iff.mp hrow] at hts
    cases hts
  refine mem_insertTokens_of_row hcolumns ?_ (mem_rowTokens hts ht)
  rw [hwords]
  exact List.mem_map_of_mem hvalue

/-- What a statement writes is bound. -/
theorem bindsWrites {s : Statement} (h : Becomes q s)
    (hp : Page.tokens d .bound {} (s.tokens d) = .ok p) : BindsWrites q p s := by
  rcases h with ⟨kind, h⟩ | h
  · cases s with
    | update into as filter =>
        obtain ⟨entries, -, -, hreads⟩ := reads_of_writes h rfl
        cases hreads with
        | emptyUpdate _ hnone => exact hnone
        | update _ _ has => exact bindsSet has hp
    | insert into rows =>
        obtain ⟨entries, -, -, hreads⟩ := reads_of_writes h rfl
        cases hreads with
        | emptyInsert hnone => exact hnone
        | insert _ hrows htable => exact bindsRows hrows htable hp
    | _ => trivial
  · obtain ⟨f, -, h⟩ := bind_eq_ok h
    obtain ⟨tables, -, h⟩ := bind_eq_ok h
    obtain ⟨filter, -, h⟩ := bind_eq_ok h
    cases h
    trivial

end Writes

/-! ## Values and texts -/

/-- Where values are bound, so is every scalar that a statement of the query compares with, in the
test in its place, and every one that it writes, at the place of its column. -/
structure BindsScalars (q : Query) : Prop where
  compared : ∀ s, Becomes q s → ∀ d p, Page.tokens d .bound {} (s.tokens d) = .ok p →
    (s.isFiltered = true → BindsCompared "WHERE " q.filter s.filter p (s.tokens d)) ∧
      (s.isGrouped = true → BindsCompared "HAVING " q.having s.having p (s.tokens d))
  written : ∀ s, Becomes q s → ∀ d p, Page.tokens d .bound {} (s.tokens d) = .ok p →
    BindsWrites q p s

/-- Scalars are bound, whatever the query. -/
theorem bindsScalars (q : Query) : BindsScalars q where
  compared := fun _ h _ _ hp => compared_bound h hp
  written := fun _ h _ _ hp => bindsWrites h hp

/-- Two queries with values bound have the same text with the same places and parameters of the same
names, whose values are equal or related, also place by place; or both fail for the same reason. -/
def RenderedAlike (R : Value → Value → Prop) (d : Dialect) (s s' : Except Error Statement) : Prop :=
  Related (fun r r' => r.Matched R r' ∧
    Related (List.Forall₂ (Value.Matched R)) r.placed r'.placed)
    (s >>= Statement.render d .bound) (s' >>= Statement.render d .bound)

/-- Matched statements are rendered alike. -/
theorem renderedAlike (d : Dialect) {s s' : Except Error Statement}
    (h : Related (Statement.Matched R) s s') : RenderedAlike R d s s' :=
  (h.bind fun _ _ hs => render_matched d (statementTokens_matched d hs)).imp fun _ _ hr =>
    ⟨hr, hr.placed⟩

/-- Users of a name and of an age between two bounds; the name, first written as another, and the
lower age are assigned to them, and both ages are inserted with the name. -/
def usersNamed (name : String) (low high : Int) : Query :=
  { tables := [(.text "users", .null)]
    filter := [.test .and (.text "users.name") (.text "=") (.text name),
      .test .and (.text "users.age") (.text "between") (.list [.int low, .int high])]
    having := []
    assignments := [(.text "name", .text "nobody"), (.text "age", .int low),
      (.text "users.name", .text name)]
    columns := [.text "age", .text "name"]
    rows := [[.int low, .text name], [.int high, .text name]] }

/-- The users with the columns that are mentioned of them. -/
def usersTable : Changed := ⟨{ name := .text "users", aliasOf := none }, ["name", "age"]⟩

/-- What is known where users are changed. -/
def usersFrame : Frame :=
  { catalog := ⟨[(.text "users", ⟨usersTable.source, usersTable.columns⟩)]⟩
    tables := [⟨.text "users", none⟩]
    joined := [] }

/-- A column of the users. -/
def usersColumn (name : String) : Expr := .column (some usersTable.source) name

/-- The condition on these users. -/
def isUserNamed (name : String) (low high : Int) : Filter :=
  .and (.test (.compare .eq (usersColumn "name") (.literal (.text name))))
    (.test (.between (usersColumn "age") (.literal (.int low)) (.literal (.int high))))

/-- These users as a SELECT. -/
def selectUsersNamed (name : String) (low high : Int) : Statement :=
  .select
    { items := [⟨.verbatim "*", none⟩]
      tables := some ⟨usersTable.source, [], []⟩
      filter := some (isUserNamed name low high) }

/-- These users as an UPDATE. -/
def updateUsersNamed (name : String) (low high : Int) : Statement :=
  .update usersTable
    (some [⟨.column "name", .literal (.text name)⟩, ⟨.column "age", .literal (.int low)⟩])
    (some (isUserNamed name low high))

/-- Such users as an INSERT. -/
def insertUsersNamed (name : String) (low high : Int) : Statement :=
  .insert usersTable
    (some [[⟨.column "age", .literal (.int low)⟩, ⟨.column "name", .literal (.text name)⟩],
      [⟨.column "age", .literal (.int high)⟩, ⟨.column "name", .literal (.text name)⟩]])

/-- A name that would be a condition of its own, were it text. -/
def otherScalar (v v' : Value) : Prop :=
  v = .text "ann" ∧ v' = .text "' OR '1' = '1" ∨ v = .int 18 ∧ v' = .int 21

/-- Equality asks for one value. -/
theorem equals_asks_one : ¬ asksSeveral (.text "=") := by
  rintro ⟨word, hmem, hword⟩
  cases hword
  revert hmem
  decide

theorem between_asks_several : asksSeveral (.text "between") := ⟨"BETWEEN", by decide, rfl⟩

/-- The two queries differ in the name and in the lower age alone. -/
theorem usersNamed_matched :
    Query.Matched otherScalar (usersNamed "ann" 18 30) (usersNamed "' OR '1' = '1" 21 30) := by
  have hname : otherScalar (.text "ann") (.text "' OR '1' = '1") := .inl ⟨rfl, rfl⟩
  have hlow : otherScalar (.int 18) (.int 21) := .inr ⟨rfl, rfl⟩
  refine .intro _ (.cons (.test _ _ _ (.single equals_asks_one hname))
    (.cons (.test _ _ _ (.list between_asks_several ?_)) .nil)) .nil ?_ ?_
  · exact .cons (.inr hlow) (.cons (.inl rfl) .nil)
  · exact .cons (.cons (.inr hlow) (.cons (.inr hname) .nil))
      (.cons (.cons (.inl rfl) (.cons (.inr hname) .nil)) .nil)
  · exact .cons ⟨rfl, .inl rfl⟩ (.cons ⟨rfl, .inr hlow⟩ (.cons ⟨rfl, .inr hname⟩ .nil))

end ModelQuery.Sql
