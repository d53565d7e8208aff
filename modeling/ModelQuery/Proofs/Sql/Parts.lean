import ModelQuery.Proofs.Sql.Written

/-!
# Parts of a text

What a token becomes depends on the page: on the names that were generated so far, but not on the
text.  Text put before that of a page stays there (`tokens_before`).  Where values are written out,
tokens that generate no name depend on nothing and leave no trace but their text
(`tokens_of_numberless`).  So the same tokens come to the same text on two pages if no names were
generated before them, or none are generated for them (`WrittenAlike`).
-/

namespace ModelQuery.Sql.Page

open Outcome

variable {d : Dialect}

/-! ## Text that is added -/

/-- Something is added to the text, or refused, whatever the page. -/
def Adds (f : Act) : Prop := ∃ r : Except Error String, ∀ p, f p = r.map p.write

theorem write_write (p : Page) (s t : String) : (p.write s).write t = p.write (s ++ t) := by
  rw [write, write, write, String.append_assoc]

/-- Adding to the text is a property of writing. -/
theorem acts_adds : Acts Adds where
  write := fun s => ⟨.ok s, fun p => rfl⟩
  fail := fun e => ⟨.error e, fun p => rfl⟩
  andThen := by
    rintro f g ⟨r, hr⟩ ⟨r', hr'⟩
    refine ⟨r >>= fun s => r'.map (s ++ ·), fun p => ?_⟩
    dsimp only
    rw [hr]
    cases r with
    | error e => rfl
    | ok s =>
        show g (p.write s) = _
        rw [hr']
        cases r' with
        | error e => rfl
        | ok t => exact congrArg Except.ok (write_write p s t)
  apart := by
    rintro f make ⟨r, hr⟩
    refine ⟨r >>= make, fun p => ?_⟩
    dsimp only
    rw [hr]
    cases r with
    | error e => rfl
    | ok s =>
        show (make ("" ++ s) >>= fun t => .ok (p.write t)) = (make s).map p.write
        rw [String.empty_append]
        cases make s with
        | error e => rfl
        | ok t => rfl

/-- Tokens without generated names are written alike on every page. -/
theorem tokens_of_numberless {ts : List Token} (h : Token.numberlessAll d ts = true) :
    ∃ r : Except Error String, ∀ p : Page, p.tokens d .written ts = r.map p.write :=
  tokens_acts acts_adds ts (.inr ⟨rfl, h⟩)

/-! ## Text that is there already -/

/-- The page with a text put before its own. -/
def before (t : String) (p : Page) : Page := { p with text := t ++ p.text }

/-- What stands before the text stays there. -/
def Behind (f : Act) : Prop := ∀ (t : String) (p : Page), f (p.before t) = (f p).map (before t)

theorem write_before (s t : String) (p : Page) : (p.before t).write s = (p.write s).before t := by
  rw [write, write, before, before, String.append_assoc]

/-- A name is cut to its length whatever stands before. -/
theorem fit_before (sort : NumberedSort) (name t : String) (p : Page) :
    (p.before t).fit d sort name = ((p.fit d sort name).1, (p.fit d sort name).2.before t) := by
  rw [fit, fit]
  split
  · rfl
  · rfl

theorem number_before (sort : NumberedSort) (stem t : String) (p : Page) :
    (p.before t).number d sort stem =
      ((p.number d sort stem).1, (p.number d sort stem).2.before t) :=
  fit_before sort _ t
    { p with counters := Assoc.put stem ((p.counters.lookup stem).getD 0 + 1) p.counters }

theorem label_before (stem : String) (shared : Option String) (t : String) (p : Page) :
    (p.before t).label d stem shared =
      ((p.label d stem shared).1, (p.label d stem shared).2.before t) := by
  cases shared with
  | none => exact number_before .label stem t p
  | some key =>
      have hshared : (p.before t).shared = p.shared := rfl
      rw [label.eq_def, label.eq_def]
      dsimp only
      rw [hshared]
      cases hkey : p.shared.lookup key with
      | some label => rfl
      | none =>
          dsimp only
          rw [number_before]
          rfl

/-- A value is bound alike whatever stands before. -/
theorem bind_before (late : Bool) (name : String) (v : Value) :
    Behind fun p => p.bind d late name v := by
  intro t p
  show (p.before t).bind d late name v = (p.bind d late name v).map (before t)
  rw [bind, bind]
  show (if (p.params.lookup name).isSome then _ else _) = _
  split
  · rfl
  · dsimp only
    rw [write_before]
    rfl

/-- Leaving what stands before is a property of writing, and of generating names. -/
theorem acts_before : ActsNumbered d Behind where
  write := fun s t p => congrArg Except.ok (write_before s t p)
  fail := fun e t p => rfl
  andThen := by
    intro f g hf hg t p
    dsimp only
    rw [hf]
    cases f p with
    | error e => rfl
    | ok q => exact hg t q
  apart := by
    intro f make hf t p
    show (f { p with text := "" } >>= _) = (f { p with text := "" } >>= _).map _
    cases f { p with text := "" } with
    | error e => rfl
    | ok q =>
        show (make q.text >>= _) = (make q.text >>= _).map _
        cases make q.text with
        | error e => rfl
        | ok s =>
            have htext : t ++ p.text ++ s = t ++ (p.text ++ s) := String.append_assoc
            exact congrArg (fun text => Except.ok { q with text }) htext
  bindAs := by
    intro late name v t p
    cases name with
    | exact n => exact bind_before late n v t p
    | numbered stem =>
        show ((p.before t).number d .value stem).2.bind d late
          ((p.before t).number d .value stem).1 v = _
        rw [number_before]
        exact bind_before late _ v t _
  openLabel := by
    intro stem shared t p
    dsimp only
    rw [label_before]
    rfl
  closeLabel := by
    rintro t ⟨text, counters, cut, labels, shared, params⟩
    cases labels with
    | nil => rfl
    | cons label rest =>
        exact congrArg (fun q => Except.ok { q with labels := rest })
          (write_before (d.name label) t ⟨text, counters, cut, label :: rest, shared, params⟩)

/-- Text put before a page stays there. -/
theorem tokens_before (mode : Values) (ts : List Token) (t : String) (p : Page) :
    (p.before t).tokens d mode ts = (p.tokens d mode ts).map (before t) :=
  tokens_acts (acts_before (d := d)).toActs ts (.inl acts_before) t p

/-! ## Two pages -/

/-- Tokens are refused on both pages, for the same reason, or the same text comes of them. -/
def WrittenAlike (d : Dialect) (p p' : Page) (ts : List Token) : Prop :=
  ∃ r : Except Error String,
    (p.tokens d .written ts).map (·.text) = r.map (p.text ++ ·) ∧
      (p'.tokens d .written ts).map (·.text) = r.map (p'.text ++ ·)

/-- Tokens without generated names are written alike on any pages. -/
theorem writtenAlike_of_numberless {ts : List Token} (h : Token.numberlessAll d ts = true)
    (p p' : Page) : WrittenAlike d p p' ts := by
  obtain ⟨r, hr⟩ := tokens_of_numberless h
  have hon (q : Page) : (q.tokens d .written ts).map (·.text) = r.map (q.text ++ ·) := by
    rw [hr]
    cases r <;> rfl
  exact ⟨r, hon p, hon p'⟩

/-- Any tokens are written alike on new pages, whatever stands before. -/
theorem writtenAlike_before (t t' : String) (ts : List Token) :
    WrittenAlike d (({} : Page).before t) (({} : Page).before t') ts := by
  refine ⟨(Page.tokens d .written {} ts).map (·.text), ?_⟩
  have hon (t : String) : ((({} : Page).before t).tokens d .written ts).map (·.text) =
      ((Page.tokens d .written {} ts).map (·.text)).map ((({} : Page).before t).text ++ ·) := by
    rw [tokens_before]
    cases Page.tokens d .written {} ts with
    | error e => rfl
    | ok p =>
        show Except.ok (t ++ p.text) = .ok (t ++ "" ++ p.text)
        rw [String.append_empty]
  exact ⟨hon t, hon t'⟩

/-- A beginning without generated names is text before an empty page. -/
theorem before_of_numberless {ts : List Token} (h : Token.numberlessAll d ts = true) {p : Page}
    (hp : Page.tokens d .written {} ts = .ok p) : ∃ t, p = ({} : Page).before t := by
  obtain ⟨r, hr⟩ := tokens_of_numberless h
  rw [hr] at hp
  obtain ⟨t, -, rfl⟩ := map_eq_ok hp
  refine ⟨t, ?_⟩
  rw [write, before, String.empty_append, String.append_empty]

end ModelQuery.Sql.Page
