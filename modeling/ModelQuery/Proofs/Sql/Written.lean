import ModelQuery.Proofs.Outcome
import ModelQuery.Sql.Rendering

/-!
# Writing on a page

Tokens are written one after the other.  All of them are made of a few actions on a page, so what
these have in common every token has (`token_acts`); where values are written out, a token for which
no name is generated does without those that generate one.

What holds between a page and what each single step of writing makes of it holds between the first
page and the last (`tokens_steps`).  So writing only adds to the text (`tokens_grows`), and a value
that was bound stays bound (`tokens_bound`).
-/

namespace ModelQuery

open Sql

/-! ## Tokens without generated names -/

mutual

/-- No name is generated for the token where values are written out. -/
def Token.numberless (d : Dialect) : Token → Bool
  | .word _ | .verbatim _ | .name _ | .null | .truth _ | .bind _ _ | .always | .emptySet _ _
  | .fault _ => true
  | .call function args =>
    (Function.fixedText? d function).isSome ||
      !Function.bindsArguments d function && Token.numberlessAll d args
  | .part _ time => Token.numberlessAll d time
  | .bound _ | .openLabel _ _ | .closeLabel => false
  | .late ts => Token.numberlessAll d ts
  -- one dialect binds the number that stands for no limit
  | .limits limit offset =>
    !(d == .sqlite && limit.isEmpty && !offset.isEmpty) && Token.numberlessAll d limit &&
      Token.numberlessAll d offset

/-- No name is generated for any of the tokens. -/
def Token.numberlessAll (d : Dialect) : List Token → Bool
  | [] => true
  | t :: rest => t.numberless d && Token.numberlessAll d rest

end

end ModelQuery

namespace ModelQuery.Sql.Page

open Outcome

/-! ## Actions on a page -/

/-- What becomes of a page. -/
abbrev Act := Page → Except Error Page

/-- A property of actions that writing has, and that actions made of others have as these do. -/
structure Acts (P : Act → Prop) : Prop where
  write : ∀ s : String, P fun p => .ok (p.write s)
  fail : ∀ e : Error, P fun _ => .error e
  andThen : ∀ {f g : Act}, P f → P g → P fun p => f p >>= g
  /-- A part is written on a page of its own, and what is made of it is put on the page. -/
  apart : ∀ {f : Act} (make : String → Except Error String), P f →
    P fun p => f { p with text := "" } >>= fun q =>
      make q.text >>= fun s => .ok { q with text := p.text ++ s }

/-- Such a property that generating names has, too. -/
structure ActsNumbered (d : Dialect) (P : Act → Prop) : Prop extends Acts P where
  bindAs : ∀ (late : Bool) (name : BindName) (v : Value), P fun p => p.bindAs d late name v
  openLabel : ∀ (stem : String) (shared : Option String),
    P fun p => .ok { (p.label d stem shared).2 with
      labels := (p.label d stem shared).1 :: (p.label d stem shared).2.labels }
  closeLabel : P fun p =>
    match p.labels with
    | label :: rest => .ok { p.write (d.name label) with labels := rest }
    | [] => .ok p

section Acts

variable {P : Act → Prop} {d : Dialect} {mode : Values}

theorem Acts.done (hP : Acts P) : P .ok := by
  have hempty : (fun p => .ok (p.write "") : Act) = .ok := by
    funext p
    rw [Page.write, String.append_empty]
  exact hempty ▸ hP.write ""

/-- A value: where it is written out nothing is generated. -/
theorem value_acts (hP : Acts P) (h : ActsNumbered d P ∨ mode = .written) (name : BindName)
    (v : Value) : P fun p => p.value d mode name v := by
  cases mode with
  | written =>
      show P fun p => (writtenValue d v).map p.write
      cases writtenValue d v with
      | error e => exact hP.fail e
      | ok s => exact hP.write s
  | bound => exact (h.resolve_right nofun).bindAs false name v
  | late => exact (h.resolve_right nofun).bindAs true name v

/-- Writing an empty set has each property that its parts have. -/
theorem emptySet_acts (hP : Acts P) (h : ActsNumbered d P ∨ mode = .written) (negated : Bool)
    (stem : String) : P fun p => p.emptySet d mode negated stem := by
  have hbound (hnum : ActsNumbered d P) :
      P fun p => (p.write "(").bindAs d true (.numbered stem) (.list []) >>= fun q =>
        .ok (q.write ")") :=
    hP.andThen (hP.andThen (hP.write "(") (hnum.bindAs true (.numbered stem) (.list [])))
      (hP.write ")")
  cases mode with
  | written => exact hP.write _
  | bound => exact hbound (h.resolve_right nofun)
  | late => exact hbound (h.resolve_right nofun)

/-- Writing limits has each property that writing their values has. -/
theorem limits_acts (hP : Acts P) {limit offset : List Token}
    (h : ActsNumbered d P ∨
      mode = .written ∧ (d == .sqlite && limit.isEmpty && !offset.isEmpty) = false)
    (hlimit : P fun p => p.tokens d mode limit) (hoffset : P fun p => p.tokens d mode offset) :
    P fun p => p.token d mode (.limits limit offset) := by
  by_cases hempty : limit = [] ∧ offset = []
  · obtain ⟨rfl, rfl⟩ := hempty
    have hdone : (fun p => p.token d mode (.limits [] []) : Act) = .ok := by
      funext p
      rw [Page.token]
    exact hdone ▸ hP.done
  have hvalue (mode' : Values) (n : Int) (h' : ActsNumbered d P ∨ mode' = .written) :
      P fun p => p.standIn d mode' n :=
    value_acts hP h' _ _
  have hstandIn : P fun p =>
      if limit.isEmpty && d == .sqlite then p.standIn d .bound (-1) else pure p := by
    by_cases hbound : (limit.isEmpty && d == .sqlite) = true
    · simp only [if_pos hbound]
      refine hvalue .bound (-1) (.inl (h.resolve_right fun hwritten => hempty ?_))
      rw [Bool.and_eq_true] at hbound
      rw [hbound.1, hbound.2, Bool.and_true, Bool.true_and, Bool.not_eq_false'] at hwritten
      exact ⟨List.isEmpty_iff.mp hbound.1, List.isEmpty_iff.mp hwritten.2⟩
    · simp only [if_neg hbound]
      exact hP.done
  have hrest : P fun p =>
      if offset.isEmpty then
        if d == .sqlite then (p.write " OFFSET ").standIn d mode 0 else pure p
      else (p.write " OFFSET ").tokens d mode offset := by
    split
    · split
      · exact hP.andThen (hP.write " OFFSET ") (hvalue mode 0 (h.imp_right And.left))
      · exact hP.done
    · exact hP.andThen (hP.write " OFFSET ") hoffset
  have htoken : (fun p => p.token d mode (.limits limit offset) : Act) =
      fun p => (p.write (d.limitWord limit.isEmpty)).tokens d mode limit >>= fun q =>
        (if limit.isEmpty && d == .sqlite then q.standIn d .bound (-1) else pure q) >>= fun r =>
          if offset.isEmpty then
            if d == .sqlite then (r.write " OFFSET ").standIn d mode 0 else pure r
          else (r.write " OFFSET ").tokens d mode offset := by
    funext p
    rw [Page.token]
    rotate_left
    · exact fun hl ho => hempty ⟨hl, ho⟩
    congr 1
    funext q
    dsimp only
    split
    · rfl
    · rfl
  rw [htoken]
  exact hP.andThen (hP.andThen (hP.write (d.limitWord limit.isEmpty)) hlimit)
    (hP.andThen hstandIn hrest)

mutual

/-- **WRITING A TOKEN** has each property that its parts have, by induction on the token. -/
theorem token_acts (hP : Acts P) (t : Token) {mode : Values}
    (h : ActsNumbered d P ∨ mode = .written ∧ t.numberless d = true) :
    P fun p => p.token d mode t := by
  have hwritten : ActsNumbered d P ∨ mode = .written := h.imp_right And.left
  cases t with
  | word text => exact hP.write text
  | verbatim text => exact hP.write _
  | name text => exact hP.write _
  | call function args =>
      cases htext : Function.fixedText? d function with
      | some text =>
          have htoken : (fun p => p.token d mode (.call function args) : Act) =
              fun p => .ok (p.write text) := by
            funext p
            rw [Page.token, htext]
          exact htoken ▸ hP.write text
      | none =>
          let inside := if Function.bindsArguments d function then Values.bound else mode
          have hinside : ActsNumbered d P ∨
              inside = .written ∧ Token.numberlessAll d args = true := by
            refine h.imp_right fun ⟨hmode, hnumberless⟩ => ?_
            rw [Token.numberless, htext, Option.isSome_none, Bool.false_or, Bool.and_eq_true,
              Bool.not_eq_true'] at hnumberless
            exact ⟨(if_neg (ne_true_of_eq_false hnumberless.1)).trans hmode, hnumberless.2⟩
          have htoken : (fun p => p.token d mode (.call function args) : Act) = fun p =>
              Page.tokens d inside { p with text := "" } args >>= fun q =>
                Function.called d function (!args.isEmpty) ("(" ++ q.text ++ ")") >>= fun s =>
                  .ok { q with text := p.text ++ s } := by
            funext p
            rw [Page.token, htext]
            rfl
          rw [htoken]
          exact hP.apart
            (fun inner => Function.called d function (!args.isEmpty) ("(" ++ inner ++ ")"))
            (tokens_acts hP args hinside)
  | part field time =>
      cases hwords : Function.partWords? d field with
      | none =>
          have htoken : (fun p => p.token d mode (.part field time) : Act) =
              fun _ => .error .unrenderable := by
            funext p
            rw [Page.token, hwords]
          exact htoken ▸ hP.fail _
      | some words =>
          obtain ⟨before, behind⟩ := words
          have htime := tokens_acts hP time (h.imp_right fun h => h)
          have htoken : (fun p => p.token d mode (.part field time) : Act) = fun p =>
              (p.write before).tokens d mode time >>= fun q => .ok (q.write behind) := by
            funext p
            rw [Page.token, hwords]
            rfl
          rw [htoken]
          exact hP.andThen (hP.andThen (hP.write before) htime) (hP.write behind)
  | null => exact hP.write _
  | truth b => exact hP.write _
  | bind name v => exact value_acts hP hwritten name v
  | bound ts => exact tokens_acts hP ts (.inl (h.resolve_right fun h => nomatch h.2))
  | late ts =>
      exact tokens_acts hP ts (h.imp_right fun h => ⟨if_pos h.1, h.2⟩)
  | always => exact hP.write _
  | emptySet negated stem => exact emptySet_acts hP hwritten negated stem
  | limits limit offset =>
      refine limits_acts hP (h.imp_right fun ⟨hmode, hnumberless⟩ => ⟨hmode, ?_⟩)
        (tokens_acts hP limit (h.imp_right fun ⟨hmode, hnumberless⟩ => ⟨hmode, ?_⟩))
        (tokens_acts hP offset (h.imp_right fun ⟨hmode, hnumberless⟩ => ⟨hmode, ?_⟩))
      all_goals
        rw [Token.numberless, Bool.and_eq_true, Bool.and_eq_true, Bool.not_eq_true'] at hnumberless
      · exact hnumberless.1.1
      · exact hnumberless.1.2
      · exact hnumberless.2
  | openLabel stem shared =>
      exact (h.resolve_right fun h => nomatch h.2).openLabel stem shared
  | closeLabel =>
      exact (h.resolve_right fun h => nomatch h.2).closeLabel
  | fault cause => exact hP.fail cause

/-- Writing tokens one after the other has each property that their parts have. -/
theorem tokens_acts (hP : Acts P) (ts : List Token) {mode : Values}
    (h : ActsNumbered d P ∨ mode = .written ∧ Token.numberlessAll d ts = true) :
    P fun p => p.tokens d mode ts := by
  cases ts with
  | nil => exact hP.done
  | cons t rest =>
      have hboth (h : Token.numberlessAll d (t :: rest) = true) :
          t.numberless d = true ∧ Token.numberlessAll d rest = true := by
        rw [Token.numberlessAll, Bool.and_eq_true] at h
        exact h
      exact hP.andThen (token_acts hP t (h.imp_right fun h => ⟨h.1, (hboth h.2).1⟩))
        (tokens_acts hP rest (h.imp_right fun h => ⟨h.1, (hboth h.2).2⟩))

end

end Acts

/-! ## Numbers and labels -/

/-- To cut a name to its length changes neither the text nor the parameters. -/
theorem fit_aside (d : Dialect) (sort : NumberedSort) (name : String) (p : Page) :
    (p.fit d sort name).2.text = p.text ∧ (p.fit d sort name).2.params = p.params := by
  unfold Page.fit
  split
  · exact ⟨rfl, rfl⟩
  · exact ⟨rfl, rfl⟩

theorem number_aside (d : Dialect) (sort : NumberedSort) (stem : String) (p : Page) :
    (p.number d sort stem).2.text = p.text ∧ (p.number d sort stem).2.params = p.params :=
  fit_aside d sort _ _

theorem label_aside (d : Dialect) (stem : String) (shared : Option String) (p : Page) :
    (p.label d stem shared).2.text = p.text ∧ (p.label d stem shared).2.params = p.params := by
  unfold Page.label
  split
  · exact number_aside d .label stem p
  · split
    · exact ⟨rfl, rfl⟩
    · exact number_aside d .label stem p

/-! ## Steps -/

/-- A relation between pages that every step of writing is in. -/
structure Steps (G : Page → Page → Prop) : Prop where
  trans : ∀ {p q r : Page}, G p q → G q r → G p r
  /-- Numbers are counted and labels set aside. -/
  aside : ∀ {p q : Page}, q.text = p.text → q.params = p.params → G p q
  write : ∀ (s : String) (p : Page), G p (p.write s)
  bound : ∀ (e : String × Value) (p : Page), G p { p with params := p.params ++ [e] }
  /-- A call is written when its arguments were, on a page of their own. -/
  call : ∀ {p q : Page} (s : String), G { p with text := "" } q → G p { q with text := p.text ++ s }

/-- The action takes a page to one it is related to, if to any. -/
def Leads (G : Page → Page → Prop) (f : Act) : Prop := ∀ p p', f p = .ok p' → G p p'

section Steps

variable {G : Page → Page → Prop} (hG : Steps G) {d : Dialect} {mode : Values} {p p' : Page}
include hG

/-- Binding a value leads to a related page. -/
theorem bind_steps (late : Bool) (name : String) (v : Value) :
    Leads G fun p => p.bind d late name v := by
  intro p p' h
  dsimp only at h
  unfold Page.bind at h
  split at h
  · cases h
  · cases h
    exact hG.trans (hG.write _ p) (hG.bound (name, v) _)

/-- Leading to a related page is a property of writing, if each step does. -/
theorem acts_steps : ActsNumbered d (Leads G) where
  write := by
    intro s p p' h
    cases h
    exact hG.write s p
  fail := nofun
  andThen := by
    intro f g hf hg p p' h
    obtain ⟨q, hq, h⟩ := bind_eq_ok h
    exact hG.trans (hf p q hq) (hg q p' h)
  apart := by
    intro f make hf p p' h
    obtain ⟨q, hq, h⟩ := bind_eq_ok h
    obtain ⟨s, -, h⟩ := bind_eq_ok h
    cases h
    exact hG.call s (hf _ q hq)
  bindAs := by
    intro late name v p p' h
    cases name with
    | exact n => exact bind_steps hG late n v p p' h
    | numbered stem =>
        obtain ⟨htext, hparams⟩ := number_aside d .value stem p
        exact hG.trans (hG.aside htext hparams) (bind_steps hG late _ v _ p' h)
  openLabel := by
    intro stem shared p p' h
    obtain ⟨htext, hparams⟩ := label_aside d stem shared p
    cases h
    exact hG.aside htext hparams
  closeLabel := by
    intro p p' h
    dsimp only at h
    split at h
    · cases h
      exact hG.trans (hG.write _ p) (hG.aside rfl rfl)
    · cases h
      exact hG.aside rfl rfl

/-- Tokens lead from a page to one that it is related to. -/
theorem tokens_steps (ts : List Token) (h : p.tokens d mode ts = .ok p') : G p p' :=
  tokens_acts (acts_steps (d := d) hG).toActs ts (.inl (acts_steps hG)) p p' h

end Steps

/-! ## The text and the values -/

/-- The second page is the first with something written behind it. -/
def Grows (p p' : Page) : Prop := ∃ s, p'.text = p.text ++ s

/-- Every step adds to the text. -/
theorem steps_grows : Steps Grows where
  trans := by
    rintro p q r ⟨s, hs⟩ ⟨t, ht⟩
    exact ⟨s ++ t, by rw [ht, hs, String.append_assoc]⟩
  aside := fun htext _ => ⟨"", htext.trans String.append_empty.symm⟩
  write := fun s _ => ⟨s, rfl⟩
  bound := fun _ _ => ⟨"", String.append_empty.symm⟩
  call := fun s _ => ⟨s, rfl⟩

/-- Every step adds to the parameters. -/
theorem steps_params : Steps fun p p' => p.params <+: p'.params where
  trans := List.IsPrefix.trans
  aside := fun _ hparams => hparams ▸ List.prefix_rfl
  write := fun _ _ => List.prefix_rfl
  bound := fun e _ => List.prefix_append _ [e]
  call := fun _ h => h

variable {d : Dialect} {mode : Values} {p p' : Page}

/-- Tokens that are written leave what was written. -/
theorem tokens_grows (ts : List Token) (h : p.tokens d mode ts = .ok p') : p.Grows p' :=
  tokens_steps steps_grows ts h

/-- Writing in two parts. -/
theorem tokens_append (ts us : List Token) (h : p.tokens d mode (ts ++ us) = .ok p') :
    ∃ q, p.tokens d mode ts = .ok q ∧ q.tokens d mode us = .ok p' := by
  induction ts generalizing p with
  | nil => exact ⟨p, rfl, h⟩
  | cons t rest ih =>
      rw [List.cons_append, Page.tokens] at h
      obtain ⟨q, hq, h⟩ := bind_eq_ok h
      obtain ⟨r, hr, h⟩ := ih h
      refine ⟨r, ?_, h⟩
      rw [Page.tokens, hq]
      exact hr

/-- A value that is bound is there when all is written, under its own name if it has one. -/
theorem tokens_bound {ts : List Token} (h : p.tokens d .bound ts = .ok p') {name : BindName}
    {v : Value} (hmem : .bind name v ∈ ts) :
    ∃ key, (key, v) ∈ p'.params ∧ ∀ own, name = .exact own → key = own := by
  obtain ⟨before, behind, rfl⟩ := List.append_of_mem hmem
  obtain ⟨q, -, h⟩ := tokens_append before _ h
  rw [Page.tokens] at h
  obtain ⟨r, hr, h⟩ := bind_eq_ok h
  have hkept : r.params <+: p'.params := tokens_steps steps_params behind h
  have hbound {q r : Page} {key : String} (hr : q.bind d false key v = .ok r) :
      (key, v) ∈ r.params := by
    unfold Page.bind at hr
    split at hr
    · cases hr
    · cases hr
      exact List.mem_append_right _ List.mem_cons_self
  cases name with
  | exact own =>
      refine ⟨own, hkept.subset (hbound hr), ?_⟩
      rintro _ ⟨⟩
      rfl
  | numbered stem => exact ⟨_, hkept.subset (hbound hr), fun _ heq => nomatch heq⟩

end ModelQuery.Sql.Page
