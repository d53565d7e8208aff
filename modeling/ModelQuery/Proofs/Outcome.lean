import Mathlib.Data.List.Forall2
import ModelQuery.Assoc

/-!
# Computations that can fail

What is known of the steps of a computation in `Except` that came to its end, and of two
computations whose steps go alike.
-/

namespace ModelQuery.Outcome

variable {ε α β γ δ : Type}

/-- The two steps of a computation that came to its end. -/
theorem bind_eq_ok {x : Except ε α} {f : α → Except ε β} {b : β} (h : x >>= f = .ok b) :
    ∃ a, x = .ok a ∧ f a = .ok b := by
  cases x with
  | error e => cases h
  | ok a => exact ⟨a, rfl, h⟩

/-- A mapped outcome that succeeds comes of one that succeeds. -/
theorem map_eq_ok {x : Except ε α} {f : α → β} {b : β} (h : x.map f = .ok b) :
    ∃ a, x = .ok a ∧ f a = b := by
  cases x with
  | error e => cases h
  | ok a => exact ⟨a, rfl, Except.ok.inj h⟩

/-- What keeps two results from being had keeps anything from being made of them. -/
theorem bind_error_of_pair {x : Except ε α} {y : Except ε β} {e : ε}
    (h : (x >>= fun a => y >>= fun b => pure (a, b)) = .error e) (k : α → β → Except ε γ) :
    (x >>= fun a => y >>= fun b => k a b) = .error e := by
  cases x with
  | error e' =>
      cases h
      rfl
  | ok a =>
      cases y with
      | error e' =>
          cases h
          rfl
      | ok b => cases h

theorem mapM_append {f : α → Except ε β} {xs ys : List α} {ts us : List β}
    (hxs : xs.mapM f = .ok ts) (hys : ys.mapM f = .ok us) :
    (xs ++ ys).mapM f = .ok (ts ++ us) := by
  rw [List.mapM_append, hxs, hys]
  rfl

theorem of_mapM_append {f : α → Except ε β} {xs ys : List α} {ts : List β}
    (h : (xs ++ ys).mapM f = .ok ts) :
    (∃ us, xs.mapM f = .ok us) ∧ ∃ us, ys.mapM f = .ok us := by
  rw [List.mapM_append] at h
  obtain ⟨us, hus, h⟩ := bind_eq_ok h
  obtain ⟨ws, hws, -⟩ := bind_eq_ok h
  exact ⟨⟨us, hus⟩, ws, hws⟩

/-- Other items are gone through alike if each comes to the same. -/
theorem mapM_map_of_eq {f : β → Except ε γ} {f' : α → Except ε γ} {g : α → β} {xs : List α}
    (h : ∀ x ∈ xs, f (g x) = f' x) : (xs.map g).mapM f = xs.mapM f' := by
  induction xs with
  | nil => rfl
  | cons x rest ih =>
      rw [List.map_cons, List.mapM_cons, List.mapM_cons, h x List.mem_cons_self,
        ih fun y hy => h y (List.mem_cons_of_mem _ hy)]

/-- Items are gone through alike if each comes to the same. -/
theorem mapM_congr {f f' : α → Except ε β} {xs : List α} (h : ∀ x ∈ xs, f x = f' x) :
    xs.mapM f = xs.mapM f' := by
  have hmap := mapM_map_of_eq (g := id) h
  rw [List.map_id] at hmap
  exact hmap

theorem length_of_mapM {f : α → Except ε β} {xs : List α} {ts : List β}
    (h : xs.mapM f = .ok ts) : ts.length = xs.length := by
  induction xs generalizing ts with
  | nil =>
      cases h
      rfl
  | cons x rest ih =>
      rw [List.mapM_cons] at h
      obtain ⟨t, -, h⟩ := bind_eq_ok h
      obtain ⟨us, hus, h⟩ := bind_eq_ok h
      cases h
      rw [List.length_cons, List.length_cons, ih hus]

theorem mem_of_mapM {f : α → Except ε β} {xs : List α} {ts : List β} (h : xs.mapM f = .ok ts)
    {x : α} (hx : x ∈ xs) : ∃ t ∈ ts, f x = .ok t := by
  induction xs generalizing ts with
  | nil => cases hx
  | cons y rest ih =>
      rw [List.mapM_cons] at h
      obtain ⟨t, ht, h⟩ := bind_eq_ok h
      obtain ⟨us, hus, h⟩ := bind_eq_ok h
      cases h
      rcases List.mem_cons.mp hx with rfl | hx
      · exact ⟨t, List.mem_cons_self, ht⟩
      · obtain ⟨u, hu, hxu⟩ := ih hus hx
        exact ⟨u, List.mem_cons_of_mem t hu, hxu⟩

theorem exists_of_mapM {f : α → Except ε β} {xs : List α} {ts : List β} (h : xs.mapM f = .ok ts)
    {t : β} (ht : t ∈ ts) : ∃ x ∈ xs, f x = .ok t := by
  induction xs generalizing ts with
  | nil =>
      cases h
      cases ht
  | cons y rest ih =>
      rw [List.mapM_cons] at h
      obtain ⟨u, hu, h⟩ := bind_eq_ok h
      obtain ⟨us, hus, h⟩ := bind_eq_ok h
      cases h
      rcases List.mem_cons.mp ht with rfl | ht
      · exact ⟨y, List.mem_cons_self, hu⟩
      · obtain ⟨x, hx, hxt⟩ := ih hus ht
        exact ⟨x, List.mem_cons_of_mem y hx, hxt⟩

/-- The results stand beside the items they come from. -/
theorem forall₂_of_mapM {f : α → Except ε β} {xs : List α} {ts : List β}
    (h : xs.mapM f = .ok ts) : List.Forall₂ (fun x t => f x = .ok t) xs ts := by
  induction xs generalizing ts with
  | nil =>
      cases h
      exact .nil
  | cons x rest ih =>
      rw [List.mapM_cons] at h
      obtain ⟨t, ht, h⟩ := bind_eq_ok h
      obtain ⟨us, hus, h⟩ := bind_eq_ok h
      cases h
      exact .cons ht (ih hus)

/-- The first item of a kind stands beside the first of its kind. -/
theorem find?_of_forall₂ {S : α → β → Prop} {p : α → Bool} {q : β → Bool} {xs : List α}
    {ys : List β} (h : List.Forall₂ S xs ys) (hpq : ∀ x y, S x y → q y = p x) {x : α}
    (hx : xs.find? p = some x) : ∃ y, ys.find? q = some y ∧ S x y := by
  induction h with
  | nil => cases hx
  | @cons a b as bs hab hrest ih =>
      rw [List.find?_cons] at hx ⊢
      rw [hpq a b hab]
      cases ha : p a with
      | true =>
          rw [ha] at hx
          cases hx
          exact ⟨b, rfl, hab⟩
      | false =>
          rw [ha] at hx
          exact ih hx

/-- What each result says of its item, all results say of all items. -/
theorem map_of_mapM {f : α → Except ε β} {g : β → γ} {g' : α → γ} {xs : List α} {ts : List β}
    (h : xs.mapM f = .ok ts) (hg : ∀ x t, f x = .ok t → g t = g' x) : ts.map g = xs.map g' := by
  induction xs generalizing ts with
  | nil =>
      cases h
      rfl
  | cons x rest ih =>
      rw [List.mapM_cons] at h
      obtain ⟨t, ht, h⟩ := bind_eq_ok h
      obtain ⟨us, hus, h⟩ := bind_eq_ok h
      cases h
      rw [List.map_cons, List.map_cons, hg x t ht, ih hus]

/-- Results got for the entries of a map are found where the entries were. -/
theorem lookup_of_mapM {f : String → α → Except ε β} {entries : List (String × α)}
    {results : List (String × β)}
    (h : entries.mapM (fun e => (f e.1 e.2).map fun b => (e.1, b)) = .ok results) :
    Assoc.keys results = Assoc.keys entries ∧
      ∀ name,
        match entries.lookup name with
        | some a => ∃ b, f name a = .ok b ∧ results.lookup name = some b
        | none => results.lookup name = none := by
  induction entries generalizing results with
  | nil =>
      cases h
      exact ⟨rfl, fun name => rfl⟩
  | cons e rest ih =>
      obtain ⟨key, a⟩ := e
      rw [List.mapM_cons] at h
      obtain ⟨r, hr, h⟩ := bind_eq_ok h
      obtain ⟨rs, hrs, h⟩ := bind_eq_ok h
      obtain ⟨b, hb, rfl⟩ := map_eq_ok hr
      cases h
      obtain ⟨hkeys, hlookup⟩ := ih hrs
      refine ⟨congrArg (key :: ·) hkeys, ?_⟩
      intro name
      rw [List.lookup_cons, List.lookup_cons]
      -- the first entry of a name is the one that is found, on both sides
      by_cases hname : name = key
      · subst hname
        rw [beq_self_eq_true]
        exact ⟨b, hb, rfl⟩
      · rw [beq_false_of_ne hname]
        exact hlookup name

/-- Every item was gone through on the way to the end. -/
theorem of_foldlM_ok {σ : Type} {f : σ → α → Except ε σ} {xs : List α} {s s' : σ}
    (h : xs.foldlM f s = .ok s') {x : α} (hx : x ∈ xs) : ∃ before after, f before x = .ok after := by
  induction xs generalizing s with
  | nil => cases hx
  | cons y rest ih =>
      rw [List.foldlM_cons] at h
      obtain ⟨t, ht, h⟩ := bind_eq_ok h
      rcases List.mem_cons.mp hx with rfl | hx
      · exact ⟨s, t, ht⟩
      · exact ih h hx

/-- A check of all items succeeds just if it does for each. -/
theorem forM_eq_ok_iff {f : α → Except ε Unit} {xs : List α} :
    xs.forM f = .ok () ↔ ∀ x ∈ xs, f x = .ok () := by
  induction xs with
  | nil => exact ⟨fun _ => List.forall_mem_nil _, fun _ => rfl⟩
  | cons x rest ih =>
      rw [List.forall_mem_cons, ← ih]
      constructor
      · intro h
        obtain ⟨done, hx, h⟩ := bind_eq_ok (show (f x >>= fun _ => rest.forM f) = .ok () from h)
        exact ⟨hx, h⟩
      · rintro ⟨hx, h⟩
        show (f x >>= fun _ => rest.forM f) = .ok ()
        rw [hx]
        exact h

/-- A list is worked through where each of its items can be. -/
theorem mapM_isOk {f : α → Except ε β} {xs : List α} (h : ∀ x ∈ xs, ∃ t, f x = .ok t) :
    ∃ ts, xs.mapM f = .ok ts := by
  induction xs with
  | nil => exact ⟨[], rfl⟩
  | cons x rest ih =>
      obtain ⟨t, ht⟩ := h x List.mem_cons_self
      obtain ⟨ts, hts⟩ := ih fun y hy => h y (List.mem_cons_of_mem _ hy)
      refine ⟨t :: ts, ?_⟩
      rw [List.mapM_cons, ht, hts]
      rfl

/-- What holds of each item and its result holds of the items beside their results. -/
theorem mapM_beside {f : α → Except ε β} {S : α → β → Prop} {xs : List α}
    (h : ∀ x ∈ xs, ∃ t, f x = .ok t ∧ S x t) :
    ∃ ts, xs.mapM f = .ok ts ∧ List.Forall₂ S xs ts := by
  induction xs with
  | nil => exact ⟨[], rfl, .nil⟩
  | cons x rest ih =>
      obtain ⟨t, ht, hS⟩ := h x List.mem_cons_self
      obtain ⟨ts, hts, hrest⟩ := ih fun y hy => h y (List.mem_cons_of_mem _ hy)
      refine ⟨t :: ts, ?_, .cons hS hrest⟩
      rw [List.mapM_cons, ht, hts]
      rfl

/-- What can be said of each result can be said of all of them. -/
theorem mapM_all {f : α → Except ε β} {P : β → Prop} {xs : List α}
    (h : ∀ x ∈ xs, ∃ t, f x = .ok t ∧ P t) : ∃ ts, xs.mapM f = .ok ts ∧ ∀ t ∈ ts, P t := by
  obtain ⟨ts, hts⟩ := mapM_isOk fun x hx => (h x hx).imp fun t ht => ht.1
  refine ⟨ts, hts, fun t ht => ?_⟩
  obtain ⟨x, hx, hxt⟩ := exists_of_mapM hts ht
  obtain ⟨t', hxt', hP⟩ := h x hx
  cases hxt.symm.trans hxt'
  exact hP

/-! ## Two computations -/

/-- Two computations that go alike: both come to their ends, with results that are related, or both
fail for the same reason. -/
inductive Related (S : α → β → Prop) : Except ε α → Except ε β → Prop where
  | ok {a : α} {b : β} (h : S a b) : Related S (.ok a) (.ok b)
  | error (e : ε) : Related S (.error e) (.error e)

namespace Related

variable {S : α → β → Prop} {T : γ → δ → Prop} {x : Except ε α} {y : Except ε β}

theorem refl {S : α → α → Prop} (hS : ∀ a, S a a) (x : Except ε α) : Related S x x := by
  cases x with
  | error e => exact .error e
  | ok a => exact .ok (hS a)

theorem imp {S' : α → β → Prop} (h : Related S x y) (hS : ∀ a b, S a b → S' a b) :
    Related S' x y := by
  cases h with
  | ok h => exact .ok (hS _ _ h)
  | error e => exact .error e

/-- What is related are the results. -/
theorem with_results (h : Related S x y) :
    Related (fun a b => x = .ok a ∧ y = .ok b ∧ S a b) x y := by
  cases h with
  | ok h => exact .ok ⟨rfl, rfl, h⟩
  | error e => exact .error e

/-- Related outcomes lead to related outcomes. -/
theorem bind (h : Related S x y) {f : α → Except ε γ} {g : β → Except ε δ}
    (hfg : ∀ a b, S a b → Related T (f a) (g b)) : Related T (x >>= f) (y >>= g) := by
  cases h with
  | ok h => exact hfg _ _ h
  | error e => exact .error e

/-- A step that is the same on both sides. -/
theorem behind (x : Except ε α) {f : α → Except ε γ} {g : α → Except ε δ}
    (hfg : ∀ a, Related T (f a) (g a)) : Related T (x >>= f) (x >>= g) := by
  cases x with
  | error e => exact .error e
  | ok a => exact hfg a

theorem map (h : Related S x y) {f : α → γ} {g : β → δ} (hfg : ∀ a b, S a b → T (f a) (g b)) :
    Related T (x.map f) (y.map g) := by
  cases h with
  | ok h => exact .ok (hfg _ _ h)
  | error e => exact .error e

/-- Traversals of related items go alike if each step does. -/
theorem mapM {xs : List α} {ys : List β} (h : List.Forall₂ S xs ys) {f : α → Except ε γ}
    {g : β → Except ε δ} (hfg : ∀ a b, S a b → Related T (f a) (g b)) :
    Related (List.Forall₂ T) (xs.mapM f) (ys.mapM g) := by
  induction h with
  | nil => exact .ok .nil
  | cons hab hrest ih =>
      rw [List.mapM_cons, List.mapM_cons]
      refine (hfg _ _ hab).bind fun t u htu => ?_
      exact ih.bind fun ts us htus => .ok (.cons htu htus)

end Related

end ModelQuery.Outcome
