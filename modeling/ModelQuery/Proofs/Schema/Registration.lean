import Mathlib.Data.List.Induction
import Mathlib.Data.List.Nodup
import ModelQuery.Proofs.Outcome
import ModelQuery.Proofs.Schema.Fields
import ModelQuery.Resolve

/-!
# Registrations in turn

A registration finds its name taken and answers with what is there, or it puts its model behind all
others, or it fails and leaves the registry as it was (`after_cases`).  So after any registrations
the registry holds, under each name, what the first that succeeded with it answered
(`first_registration_stays`).

What is looked up in a registry, and what is resolved through it, depends on what it finds under
each name.  If no name comes twice, that does not depend on the order of the registrations.
-/

namespace ModelQuery

open Outcome

namespace Registry

variable {r r' : Registry} {x : Registration} {xs : List Registration} {name : String} {m : Model}

/-! ## One registration -/

/-- The registry after a registration; one that fails leaves it as it was. -/
def after (r : Registry) (x : Registration) : Registry :=
  match r.register x with
  | .ok (r', _) => r'
  | .error _ => r

/-- What a registration answers. -/
def answer (r : Registry) (x : Registration) : Except Error Model := (r.register x).map Prod.snd

/-- The registry with a model behind all others. -/
def put (r : Registry) (name : String) (m : Model) : Registry := ⟨r.entries ++ [(name, m)]⟩

/-- What is put is found under its name, and the rest as before. -/
theorem find?_put (hnew : r.find? name = none) (m : Model) (name' : String) :
    (r.put name m).find? name' = if name' = name then some m else r.find? name' := by
  show (r.entries ++ [(name, m)]).lookup name' = _
  rw [List.lookup_append, List.lookup_cons]
  by_cases h : name' = name
  · subst h
    rw [if_pos rfl, beq_self_eq_true, show r.entries.lookup name' = none from hnew]
    rfl
  · rw [if_neg h, beq_false_of_ne h]
    exact Option.or_none

/-- The model of a registration has its name, its table, its fields and its factory. -/
theorem of_modelOf (h : modelOf name x = .ok m) :
    m.name = name ∧ m.table = orElse x.table name ∧
      m.fields = (FieldTable.ofList x.fields).bind name ∧ m.factory = x.factory := by
  rw [modelOf] at h
  obtain ⟨sorting, -, h⟩ := bind_eq_ok h
  obtain ⟨loadWith, -, h⟩ := bind_eq_ok h
  obtain rfl := Except.ok.inj h
  exact ⟨rfl, rfl, rfl, rfl⟩

/-- A name that is known keeps its model, which is answered. -/
theorem register_of_known (h : r.find? (modelName x.model) = some m) :
    r.register x = .ok (r, m) := by
  rw [register, h]

/-- A name that is new is given the model of the registration. -/
theorem register_of_new (h : r.find? (modelName x.model) = none) :
    r.register x = (modelOf (modelName x.model) x).map fun m => (r.put (modelName x.model) m, m) := by
  rw [register, h]
  rfl

/-- A registration either finds its name taken, or puts its model behind all others. -/
theorem register_cases {added : Model} (h : r.register x = .ok (r', added)) :
    (r.find? (modelName x.model) = some added ∧ r' = r) ∨
      (r.find? (modelName x.model) = none ∧ modelOf (modelName x.model) x = .ok added ∧
        r' = r.put (modelName x.model) added) := by
  cases hx : r.find? (modelName x.model) with
  | some known =>
      rw [register_of_known hx] at h
      cases h
      exact .inl ⟨rfl, rfl⟩
  | none =>
      rw [register_of_new hx] at h
      obtain ⟨made, hmade, heq⟩ := map_eq_ok h
      cases heq
      exact .inr ⟨rfl, hmade, rfl⟩

/-- What becomes of a registration: its name is taken, or it fails, or it succeeds as the first. -/
theorem after_cases (r : Registry) (x : Registration) :
    (∃ m, r.find? (modelName x.model) = some m ∧ r.answer x = .ok m ∧ r.after x = r) ∨
      (∃ e, r.find? (modelName x.model) = none ∧ modelOf (modelName x.model) x = .error e ∧
        r.answer x = .error e ∧ r.after x = r) ∨
      ∃ m, r.find? (modelName x.model) = none ∧ modelOf (modelName x.model) x = .ok m ∧
        r.answer x = .ok m ∧ r.after x = r.put (modelName x.model) m := by
  unfold answer after
  cases hx : r.find? (modelName x.model) with
  | some known =>
      rw [register_of_known hx]
      exact .inl ⟨known, rfl, rfl, rfl⟩
  | none =>
      rw [register_of_new hx]
      cases modelOf (modelName x.model) x with
      | error e => exact .inr (.inl ⟨e, rfl, rfl, rfl, rfl⟩)
      | ok m => exact .inr (.inr ⟨m, rfl, rfl, rfl, rfl⟩)

/-- What is registered stays. -/
theorem find?_after_of_known (x : Registration) (h : r.find? name = some m) :
    (r.after x).find? name = some m := by
  rcases after_cases r x with ⟨_, -, -, hafter⟩ | ⟨_, -, -, -, hafter⟩ | ⟨made, hnew, -, -, hafter⟩
  · rw [hafter, h]
  · rw [hafter, h]
  · have hne : name ≠ modelName x.model := by
      rintro rfl
      rw [hnew] at h
      cases h
    rw [hafter, find?_put hnew, if_neg hne, h]

/-! ## Registrations in turn -/

/-- The registry after registrations in turn, whatever becomes of each. -/
def afterAll (r : Registry) (xs : List Registration) : Registry := xs.foldl after r

/-- The name of each registration with what it answers, in turn. -/
def answers (r : Registry) : List Registration → List (String × Except Error Model)
  | [] => []
  | x :: rest => (modelName x.model, r.answer x) :: (r.after x).answers rest

/-- The model that was answered for a name. -/
def answeredFor (name : String) (a : String × Except Error Model) : Option Model :=
  if a.1 = name then a.2.toOption else none

/-- The name of a registration that succeeded. -/
def succeeded (a : String × Except Error Model) : Option String := a.2.toOption.map fun _ => a.1

theorem afterAll_concat (r : Registry) (xs : List Registration) (x : Registration) :
    r.afterAll (xs ++ [x]) = (r.afterAll xs).after x := by
  rw [afterAll, List.foldl_append]
  rfl

theorem answers_concat (r : Registry) (xs : List Registration) (x : Registration) :
    r.answers (xs ++ [x]) =
      r.answers xs ++ [(modelName x.model, (r.afterAll xs).answer x)] := by
  induction xs generalizing r with
  | nil => rfl
  | cons y rest ih => exact congrArg ((modelName y.model, r.answer y) :: ·) (ih (r.after y))

/-- Registrations that all succeed are registrations in turn. -/
theorem afterAll_of_registerAll (h : r.registerAll xs = .ok r') : r' = r.afterAll xs := by
  induction xs generalizing r with
  | nil => exact (Except.ok.inj h).symm
  | cons x rest ih =>
      rw [registerAll] at h
      obtain ⟨⟨r₁, added⟩, hx, h⟩ := bind_eq_ok h
      have hafter : r.after x = r₁ := by rw [after, hx]
      rw [ih h, ← hafter]
      rfl

/-- A model that is there stays, whatever is registered. -/
theorem find?_afterAll_of_known (xs : List Registration) (h : r.find? name = some m) :
    (r.afterAll xs).find? name = some m := by
  induction xs generalizing r with
  | nil => exact h
  | cons x rest ih => exact ih (find?_after_of_known x h)

/-- What is registered stays. -/
theorem find?_registerAll_of_known (h : r.registerAll xs = .ok r') (hm : r.find? name = some m) :
    r'.find? name = some m := by
  rw [afterAll_of_registerAll h]
  exact find?_afterAll_of_known xs hm

/-- Of registrations that all succeed the first of a name says what is found under it. -/
theorem find?_registerAll (h : r.registerAll xs = .ok r') (hnew : r.find? name = none)
    (hx : xs.find? (fun x => modelName x.model = name) = some x) :
    ∃ m, modelOf name x = .ok m ∧ r'.find? name = some m := by
  induction xs generalizing r with
  | nil => cases hx
  | cons y rest ih =>
      rw [registerAll] at h
      obtain ⟨⟨r₁, added⟩, hr₁, hall⟩ := bind_eq_ok h
      rw [List.find?_cons] at hx
      by_cases hname : modelName y.model = name
      · subst hname
        rw [decide_eq_true rfl] at hx
        cases hx
        rcases register_cases hr₁ with ⟨hknown, -⟩ | ⟨-, hmade, rfl⟩
        · rw [hnew] at hknown
          cases hknown
        · refine ⟨added, hmade, find?_registerAll_of_known hall ?_⟩
          rw [find?_put hnew, if_pos rfl]
      · rw [decide_eq_false hname] at hx
        refine ih hall ?_ hx
        rcases register_cases hr₁ with ⟨-, rfl⟩ | ⟨hfree, -, rfl⟩
        · exact hnew
        · rw [find?_put hfree, if_neg (Ne.symm hname), hnew]

/-! ## What is kept -/

/-- What is known of a registry after registrations in turn. -/
structure FirstKept (xs : List Registration) (r : Registry) : Prop where
  /-- Under each name is what the first registration of it that succeeded answered. -/
  first : ∀ name, r.find? name = (answers empty xs).findSome? (answeredFor name)
  /-- It is the model that one of the registrations describes. -/
  described : ∀ name m, r.find? name = some m →
    ∃ x ∈ xs, modelName x.model = name ∧ modelOf name x = .ok m
  /-- Every other one of the name that succeeded answered the same. -/
  same : ∀ name m, (name, .ok m) ∈ answers empty xs → r.find? name = some m
  /-- The models come in the order in which their names first succeeded. -/
  order : r.names = ((answers empty xs).filterMap succeeded).eraseDups
  /-- A model is called like its name here, and owns all its fields under it. -/
  named : ∀ e ∈ r.entries, e.2.name = e.1 ∧ ∀ f ∈ e.2.fields.toList, f.owner = e.1

theorem find?_eq_none_iff : r.find? name = none ↔ name ∉ r.names := Assoc.lookup_eq_none_iff

namespace FirstKept

theorem nil : FirstKept [] empty where
  first := fun _ => rfl
  described := nofun
  same := nofun
  order := rfl
  named := nofun

/-- The names are those of the calls that succeeded. -/
theorem mem_names (h : FirstKept xs r) :
    name ∈ r.names ↔ name ∈ (answers empty xs).filterMap succeeded := by
  rw [h.order, List.mem_eraseDups]

/-- A registered model is found under its name. -/
theorem find?_name (h : FirstKept xs r) (hm : m ∈ r.models) : r.find? m.name = some m := by
  obtain ⟨⟨name, m⟩, he, rfl⟩ := List.mem_map.mp hm
  obtain ⟨hname, -⟩ := h.named _ he
  rw [show m.name = name from hname]
  refine Assoc.lookup_of_mem ?_ he
  show r.names.Nodup
  rw [h.order]
  exact nodup_eraseDups _

/-- Behind other registrations, one that adds nothing keeps what is known. -/
theorem of_unchanged (h : FirstKept xs (empty.afterAll xs))
    (hafter : (empty.afterAll xs).after x = empty.afterAll xs)
    (hanswer : ∀ m, (empty.afterAll xs).answer x = .ok m →
      (empty.afterAll xs).find? (modelName x.model) = some m) :
    FirstKept (xs ++ [x]) (empty.afterAll (xs ++ [x])) := by
  rw [afterAll_concat, hafter]
  constructor
  case first =>
    intro name
    rw [answers_concat, List.findSome?_append, ← h.first]
    cases hname : (empty.afterAll xs).find? name with
    | some m => rfl
    | none =>
        -- what it answers, if anything, was known before
        rw [Option.none_or, List.findSome?_singleton, answeredFor]
        split
        · rename_i heq
          obtain rfl : modelName x.model = name := heq
          cases hx : (empty.afterAll xs).answer x with
          | error e => rfl
          | ok m =>
              rw [hanswer m hx] at hname
              cases hname
        · rfl
  case described =>
    intro name m hm
    obtain ⟨y, hy, hdescribed⟩ := h.described name m hm
    exact ⟨y, List.mem_append_left _ hy, hdescribed⟩
  case same =>
    intro name m hm
    rw [answers_concat, List.mem_append, List.mem_singleton] at hm
    rcases hm with hold | heq
    · exact h.same name m hold
    · obtain ⟨rfl, hx⟩ := Prod.mk.inj heq
      exact hanswer m hx.symm
  case order =>
    rw [answers_concat, List.filterMap_append, h.order]
    cases hx : (empty.afterAll xs).answer x with
    | error e => exact congrArg List.eraseDups (List.append_nil _).symm
    | ok m =>
        have hknown : modelName x.model ∈ (answers empty xs).filterMap succeeded := by
          rw [← h.mem_names]
          by_contra hnew
          rw [← find?_eq_none_iff, hanswer m hx] at hnew
          cases hnew
        exact ((eraseDups_concat _ _).trans (if_pos hknown)).symm
  case named => exact h.named

/-- Behind other registrations, the first of a name that succeeds keeps what is known. -/
theorem of_put (h : FirstKept xs (empty.afterAll xs))
    (hnew : (empty.afterAll xs).find? (modelName x.model) = none)
    (hmade : modelOf (modelName x.model) x = .ok m)
    (hanswer : (empty.afterAll xs).answer x = .ok m)
    (hafter : (empty.afterAll xs).after x = (empty.afterAll xs).put (modelName x.model) m) :
    FirstKept (xs ++ [x]) (empty.afterAll (xs ++ [x])) := by
  rw [afterAll_concat, hafter]
  constructor
  case first =>
    intro name
    rw [answers_concat, List.findSome?_append, ← h.first, find?_put hnew, hanswer,
      List.findSome?_singleton, answeredFor]
    by_cases hname : name = modelName x.model
    · subst hname
      rw [if_pos rfl, if_pos rfl, hnew]
      rfl
    · rw [if_neg hname, if_neg (Ne.symm hname), Option.or_none]
  case described =>
    intro name m' hm
    rw [find?_put hnew] at hm
    split at hm
    · rename_i hname
      cases hm
      exact ⟨x, List.mem_append_right _ List.mem_cons_self, hname.symm, hname ▸ hmade⟩
    · obtain ⟨y, hy, hdescribed⟩ := h.described name m' hm
      exact ⟨y, List.mem_append_left _ hy, hdescribed⟩
  case same =>
    intro name m' hm
    rw [answers_concat, List.mem_append, List.mem_singleton, hanswer] at hm
    rw [find?_put hnew]
    rcases hm with hold | heq
    · have hknown := h.same name m' hold
      have hne : name ≠ modelName x.model := by
        rintro rfl
        rw [hnew] at hknown
        cases hknown
      rw [if_neg hne, hknown]
    · cases heq
      exact if_pos rfl
  case order =>
    have hfresh : modelName x.model ∉ (answers empty xs).filterMap succeeded := by
      rw [← h.mem_names, ← find?_eq_none_iff]
      exact hnew
    rw [answers_concat, List.filterMap_append, hanswer]
    show Assoc.keys _ = List.eraseDups (_ ++ [modelName x.model])
    rw [eraseDups_concat, if_neg hfresh, ← h.order]
    exact List.map_append
  case named =>
    intro e he
    rcases List.mem_append.mp he with hold | hput
    · exact h.named e hold
    · obtain rfl := List.mem_singleton.mp hput
      obtain ⟨hname, -, hfields, -⟩ := of_modelOf hmade
      refine ⟨hname, fun f hf => ?_⟩
      rw [hfields] at hf
      exact FieldTable.owner_of_bind hf

end FirstKept

/-- After any registrations, each first one is kept. -/
theorem firstKept_afterAll (xs : List Registration) : FirstKept xs (empty.afterAll xs) := by
  induction xs using List.reverseRecOn with
  | nil => exact .nil
  | append_singleton xs x ih =>
      rcases after_cases (empty.afterAll xs) x with
        ⟨m, hknown, hanswer, hafter⟩ | ⟨e, -, -, hanswer, hafter⟩ | ⟨m, hnew, hmade, hanswer, hafter⟩
      · refine ih.of_unchanged hafter fun m' hm' => ?_
        rw [hanswer] at hm'
        cases hm'
        exact hknown
      · refine ih.of_unchanged hafter fun m' hm' => ?_
        rw [hanswer] at hm'
        cases hm'
      · exact ih.of_put hnew hmade hanswer hafter

/-! ## In another order -/

/-- A registration that describes a model leaves its name known. -/
theorem known_of_mem (hx : x ∈ xs) (hmade : modelOf (modelName x.model) x = .ok m) :
    ∃ m', (r.afterAll xs).find? (modelName x.model) = some m' := by
  induction xs generalizing r with
  | nil => cases hx
  | cons y rest ih =>
      rcases List.mem_cons.mp hx with rfl | hrest
      · rcases after_cases r x with ⟨m', hknown, -⟩ | ⟨e, -, hfails, -⟩ | ⟨m', hnew, -, -, hafter⟩
        · exact ⟨m', find?_afterAll_of_known (x :: rest) hknown⟩
        · rw [hmade] at hfails
          cases hfails
        · refine ⟨m', find?_afterAll_of_known (r := r.after x) rest ?_⟩
          rw [hafter, find?_put hnew, if_pos rfl]
      · exact ih hrest

/-- Of registrations of different names each says what is found under its own. -/
theorem find?_iff_of_nodup (h : (xs.map fun x => modelName x.model).Nodup) :
    (empty.afterAll xs).find? name = some m ↔
      ∃ x ∈ xs, modelName x.model = name ∧ modelOf name x = .ok m := by
  constructor
  · exact (firstKept_afterAll xs).described name m
  · rintro ⟨x, hx, rfl, hmade⟩
    obtain ⟨m', hm'⟩ := known_of_mem (r := empty) hx hmade
    obtain ⟨y, hy, hname, hmade'⟩ := (firstKept_afterAll xs).described _ _ hm'
    -- no other registration has the name
    obtain rfl := List.inj_on_of_nodup_map h hy hx hname
    rw [hmade] at hmade'
    cases hmade'
    exact hm'

/-- Two registries that answer every question alike. -/
structure SameAnswers (r r' : Registry) : Prop where
  lookup : ∀ v, r.lookup? v = r'.lookup? v
  column : ∀ canonical qualify v,
    Scope.column ⟨r, canonical⟩ qualify v = Scope.column ⟨r', canonical⟩ qualify v
  table : ∀ canonical v, Scope.table ⟨r, canonical⟩ v = Scope.table ⟨r', canonical⟩ v

/-- A registry is asked for nothing but what it finds under names. -/
theorem sameAnswers_of_find? (h : ∀ name, r.find? name = r'.find? name) : SameAnswers r r' := by
  have hlookup : ∀ v, r.lookup? v = r'.lookup? v := by
    intro v
    unfold lookup?
    simp only [h]
  have htarget : ∀ canonical qualifier,
      Scope.target? ⟨r, canonical⟩ qualifier = Scope.target? ⟨r', canonical⟩ qualifier := by
    intro canonical qualifier
    exact congrArg (Option.bind (Scope.ownQualifier ⟨r, canonical⟩ qualifier))
      (funext fun s => hlookup (.text s))
  have hfield : ∀ canonical qualify qualifier field,
      Scope.resolveField ⟨r, canonical⟩ qualify qualifier field =
        Scope.resolveField ⟨r', canonical⟩ qualify qualifier field := by
    intro canonical qualify qualifier field
    unfold Scope.resolveField Scope.tableOf Scope.columnOf
    rw [htarget]
    rfl
  have hsimple : ∀ canonical qualify i,
      Scope.resolveSimple ⟨r, canonical⟩ qualify i =
        Scope.resolveSimple ⟨r', canonical⟩ qualify i := by
    intro canonical qualify i
    cases i with
    | bare field => exact hfield ..
    | qualified model field => exact hfield ..
    | label path => rfl
    | raw expression => rfl
  have hidentifier : ∀ canonical qualify i,
      Scope.resolveIdentifier ⟨r, canonical⟩ qualify i =
        Scope.resolveIdentifier ⟨r', canonical⟩ qualify i := by
    intro canonical qualify i
    cases i with
    | raw expression =>
        have hpart : Scope.resolvePart ⟨r, canonical⟩ = Scope.resolvePart ⟨r', canonical⟩ :=
          funext fun inside => congrArg Name.text (hsimple canonical none (.ofText inside))
        show (⟨Text.mapQuoted _ expression, false⟩ : Name) = _
        rw [hpart]
        rfl
    | bare field => exact hsimple canonical qualify (.bare field)
    | qualified model field => exact hsimple canonical qualify (.qualified model field)
    | label path => rfl
  refine ⟨hlookup, fun canonical qualify v => ?_, fun canonical v => ?_⟩
  · cases v with
    | text t => exact congrArg Name.toValue (hidentifier canonical qualify (.ofText t))
    | declared t => exact congrArg Name.toValue (hidentifier canonical qualify (.ofText t))
    | identifier i => exact congrArg Name.toValue (hidentifier canonical qualify i)
    | _ => rfl
  · unfold Scope.table
    rw [hlookup]

/-- **THE FIRST REGISTRATION STAYS**: after registrations in turn, of which any may fail, the
registry keeps under each name what the first that succeeded with it answered, in the order of these
firsts; another one of the name answers the same, and neither it nor one that fails changes
anything. Registrations of different names make registries that answer alike in whatever order they
come. -/
theorem first_registration_stays (xs : List Registration) :
    FirstKept xs (empty.afterAll xs) ∧
      (∀ x m, (empty.afterAll xs).find? (modelName x.model) = some m →
        (empty.afterAll xs).register x = .ok (empty.afterAll xs, m)) ∧
      (∀ x e, (empty.afterAll xs).register x = .error e →
        empty.afterAll (xs ++ [x]) = empty.afterAll xs) ∧
      ∀ ys, xs.Perm ys → (xs.map fun x => modelName x.model).Nodup →
        SameAnswers (empty.afterAll xs) (empty.afterAll ys) := by
  refine ⟨firstKept_afterAll xs, fun x m hm => register_of_known hm, fun x e he => ?_,
    fun ys hperm hnodup => sameAnswers_of_find? fun name => ?_⟩
  · rw [afterAll_concat, after, he]
  · have hnodup' : (ys.map fun x => modelName x.model).Nodup := (hperm.map _).nodup_iff.mp hnodup
    refine Option.ext fun m => ?_
    rw [find?_iff_of_nodup hnodup, find?_iff_of_nodup hnodup']
    simp only [hperm.mem_iff]

/-- A post and a user answer alike whoever came first; another post gets the model that is there,
and one that does not say what it is sorted by changes nothing. -/
theorem post_and_user_stay :
    let post : Registration := { model := .text " Model_Post", table := "posts" }
    let user : Registration := { model := .modelClass "User", table := "users" }
    let other : Registration := { model := .text "POST", table := "old_posts" }
    let unsorted : Registration := { model := .text "tag", sorting := .int 1 }
    let both := empty.afterAll [post, user]
    both.names = ["post", "user"] ∧
      (∃ m, both.register other = .ok (both, m) ∧ m.table = "posts") ∧
      empty.afterAll [post, user, unsorted] = both ∧
      Scope.table ⟨empty.afterAll [user, post], none⟩ (.text "user") = .text "users" := by
  intro post user other unsorted both
  obtain ⟨hkept, hknown, hfails, hsame⟩ := first_registration_stays [post, user]
  have hnames : both.names = ["post", "user"] := by
    rw [hkept.order]
    decide +kernel
  have hother : modelName other.model = "post" := by decide +kernel
  have hunsorted : modelName unsorted.model = "tag" := by decide +kernel
  refine ⟨hnames, ?_, ?_, ?_⟩
  · obtain ⟨m, hm, htable⟩ : ∃ m, both.find? "post" = some m ∧ m.table = "posts" := by
      rw [← Option.map_eq_some_iff]
      decide +kernel
    exact ⟨m, hknown other m (hother ▸ hm), htable⟩
  · refine hfails unsorted .notIterable ?_
    rw [register_of_new, hunsorted]
    · rfl
    · rw [find?_eq_none_iff, hnames, hunsorted]
      decide +kernel
  · have hlookup : (both.lookup? (.text "user")).map Model.tableName = some ⟨"users", false⟩ := by
      decide +kernel
    obtain ⟨m, hm, htable⟩ := Option.map_eq_some_iff.mp hlookup
    rw [← (hsame [user, post] (.swap user post []) (by decide +kernel)).table, Scope.table, hm]
    exact congrArg Name.toValue htable

end Registry

end ModelQuery
