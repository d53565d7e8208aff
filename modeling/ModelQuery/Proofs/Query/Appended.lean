import ModelQuery.Proofs.Query.Relationships
import ModelQuery.Proofs.Query.Resolved

/-!
# What a path appends

Loading along a path appends the columns of the canonical model, and then, for each segment that is
a relationship to a registered model, the columns of that model and the joins of the relationship.
The tests of the joins are written as fields of the models and resolved for the canonical model,
whatever hop they belong to.

If names are not captured, neither those of models nor those that relationships use
(`Registry.Walkable`), they come to the columns that are meant (`forall₂_fieldJoins`).  So a path
appends just what `Loads` says of its segments (`path_appends_exactly`).
-/

namespace ModelQuery

open Outcome

/-! ## Names in relationships -/

/-- The association table of a relationship, if it goes through one. -/
def Link.through? : Link → Option Association
  | .manyToMany _ through => some through
  | _ => none

namespace Registry

variable {r : Registry} {m related : Model} {f : Field} {other : Foreign} {xs : List Registration}

/-- An association table and its columns come to nothing but themselves. -/
structure Associates (r : Registry) (t : Association) : Prop where
  words : IsWord t.table ∧ IsWord t.ownColumn ∧ IsWord t.foreignColumn
  own : ∀ k ∈ r.lookupName? t.table, k.table = t.table
  stored : ∀ k ∈ r.models, k.table = t.table →
    k.stored t.ownColumn = t.ownColumn ∧ k.stored t.foreignColumn = t.foreignColumn

instance (r : Registry) (t : Association) : Decidable (r.Associates t) :=
  decidable_of_iff
    ((IsWord t.table ∧ IsWord t.ownColumn ∧ IsWord t.foreignColumn) ∧
      (∀ k ∈ r.lookupName? t.table, k.table = t.table) ∧
      ∀ k ∈ r.models, k.table = t.table →
        k.stored t.ownColumn = t.ownColumn ∧ k.stored t.foreignColumn = t.foreignColumn)
    ⟨fun ⟨h₁, h₂, h₃⟩ => ⟨h₁, h₂, h₃⟩, fun h => ⟨h.words, h.own, h.stored⟩⟩

/-- Names are not captured, those that relationships use included, and no field is called like all
columns of a table. -/
structure Walkable (r : Registry) : Prop extends r.Uncaptured where
  names : ∀ m ∈ r.models, IsWord m.name
  noStar : ∀ m ∈ r.models, ∀ f ∈ m.fields.toList, f.name ≠ "*"
  foreign : ∀ m ∈ r.models, ∀ f ∈ m.fields.toList, ∀ other ∈ f.link.foreign?,
    IsWord other.column ∧ ∀ k ∈ r.lookupName? other.model, k.stored other.column = other.column
  through : ∀ m ∈ r.models, ∀ f ∈ m.fields.toList, ∀ t ∈ f.link.through?, r.Associates t

instance (r : Registry) : Decidable r.Walkable :=
  decidable_of_iff
    (r.Uncaptured ∧ (∀ m ∈ r.models, IsWord m.name) ∧
      (∀ m ∈ r.models, ∀ f ∈ m.fields.toList, f.name ≠ "*") ∧
      (∀ m ∈ r.models, ∀ f ∈ m.fields.toList, ∀ other ∈ f.link.foreign?, IsWord other.column ∧
        ∀ k ∈ r.lookupName? other.model, k.stored other.column = other.column) ∧
      ∀ m ∈ r.models, ∀ f ∈ m.fields.toList, ∀ t ∈ f.link.through?, r.Associates t)
    ⟨fun ⟨h₁, h₂, h₃, h₄, h₅⟩ => ⟨h₁, h₂, h₃, h₄, h₅⟩,
      fun h => ⟨h.toUncaptured, h.names, h.noStar, h.foreign, h.through⟩⟩

/-- A registered field is owned by its model. -/
theorem owner_of_registered (hm : m ∈ (empty.afterAll xs).models) (hf : f ∈ m.fields.toList) :
    f.owner = m.name := by
  obtain ⟨⟨name, m⟩, he, rfl⟩ := List.mem_map.mp hm
  obtain ⟨hname, howner⟩ := (firstKept_afterAll xs).named _ he
  exact (howner f hf).trans hname.symm

/-- What is looked up as a model whose name holds none of the characters that are read in a name
holds none of them. -/
theorem isQualifier_of_lookupName? (h : r.Keyed) {name : String}
    (hfound : r.lookupName? name = some m) (hm : IsQualifier m.name) : IsQualifier name := by
  have hname : normalizeName name = m.name := by
    rw [lookupName?_eq] at hfound
    -- the logical name is made a variable, so that nothing computes it
    generalize normalizeName name = key at hfound ⊢
    split at hfound
    · cases hfound
    · exact (h.named _ (Assoc.mem_of_lookup hfound)).symm
  exact isQualifier_of_normalizeName (hname ▸ hm)

end Registry

/-! ## Joins -/

/-- A table joined on the equality of two columns. -/
structure Joined where
  table : String
  left : ColumnPlace
  right : ColumnPlace

/-- The join is for this table, from the left, without an alias and with this one test. -/
structure Join.Is (join : Join) (j : Joined) : Prop where
  table : join.table.text? = some j.table
  unnamed : join.asName = .null
  type : join.type = .text "LEFT"
  on : join.on = [equalityTest j.left j.right]

/-- What a relationship between two models joins: the table of the other one, after the association
table where it goes through one. -/
def Field.joined (f : Field) (owner related : Model) : List Joined :=
  let own : ColumnPlace := ⟨owner.table, f.column⟩
  match f.link with
  | .plain => []
  | .belongsTo other => [⟨related.table, own, ⟨related.table, other.column⟩⟩]
  | .hasMany other | .hasOne other => [⟨related.table, ⟨related.table, other.column⟩, own⟩]
  | .manyToMany other through =>
    [⟨through.table, ⟨through.table, through.ownColumn⟩, own⟩,
      ⟨related.table, ⟨related.table, other.column⟩, ⟨through.table, through.foreignColumn⟩⟩]

namespace Scope

variable {s : Scope} {m owner related : Model} {f : Field} {q name : String} {other : Foreign}
  {t : Association} {xs : List Registration}

/-- What is looked up as a model is taken for it, whatever model is canonical. -/
theorem Uncaptured.target?_of_lookupName? (h : s.Uncaptured) (hq : s.registry.lookupName? q = some m) :
    s.target? (some q) = some m := by
  cases hcanonical : s.canonical with
  | none => rw [target?_of_ne_table (hcanonical ▸ nofun), hq]
  | some c =>
      rw [target?_of_canonical hcanonical (h.lookupName? hcanonical) hq]
      split
      · rename_i htable
        have hc := (h.canonical c hcanonical).1
        have hname := h.registry.own c hc m (htable ▸ hq)
        exact congrArg some (h.keyed.eq_of_name hc (Registry.mem_of_lookupName? hq) hname.symm)
      · rfl

/-- A name written as a field of a model becomes the column it comes to there. -/
theorem Uncaptured.column_named (h : s.Uncaptured) (hq : s.registry.lookupName? q = some m)
    (hqualifier : IsQualifier q) (hname : IsName name) :
    s.column (some true) (dotted q name) = dotted m.table (m.stored name) :=
  have hword := h.registry.tables m (Registry.mem_of_lookupName? hq)
  column_dotted (h.target?_of_lookupName? hq) hword.named hqualifier hname

/-- A column of an association table stays. -/
theorem Uncaptured.column_through (h : s.Uncaptured) (ht : s.registry.Associates t)
    (hcolumn : IsWord name) (hstored : ∀ k ∈ s.registry.models, k.table = t.table →
      k.stored name = name) :
    s.column (some true) (dotted t.table name) = dotted t.table name := by
  have htable := ht.words.1
  cases htarget : s.target? (some t.table) with
  | none =>
      exact (h.settles_of_unknown htarget htable.toIsQualifier htable.named
        hcolumn.toIsName).column_dotted
  | some k =>
      have hk := mem_of_target? htarget
      have hsame : k.table = t.table := by
        cases hcanonical : s.canonical with
        | none =>
            rw [target?_of_ne_table (hcanonical ▸ nofun)] at htarget
            exact ht.own k htarget
        | some c =>
            rw [target?_eq hcanonical (h.lookupName? hcanonical)] at htarget
            dsimp only at htarget
            split at htarget
            · rename_i hown
              cases htarget
              exact hown.symm
            · exact ht.own k htarget
      rw [column_dotted htarget (hsame ▸ htable.named) htable.toIsQualifier hcolumn.toIsName,
        hstored k hk hsame, hsame]

end Scope

/-- A relationship that is found under a name is a field so called, and leads to the other model. -/
theorem Model.mem_of_relationship? {m : Model} {name : String} {f : Field} {other : Foreign}
    (h : m.relationship? name = some (f, other)) : f ∈ m.fields.toList := by
  rw [relationship?] at h
  cases hf : m.field? name with
  | none =>
      rw [hf] at h
      cases h
  | some g =>
      rw [hf] at h
      obtain ⟨foreign, -, heq⟩ := Option.map_eq_some_iff.mp h
      cases heq
      exact List.mem_map.mpr ⟨(name, f), Assoc.mem_of_lookup hf, rfl⟩

namespace Builder

open Scope

variable {s : Scope} {owner related : Model} {f : Field} {other : Foreign} {xs : List Registration}
  {r : Registry} {root m : Model}

/-- A join that is spelled out joins this table on these columns. -/
theorem is_leftJoined {v left right : Value} {table : String} {l r : ColumnPlace}
    (hv : (s.table v).text? = some table)
    (hleft : s.column (some true) left = dotted l.table l.column)
    (hright : s.column (some true) right = dotted r.table r.column) :
    (leftJoined s v left right).Is ⟨table, l, r⟩ where
  table := hv
  unnamed := rfl
  type := rfl
  on := by
    rw [on_leftJoined, hleft, hright]
    rfl

/-- The joins of a relationship equate the columns that are meant. -/
theorem forall₂_fieldJoins (h : s.Uncaptured) (hwalkable : s.registry.Walkable)
    (howner : owner ∈ s.registry.models) (hf : f ∈ owner.fields.toList)
    (howned : f.owner = owner.name) (hother : f.link.foreign? = some other)
    (hrelated : s.registry.lookupName? other.model = some related) :
    List.Forall₂ Join.Is (fieldJoins s f) (f.joined owner related) := by
  have hownerWord := hwalkable.names owner howner
  have hfound : s.registry.lookupName? f.owner = some owner := by
    rw [howned]
    exact h.keyed.lookupName?_of_normalized howner hownerWord.named (hwalkable.fixed owner howner)
  have hownerName : IsQualifier f.owner := howned ▸ hownerWord.toIsQualifier
  obtain ⟨hfname, hfcolumn⟩ := hwalkable.fields owner howner f hf
  have hrelatedMem := Registry.mem_of_lookupName? hrelated
  have hotherName : IsQualifier other.model :=
    Registry.isQualifier_of_lookupName? h.keyed hrelated
      (hwalkable.names related hrelatedMem).toIsQualifier
  obtain ⟨hword, hstored⟩ := hwalkable.foreign owner howner f hf other hother
  -- the sides of the tests, each as it is written and as it is resolved
  have hreference := h.column_named hfound hownerName hfname.toIsName
  have hown := h.column_named hfound hownerName hfcolumn.toIsName
  have hfar := h.column_named hrelated hotherName hword.toIsName
  have htable : (s.table (.text other.model)).text? = some related.table := by
    rw [Scope.table_of_text rfl, Registry.tableNamed, hrelated]
  rw [Model.stored_of_mem hf] at hreference
  rw [hwalkable.stored owner howner f hf] at hown
  rw [hstored related hrelated] at hfar
  rw [fieldJoins, Field.joined]
  have hthrough := hwalkable.through owner howner f hf
  cases hlink : f.link with
  | plain =>
      rw [hlink] at hother
      cases hother
  | belongsTo foreign =>
      rw [hlink] at hother
      cases hother
      exact .cons (is_leftJoined htable hreference hfar) .nil
  | hasMany foreign =>
      rw [hlink] at hother
      cases hother
      exact .cons (is_leftJoined htable hfar hown) .nil
  | hasOne foreign =>
      rw [hlink] at hother
      cases hother
      exact .cons (is_leftJoined htable hfar hown) .nil
  | manyToMany foreign through =>
      rw [hlink] at hother hthrough
      cases hother
      have ht := hthrough through rfl
      have hbetween : (s.table (Name.toValue ⟨through.table, f.declared⟩)).text? =
          some through.table := by
        rw [Scope.table_of_text (Name.text?_toValue _), Registry.tableNamed]
        cases hk : s.registry.lookupName? through.table with
        | none => rfl
        | some k => exact congrArg some (ht.own k hk)
      have hnear := h.column_through ht ht.words.2.1 fun k hk hsame => (ht.stored k hk hsame).1
      have hbehind := h.column_through ht ht.words.2.2 fun k hk hsame => (ht.stored k hk hsame).2
      exact .cons (is_leftJoined hbetween hnear hown)
        (.cons (is_leftJoined htable hfar hbehind) .nil)

/-! ## Paths -/

/-- What loading appends for the segments of a path from a model on, of which some were walked from
the first model before: the selected columns with their labels, and what is joined.  It ends at a
segment that is no relationship of the model there, or one to a model that is not registered. -/
inductive Loads (r : Registry) (root : Model) :
    List String → Model → List String → List (Value × Value) → List Joined → Prop where
  | done (walked : List String) (m : Model) : Loads r root walked m [] [] []
  | stopped {walked rest : List String} {m : Model} {segment : String}
      (hnone : ∀ f other, m.relationship? segment = some (f, other) →
        r.lookupName? other.model = none) :
      Loads r root walked m (segment :: rest) [] []
  | hop {walked rest : List String} {m related : Model} {segment : String} {f : Field}
      {other : Foreign} {select : List (Value × Value)} {joined : List Joined}
      (hlink : m.relationship? segment = some (f, other))
      (hrelated : r.lookupName? other.model = some related)
      (hrest : Loads r root (walked ++ [segment]) related rest select joined) :
      Loads r root walked m (segment :: rest)
        (related.fields.inDb.map (fun g => (dotted related.table g.column,
          .text (labelText root.name (walked ++ [segment, g.name])))) ++ select)
        (f.joined m related ++ joined)

theorem labelText_append (start : String) (walked more : List String) :
    labelText start (walked ++ more) = labelText (labelText start walked) more :=
  List.foldl_append

/-- The columns that a hop selects are labelled with all segments up to it. -/
theorem selected_hop (start : String) (walked : List String) (segment : String) (f : Field)
    (related : Model) :
    Hop.selected ⟨f, labelText start (walked ++ [segment]), related⟩ =
      related.fields.inDb.map fun g =>
        (dotted related.table g.column, .text (labelText start (walked ++ [segment, g.name]))) := by
  rw [Hop.selected, labelled]
  refine List.map_congr_left fun g _ => ?_
  rw [← labelText_append, List.append_assoc]
  rfl

/-- The hops of a path append just that. -/
theorem loads_hops (root : Model) (h : s.Uncaptured) (hwalkable : s.registry.Walkable)
    (howned : ∀ m ∈ s.registry.models, ∀ f ∈ m.fields.toList, f.owner = m.name)
    (hm : m ∈ s.registry.models) (walked path : List String) :
    let hs := hops s.registry m (labelText root.name walked) path
    ∃ joined, Loads s.registry root walked m path (hs.flatMap Hop.selected) joined ∧
      List.Forall₂ Join.Is (joinsOf s hs) joined := by
  induction path generalizing m walked with
  | nil => exact ⟨[], .done walked m, .nil⟩
  | cons segment rest ih =>
      rw [hops]
      cases hlink : m.relationship? segment with
      | none => exact ⟨[], .stopped (fun f other hsome => by rw [hlink] at hsome; cases hsome), .nil⟩
      | some link =>
          obtain ⟨f, other⟩ := link
          dsimp only
          cases hrelated : s.registry.lookupName? other.model with
          | none =>
              refine ⟨[], .stopped (fun f' other' hsome => ?_), .nil⟩
              rw [hlink] at hsome
              cases hsome
              exact hrelated
          | some related =>
              have hf := Model.mem_of_relationship? hlink
              obtain ⟨joined, hloads, hjoins⟩ :=
                ih (Registry.mem_of_lookupName? hrelated) (walked ++ [segment])
              have hchain : labelText root.name walked ++ String.singleton pathMark ++ f.name =
                  labelText root.name (walked ++ [segment]) := by
                rw [Model.name_of_relationship? hlink, labelText_append]
                rfl
              rw [hchain]
              refine ⟨f.joined m related ++ joined, ?_, ?_⟩
              · rw [List.flatMap_cons, selected_hop]
                exact .hop hlink hrelated hloads
              · rw [joinsOf, List.flatMap_cons]
                exact List.rel_append
                  (forall₂_fieldJoins h hwalkable hm hf (howned m hm f hf)
                    (Model.foreign?_of_relationship? hlink) hrelated) hjoins

/-- **A PATH APPENDS EXACTLY ITS HOPS**: for registrations whose names are not captured and a
builder whose canonical model is one of the registered, loading along any path appends all columns
of the canonical model, and then what the segments of the path stand for, up to where it ends: the
selected columns with their labels, and one join, or two, for each hop.  Nothing else is changed. -/
theorem path_appends_exactly {b : Builder} (hregistry : b.registry = Registry.empty.afterAll xs)
    (hwalkable : b.registry.Walkable) (hcanonical : b.canonical = some m)
    (hm : m ∈ b.registry.models) {v : Value} {path : String} (hv : v.text? = some path) :
    ∃ select joined joins,
      Loads b.registry m [] m (Text.splitAt pathMark path) select joined ∧
      List.Forall₂ Join.Is joins joined ∧
      Call.run (.eager v) b =
        .ok .done (b.adding ((dotted m.table "*", .null) :: select) joins []) := by
  have hkeyed : b.registry.Keyed := hregistry ▸ Registry.keyed_empty.afterAll xs
  have hscope : b.scope.Uncaptured := by
    refine ⟨hkeyed, hwalkable.toUncaptured, fun c hc => ?_⟩
    obtain rfl := Option.some.inj (hcanonical.symm.trans hc)
    exact ⟨hm, (hwalkable.names m hm).named⟩
  have howned : ∀ m ∈ b.registry.models, ∀ f ∈ m.fields.toList, f.owner = m.name := by
    rw [hregistry]
    exact fun m hm f hf => Registry.owner_of_registered hm hf
  obtain ⟨joined, hloads, hjoins⟩ :=
    loads_hops m hscope hwalkable howned hm [] (Text.splitAt pathMark path)
  refine ⟨_, joined, _, hloads, hjoins, ?_⟩
  have hrun : Call.run (.eager v) b = .ok .done (b.eager m path) := by
    show Call.eagerOn v b = _
    rw [Call.eagerOn, hcanonical, hv]
  have hown : ownItem b.scope = (dotted m.table "*", .null) := by
    have htarget : b.scope.target? none = some m := hscope.target?_none.trans hcanonical
    have hstar : m.stored "*" = "*" := by
      rcases m.stored_cases "*" with ⟨f, hf, hname, -⟩ | hself
      · exact absurd hname (hwalkable.noStar m hm f hf)
      · exact hself
    have hresolved := (hscope.settles_of_target htarget (show IsName "*" by decide)).1
    rw [hstar] at hresolved
    have hbare := column_text b.scope (some true) "*"
    rw [resolveText, Identifier.ofText_bare (by decide)] at hbare
    rw [ownItem, hbare]
    exact congrArg (fun n => (Name.toValue n, Value.null)) hresolved
  rw [hrun, eager_eq, hown]
  rfl

/-- What is appended is determined by the path. -/
theorem Loads.unique {walked path : List String} {select select' : List (Value × Value)}
    {joined joined' : List Joined} (h : Loads r root walked m path select joined)
    (h' : Loads r root walked m path select' joined') : select = select' ∧ joined = joined' := by
  induction h generalizing select' joined' with
  | done walked m =>
      cases h'
      exact ⟨rfl, rfl⟩
  | stopped hnone =>
      cases h' with
      | stopped => exact ⟨rfl, rfl⟩
      | hop hlink hrelated hrest =>
          rw [hnone _ _ hlink] at hrelated
          cases hrelated
  | hop hlink hrelated hrest ih =>
      cases h' with
      | stopped hnone =>
          rw [hnone _ _ hlink] at hrelated
          cases hrelated
      | hop hlink' hrelated' hrest' =>
          rw [hlink] at hlink'
          cases hlink'
          rw [hrelated] at hrelated'
          cases hrelated'
          obtain ⟨rfl, rfl⟩ := ih hrest'
          exact ⟨rfl, rfl⟩

/-- The teams of a user, by way of the memberships. -/
def teamsField : Field where
  name := "teams"
  column := "id"
  inDb := false
  owner := ""
  link := .manyToMany ⟨"Team", "id"⟩ ⟨"members", "", "team_id"⟩

/-- Posts of users who are in teams. -/
def teamRegistrations : List Registration :=
  [{ model := .text "Post", table := "posts",
     fields := [.plain "id" "" true "", .plain "title" "headline" true "",
       .belongsTo "author" "" true "" ⟨"User", "id"⟩] },
   { model := .text "User", table := "users", fields := [.plain "id" "" true "", teamsField] },
   { model := .text "Team", table := "teams", fields := [.plain "id" "" true ""] }]

/-- The authors of posts and their teams are loaded up to a segment that is no relationship. -/
theorem author_teams_loaded :
    let registry := Registry.empty.afterAll teamRegistrations
    ∃ b b', create registry (.text "post") (.text "select") = .ok b ∧
      Call.run (.eager (.text "author:teams:ghost:id")) b = .ok .done b' ∧
      b'.draft.select =
        [(.text "posts.*", .null), (.text "users.id", .text "post:author:id"),
          (.text "teams.id", .text "post:author:teams:id")] ∧
      List.Forall₂ Join.Is b'.draft.joins
        [⟨"users", ⟨"posts", "author_id"⟩, ⟨"users", "id"⟩⟩,
          ⟨"members", ⟨"members", "user_id"⟩, ⟨"users", "id"⟩⟩,
          ⟨"teams", ⟨"teams", "id"⟩, ⟨"members", "team_id"⟩⟩] := by
  intro registry
  obtain ⟨b, m, hcreate, hregistry, hcanonical, hm, hselect, hjoins⟩ : ∃ b m,
      create registry (.text "post") (.text "select") = .ok b ∧ b.registry = registry ∧
      b.canonical = some m ∧ registry.lookupName? "post" = some m ∧ b.draft.select = [] ∧
      b.draft.joins = [] := ⟨_, _, rfl, rfl, rfl, rfl, rfl, rfl⟩
  -- of each model what the path finds there
  have hpost : (registry.lookupName? "post").map
      (fun m => (m.name, m.table, m.relationship? "author")) =
      some ("post", "posts",
        some (.belongsTo "author" "" true "post" ⟨"User", "id"⟩, ⟨"User", "id"⟩)) := by
    decide +kernel
  have huser : (registry.lookupName? "User").map
      (fun m => (m.table, m.fields.inDb, m.relationship? "teams")) =
      some ("users", [.plain "id" "" true "user"],
        some (teamsField.bind "user", ⟨"Team", "id"⟩)) := by decide +kernel
  have hteam : (registry.lookupName? "Team").map
      (fun m => (m.table, m.fields.inDb, m.relationship? "ghost")) =
      some ("teams", [.plain "id" "" true "team"], none) := by decide +kernel
  rw [hm, Option.map_some, Option.some.injEq, Prod.mk.injEq, Prod.mk.injEq] at hpost
  obtain ⟨user, hfoundUser, hatUser⟩ := Option.map_eq_some_iff.mp huser
  obtain ⟨team, hfoundTeam, hatTeam⟩ := Option.map_eq_some_iff.mp hteam
  rw [Prod.mk.injEq, Prod.mk.injEq] at hatUser hatTeam
  have hpath : Text.splitAt pathMark "author:teams:ghost:id" = ["author", "teams", "ghost", "id"] := by
    decide
  have hloads : Loads registry m [] m ["author", "teams", "ghost", "id"] _ _ :=
    .hop hpost.2.2 hfoundUser (.hop hatUser.2.2 hfoundTeam
      (.stopped fun f other hlink => by rw [hatTeam.2.2] at hlink; cases hlink))
  rw [hatUser.1, hatUser.2.1, hatTeam.1, hatTeam.2.1, hpost.1] at hloads
  have hwalkable : b.registry.Walkable := by
    rw [hregistry]
    decide +kernel
  have hmem : m ∈ b.registry.models := hregistry ▸ Registry.mem_of_lookupName? hm
  obtain ⟨select, joined, joins, hfound, his, hrun⟩ :=
    path_appends_exactly hregistry hwalkable hcanonical hmem
      (Value.text?_text "author:teams:ghost:id")
  rw [hregistry, hpath] at hfound
  obtain ⟨rfl, rfl⟩ := hfound.unique hloads
  refine ⟨b, _, hcreate, hrun, ?_, ?_⟩
  · show b.draft.select ++ _ = _
    rw [hselect, hpost.2.1]
    rfl
  · show List.Forall₂ Join.Is (b.draft.joins ++ joins) _
    rw [hjoins]
    simp only [Field.joined, hpost.2.1, hatUser.1, hatTeam.1] at his
    exact his

end Builder

end ModelQuery
