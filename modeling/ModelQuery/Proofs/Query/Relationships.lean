import ModelQuery.Proofs.Query.Hops
import ModelQuery.Proofs.Query.Qualified
import ModelQuery.Proofs.Schema.Mapped

/-!
# Relationships of mapped classes

A relationship without an association table joins along a foreign key, and the mapping says which
columns its join equates.  Its field keeps the names of these two columns, and when it is joined
they are written as fields of the two models and resolved once more.

So the join is the one of the mapping exactly if these names come back to themselves
(`relationship_joined_iff`): the column on the far side must not be called like a field of the
target that is stored elsewhere, nor the own column, where it is not reached through the
relationship, like such a field of the owner, nor the target like the owner's table.
-/

namespace ModelQuery

open Outcome

/-! ## What a join equates -/

/-- The test that two columns are equal. -/
def equalityTest (left right : ColumnPlace) : JoinTest :=
  ⟨dotted left.table left.column, .text "=", dotted right.table right.column⟩

/-- The only test of a join is that two columns are equal, on whichever side they stand. -/
def Join.Equates (join : Join) (a b : ColumnPlace) : Prop :=
  join.on = [equalityTest a b] ∨ join.on = [equalityTest b a]

/-- Two tests of equality are the same just if they compare the same columns, side by side. -/
theorem equalityTest_inj {left right left' right' : ColumnPlace}
    (h : '.' ∉ left.table.toList ∧ '.' ∉ right.table.toList)
    (h' : '.' ∉ left'.table.toList ∧ '.' ∉ right'.table.toList) :
    equalityTest left right = equalityTest left' right' ↔ left = left' ∧ right = right' := by
  obtain ⟨table, column⟩ := left
  obtain ⟨otherTable, otherColumn⟩ := right
  simp only [equalityTest, JoinTest.mk.injEq, true_and, dotted_inj h.1 h'.1, dotted_inj h.2 h'.2]
  cases left'
  cases right'
  simp only [ColumnPlace.mk.injEq]

/-- A join on one equality equates two columns just if they are its two sides, in either order. -/
theorem Join.equates_iff {join : Join} {own far a b : ColumnPlace} {ownFirst : Bool}
    (hon : join.on = [if ownFirst then equalityTest own far else equalityTest far own])
    (h : '.' ∉ own.table.toList ∧ '.' ∉ far.table.toList)
    (h' : '.' ∉ a.table.toList ∧ '.' ∉ b.table.toList) :
    join.Equates a b ↔ own = a ∧ far = b ∨ own = b ∧ far = a := by
  rw [Join.Equates, hon, List.singleton_inj, List.singleton_inj]
  cases ownFirst with
  | true =>
      rw [if_pos rfl, equalityTest_inj h h', equalityTest_inj h h'.symm]
  | false =>
      rw [if_neg Bool.false_ne_true, equalityTest_inj h.symm h', equalityTest_inj h.symm h'.symm,
        or_comm, and_comm (a := far = b), and_comm (a := far = a)]

/-- The connection of the tables that a relationship joins along. -/
def Mapping.connected (m : Mapping) (owner target : MappedClass) (r : MappedRelationship) :
    Except Error Connection := do
  connection (← r.foreignKey.mapM m.place) owner.mappedTable target.mappedTable

/-- A class that can be spoken of: its logical name stands for itself and can stand before a point,
and so can the name of its table. -/
structure MappedClass.Spoken (c : MappedClass) : Prop where
  name : IsQualifier c.logicalName
  stable : c.logicalName ≠ "" ∧ normalizeName c.logicalName = c.logicalName
  table : '.' ∉ c.table.toList

/-- A class is found under its spoken name. -/
theorem MappedClass.Spoken.lookupName? {c : MappedClass} (h : c.Spoken) (g : Registry) :
    g.lookupName? c.logicalName = g.find? c.logicalName := by
  show (if (Value.text c.logicalName).truthy then g.find? (normalizeName c.logicalName) else none) = _
  rw [h.stable.2]
  exact if_pos (by simpa [Value.truthy] using h.stable.1)

/-- A relationship along a foreign key, of classes that can be spoken of and along columns whose
names are read as names. -/
structure DirectRelationship (m : Mapping) (owner target : MappedClass) (r : MappedRelationship)
    (j : DirectJoin) : Prop where
  mem : owner ∈ m.classes ∧ r ∈ owner.relationships
  route : m.route owner r = .ok ⟨r, target, .direct j⟩
  owner : owner.Spoken
  target : target.Spoken
  attr : IsName r.attr
  own : j.own ≠ "" ∧ IsName j.own
  foreign : IsName j.foreign

/-- A direct join comes of the columns that connect the two tables. -/
theorem directJoin_connected {m : Mapping} {owner : MappedClass} {r : MappedRelationship}
    {target : MappedClass} {j : DirectJoin} (h : m.route owner r = .ok ⟨r, target, .direct j⟩) :
    ∃ c, m.connected owner target r = .ok c ∧ (r.remote = none → j = c.join) := by
  obtain ⟨meant, hmeant, remote, hremote, hjoin⟩ := (Mapping.leads_of_route h).way
  rw [directJoin] at hjoin
  obtain ⟨c, hc, hjoin⟩ := bind_eq_ok hjoin
  refine ⟨c, ?_, fun hnone => ?_⟩
  · rw [Mapping.connected, hmeant]
    exact hc
  · rw [hnone] at hremote
    obtain rfl := Except.ok.inj hremote
    exact (Except.ok.inj hjoin).symm

/-! ## The field of a relationship -/

section Direct

variable {r : MappedRelationship} {target : MappedClass} {j : DirectJoin}

/-- What a direct relationship becomes: a field of its name on its own column, which leads to the
other column. -/
theorem directField_spec (h : j.own ≠ "") :
    (directField r target j).name = r.attr ∧ (directField r target j).column = j.own ∧
      (directField r target j).link =
        if j.toOne then .belongsTo ⟨target.logicalName, j.foreign⟩
        else if r.uselist.getD true then .hasMany ⟨target.logicalName, j.foreign⟩
        else .hasOne ⟨target.logicalName, j.foreign⟩ := by
  rw [directField]
  split
  · exact ⟨rfl, if_neg h, rfl⟩
  · split
    · exact ⟨rfl, if_neg h, rfl⟩
    · exact ⟨rfl, if_neg h, rfl⟩

/-- Whatever its kind, it leads to the target by the other column. -/
theorem foreign?_directField (h : j.own ≠ "") :
    (directField r target j).link.foreign? = some ⟨target.logicalName, j.foreign⟩ := by
  rw [(directField_spec h).2.2]
  split
  · rfl
  · split
    · rfl
    · rfl

/-- A field along a foreign key has one join, whose sides are written as fields of the two models;
the side that holds the key is the relationship itself. -/
theorem fieldJoins_directField (scope : Scope) (model : String) (h : j.own ≠ "") :
    Builder.fieldJoins scope ((directField r target j).bind model) =
      [if j.toOne then
        Builder.leftJoined scope (.text target.logicalName) (dotted model r.attr)
          (dotted target.logicalName j.foreign)
      else
        Builder.leftJoined scope (.text target.logicalName) (dotted target.logicalName j.foreign)
          (dotted model j.own)] := by
  obtain ⟨hname, hcolumn, hlink⟩ := @directField_spec r target j h
  simp only [Builder.fieldJoins, Field.bind, hname, hcolumn, hlink]
  cases j.toOne with
  | true => simp only [if_true, Link.bind]
  | false =>
      cases r.uselist.getD true with
      | true => simp only [Bool.false_eq_true, if_false, if_true, Link.bind]
      | false => simp only [Bool.false_eq_true, if_false, Link.bind]

end Direct

/-! ## Joining -/

namespace Builder

/-- One relationship is one hop. -/
theorem hops_of_relationship {g : Registry} {m m' : Model} {attr name column : String} {f : Field}
    (hf : m.relationship? attr = some (f, ⟨name, column⟩))
    (hother : g.lookupName? name = some m') (chain : String) :
    hops g m chain [attr] = [⟨f, chain ++ String.singleton pathMark ++ f.name, m'⟩] := by
  rw [hops, hf]
  dsimp only
  rw [hother]
  rfl

variable {described : Mapping} {g : Registry} {owner target : MappedClass} {r : MappedRelationship}
  {j : DirectJoin} {b : Builder} {m m' : Model}

theorem table_leftJoined (scope : Scope) (table left right : Value) :
    (leftJoined scope table left right).table = scope.table table := rfl

theorem on_leftJoined (scope : Scope) (table left right : Value) :
    (leftJoined scope table left right).on =
      [⟨scope.column (some true) left, .text "=", scope.column (some true) right⟩] := rfl

theorem joins_adding (b : Builder) (select orderBy : List (Value × Value)) (joins : List Join) :
    (b.adding select joins orderBy).draft.joins = b.draft.joins ++ joins := rfl

/-- The model of the owner has the field of the relationship. -/
theorem field?_relationship (h : DirectRelationship described.settled owner target r j)
    (hm : described.settled.Registers owner m) :
    m.field? r.attr = some ((directField r target j).bind m.name) := by
  obtain ⟨route, found, hroute, hfield, hregistered⟩ := hm.relationships r h.mem.2
  obtain rfl := Except.ok.inj (h.route.symm.trans hroute)
  exact hregistered _ (Except.ok.inj hfield).symm

/-- The registered model has the relationship, and it leads to the target. -/
theorem relationship?_of_direct (h : DirectRelationship described.settled owner target r j)
    (hm : described.settled.Registers owner m) :
    m.relationship? r.attr =
      some ((directField r target j).bind m.name, ⟨target.logicalName, j.foreign⟩) := by
  have hforeign : ((directField r target j).bind m.name).link.foreign? =
      some ⟨target.logicalName, j.foreign⟩ := by
    rw [← foreign?_directField h.own.1]
    show ((directField r target j).link.bind m.name).foreign? = _
    cases (directField r target j).link <;> rfl
  rw [Model.relationship?, field?_relationship h hm]
  dsimp only
  rw [hforeign]
  rfl

/-- So loading the relationship adds the joins of this field. -/
theorem joins_eager_of_direct (h : DirectRelationship described.settled owner target r j)
    (hm : described.settled.Registers owner m)
    (htarget : b.registry.lookupName? target.logicalName = some m') :
    (b.eager m r.attr).draft.joins =
      b.draft.joins ++ fieldJoins b.scope ((directField r target j).bind m.name) := by
  have hsingle : Text.splitAt pathMark r.attr = [r.attr] := Text.splitAt_of_not_mem h.attr.unmarked
  have hhops := hops_of_relationship (relationship?_of_direct h hm) htarget m.name
  rw [eager_eq, hsingle, hhops, joins_adding, joinsOf, List.flatMap_singleton]

/-- A registered target is joined by its table. -/
theorem table_of_registered (hm' : described.settled.Registers target m')
    (htarget : b.registry.lookupName? target.logicalName = some m') :
    (b.scope.table (.text target.logicalName)).text? = some target.table := by
  have hnamed : b.registry.tableNamed target.logicalName = target.table := by
    rw [Registry.tableNamed, htarget]
    exact hm'.table
  exact (Scope.table_of_text (Value.text?_text target.logicalName) b.scope).trans
    (congrArg some hnamed)

/-- The model that is written as the target: its own, unless it is called like the owner's table. -/
def farModel (owner target : MappedClass) (m m' : Model) : Model :=
  if target.logicalName = owner.table then m else m'

/-- The own column of the join and that of the target, as their names are resolved. -/
def ownPlace (owner : MappedClass) (j : DirectJoin) (m : Model) : ColumnPlace :=
  ⟨owner.table, if j.toOne then j.own else m.stored j.own⟩

def farPlace (j : DirectJoin) (far : Model) : ColumnPlace := ⟨far.table, far.stored j.foreign⟩

/-- Loading a relationship along a foreign key joins the table of its target from the left, on the
columns that the names of the mapping come to. -/
theorem relationship_joined (h : DirectRelationship described.settled owner target r j)
    (hm : described.settled.Registers owner m) (hm' : described.settled.Registers target m')
    (howner : b.registry.lookupName? owner.logicalName = some m)
    (htarget : b.registry.lookupName? target.logicalName = some m') (hb : b.canonical = some m) :
    let own := ownPlace owner j m
    let far := farPlace j (farModel owner target m m')
    ∃ b' join, Call.run (.eager (.text r.attr)) b = .ok .done b' ∧
      b'.draft.joins = b.draft.joins ++ [join] ∧ join.table.text? = some target.table ∧
      join.asName = .null ∧ join.type = .text "LEFT" ∧
      join.on = [if j.toOne then equalityTest own far else equalityTest far own] := by
  intro own far
  -- both sides are resolved as fields of the models they are written with
  have hown : b.registry.lookupName? m.name = some m := hm.name ▸ howner
  have hname : IsQualifier m.name := hm.name ▸ h.owner.name
  have htable : m.table ≠ "" := hm.table ▸ hm.named
  have hself := @Scope.target?_of_canonical b.scope m m.name m hb hown hown
  rw [ite_self] at hself
  have hfar := @Scope.target?_of_canonical b.scope m' target.logicalName m hb hown htarget
  rw [hm.table, ← farModel] at hfar
  have hfartable : (farModel owner target m m').table ≠ "" := by
    rw [farModel]
    split
    · exact htable
    · exact hm'.table ▸ hm'.named
  have hattr : m.stored r.attr = j.own := by
    rw [Model.stored, field?_relationship h hm]
    exact (directField_spec h.own.1).2.1
  have hother := Scope.column_dotted hfar hfartable h.target.name h.foreign
  have hreference := Scope.column_dotted hself htable hname h.attr
  have hcolumn := Scope.column_dotted hself htable hname h.own.2
  rw [hattr] at hreference
  have hjoined := table_of_registered (b := b) hm' htarget
  have hjoins := joins_eager_of_direct (b := b) h hm htarget
  rw [fieldJoins_directField _ _ h.own.1] at hjoins
  refine ⟨b.eager m r.attr, ?_⟩
  cases htoOne : j.toOne with
  | true =>
      rw [htoOne, if_pos rfl] at hjoins
      refine ⟨_, run_eager hb r.attr, hjoins, table_leftJoined .. ▸ hjoined, rfl, rfl, ?_⟩
      rw [if_pos rfl, on_leftJoined, hreference, hother, hm.table]
      simp only [own, far, equalityTest, ownPlace, farPlace, htoOne, if_true]
  | false =>
      rw [htoOne, if_neg Bool.false_ne_true] at hjoins
      refine ⟨_, run_eager hb r.attr, hjoins, table_leftJoined .. ▸ hjoined, rfl, rfl, ?_⟩
      rw [if_neg Bool.false_ne_true, on_leftJoined, hother, hcolumn, hm.table]
      simp only [own, far, equalityTest, ownPlace, farPlace, htoOne, Bool.false_eq_true, if_false]

/-- **RELATIONSHIPS ARE JOINED**: loading a relationship along a foreign key joins the table of its
target once, from the left and on one equality of two columns.  They are those of the mapping
exactly if the names of the columns come back to themselves as fields of the two models, and the
target is not called like the owner's table. -/
theorem relationship_joined_iff (hregistry : described.registry = .ok g)
    (hnames : (described.settled.classes.map MappedClass.logicalName).Nodup)
    (h : DirectRelationship described.settled owner target r j) (hb : b.registry = g)
    (hcanonical : b.canonical = g.lookupName? owner.logicalName) :
    ∃ m m' c b' join, g.lookupName? owner.logicalName = some m ∧
      g.lookupName? target.logicalName = some m' ∧
      described.settled.connected owner target r = .ok c ∧ (r.remote = none → j = c.join) ∧
      Call.run (.eager (.text r.attr)) b = .ok .done b' ∧
      b'.draft.joins = b.draft.joins ++ [join] ∧ join.table.text? = some target.table ∧
      join.asName = .null ∧ join.type = .text "LEFT" ∧
      (join.Equates ⟨owner.table, c.join.own⟩ ⟨target.table, c.join.foreign⟩ ↔
        (owner.table ≠ target.table → target.logicalName ≠ owner.table) ∧
          let own := if j.toOne then j.own else m.stored j.own
          let far := m'.stored j.foreign
          (own = c.join.own ∧ far = c.join.foreign ∨
            owner.table = target.table ∧ own = c.join.foreign ∧ far = c.join.own)) := by
  subst hb
  obtain ⟨hcheck, -⟩ := Mapping.registrations_of_registry hregistry
  have htargetMem : target ∈ described.settled.classes := (Mapping.leads_of_route h.route).target
  obtain ⟨m, hfind, hm⟩ := Mapping.registers hregistry hnames h.mem.1
  obtain ⟨m', hfind', hm'⟩ := Mapping.registers hregistry hnames htargetMem
  obtain ⟨c, hc, hremote⟩ := directJoin_connected h.route
  have howner := (h.owner.lookupName? b.registry).trans hfind
  have htarget := (h.target.lookupName? b.registry).trans hfind'
  obtain ⟨b', join, hb', hjoins, htable, hname, htype, hon⟩ :=
    relationship_joined h hm hm' howner htarget (hcanonical.trans howner)
  refine ⟨m, m', c, b', join, howner, htarget, hc, hremote, hb', hjoins, htable, hname, htype, ?_⟩
  have hplaces := And.intro h.owner.table h.target.table
  by_cases hsame : owner.table = target.table
  · obtain rfl := Mapping.eq_of_table hcheck h.mem.1 htargetMem hsame
    obtain rfl := Option.some.inj (hfind.symm.trans hfind')
    rw [farModel, ite_self] at hon
    rw [Join.equates_iff hon (by rw [farPlace, hm.table]; exact hplaces) hplaces]
    simp only [ownPlace, farPlace, hm.table, ColumnPlace.mk.injEq, true_and, ne_eq, not_true,
      false_implies]
  · rw [farModel] at hon
    by_cases hcalled : target.logicalName = owner.table
    · -- both sides are columns of the owner
      rw [if_pos hcalled] at hon
      rw [Join.equates_iff hon (by rw [farPlace, hm.table]; exact ⟨hplaces.1, hplaces.1⟩) hplaces]
      simp only [ownPlace, farPlace, hm.table, ColumnPlace.mk.injEq, hsame, hcalled, false_and,
        and_false, or_self, ne_eq, not_false_eq_true, not_true, true_implies]
    · rw [if_neg hcalled] at hon
      rw [Join.equates_iff hon (by rw [farPlace, hm'.table]; exact hplaces) hplaces]
      simp only [ownPlace, farPlace, hm'.table, ColumnPlace.mk.injEq, hsame, hcalled, true_and,
        false_and, or_false, ne_eq, not_false_eq_true, true_implies]

/-- Users whose column `uid` is read as `id`, while `uid` is what their logins are read as. -/
def loginClass : MappedClass where
  name := "User"
  table := "users"
  columns := [⟨"id", "uid", none, true⟩, ⟨"uid", "login", none, false⟩]
  relationships := []

def authoredClass : MappedClass where
  name := "Post"
  table := "posts"
  columns := [⟨"id", "id", none, true⟩, ⟨"author_id", "author_id", some ⟨"users", "uid"⟩, false⟩]
  relationships := [{ attr := "author", target := "User" }]

def authoredPosts : Mapping := ⟨[], [authoredClass, loginClass]⟩

/-- This mapping has nothing left to settle. -/
theorem settled_authoredPosts : authoredPosts.settled = authoredPosts := by
  have hpost := Mapping.settled_of_kept (c := authoredClass) (by decide +kernel) (by decide +kernel)
  have huser := Mapping.settled_of_kept (c := loginClass) (by decide +kernel) (by decide +kernel)
  simp only [Mapping.settled, authoredPosts, List.map_cons, List.map_nil, hpost, huser]

/-- The author of a post is a direct relationship. -/
theorem author_relationship : DirectRelationship authoredPosts authoredClass loginClass
    { attr := "author", target := "User" } ⟨"author_id", "uid", true⟩ where
  mem := ⟨List.mem_cons_self, List.mem_cons_self⟩
  route := rfl
  owner := ⟨⟨⟨by decide, by decide⟩, by decide⟩, by decide, by decide⟩
  target := ⟨⟨⟨by decide, by decide⟩, by decide⟩, by decide, by decide⟩
  attr := ⟨by decide, by decide⟩
  own := ⟨by decide, by decide, by decide⟩
  foreign := ⟨by decide, by decide⟩

/-- Authors are joined by their logins. -/
theorem author_joined_by_login :
    ∃ g b b' join, authoredPosts.registry = .ok g ∧
      opened g (.text "post") .select = .ok b ∧
      Call.run (.eager (.text "author")) b = .ok .done b' ∧
      b'.draft.joins = b.draft.joins ++ [join] ∧
      ¬join.Equates ⟨"posts", "author_id"⟩ ⟨"users", "uid"⟩ := by
  -- a registry holds functions, so that only what is asked of it can be decided
  have hasked : (authoredPosts.registry.map fun g => ((g.lookupName? "post").isSome,
      (g.lookupName? "user").map fun m => m.stored "uid")).toOption = some (true, some "login") := by
    rw [Mapping.registry_of_sorted (by decide)]
    decide +kernel
  cases hregistry : authoredPosts.registry with
  | error e =>
      rw [hregistry] at hasked
      cases hasked
  | ok g =>
      rw [hregistry] at hasked
      obtain ⟨hsome, hstored⟩ := Prod.mk.inj (Option.some.inj hasked)
      obtain ⟨m, hm⟩ := Option.isSome_iff_exists.mp hsome
      obtain ⟨b, hopened, -, hbegins⟩ := opened_begins hm .select
      have hrelationship := author_relationship
      rw [← settled_authoredPosts] at hrelationship
      obtain ⟨m₀, m', c, b', join, -, hm', hc, hremote, hb', hjoins, -, -, -, hiff⟩ :=
        relationship_joined_iff (b := b) hregistry (by decide) hrelationship
          (opened_eq_ok hopened).1 (hbegins.canonical.trans hm.symm)
      refine ⟨g, b, b', join, rfl, hopened, hb', hjoins, fun hequates => ?_⟩
      rw [← hremote rfl] at hiff
      have huser : g.lookupName? "user" = some m' := hm'
      rw [huser] at hstored
      rcases (hiff.mp hequates).2 with ⟨-, hfar⟩ | ⟨htables, -⟩
      · exact absurd (hfar.symm.trans (Option.some.inj hstored)) (by decide)
      · exact absurd htables (by decide)

end Builder

end ModelQuery
