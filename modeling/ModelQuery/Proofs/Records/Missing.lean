import ModelQuery.Proofs.Records.Entries

/-!
# Relationships without a record

Where all columns of a relationship are null the record has nothing to hold under it.  The program
decides that from the fields it has made of those columns, not from the columns themselves, and one
kind of field is never nothing: the list, even the empty one, that a model with a factory is handed
for a relationship that leads to many.

So a relationship all of whose columns are null is held as empty exactly if no such list lies below
it (`missing_relationship`).  With a list below, a record is built of nulls alone, and the
relationship holds it as if it were there.
-/

namespace ModelQuery

open Outcome

/-! ## Trees of nulls -/

/-- All values are null, at whatever depth. -/
def Tree.AllNull (t : Tree) : Prop := ∀ path v, t.value? path = some v → v = .null

/-- In a tree without values the trees of relationships have none. -/
theorem Tree.AllNull.lookup {t c : Tree} {name : String} (h : t.AllNull)
    (hc : t.related.lookup name = some c) : c.AllNull := by
  intro path v hv
  cases path with
  | nil => cases hv
  | cons first rest =>
      refine h (name :: first :: rest) v ?_
      rw [value?_cons (List.cons_ne_nil first rest), hc]
      exact hv

/-- Some relationship below the root of the tree is held as a list. -/
def HoldsList (registry : Option Registry) (m : Option Model) (t : Tree) : Prop :=
  ∃ path name, (t.below? (path ++ [name])).isSome ∧
    wantsList (modelAlong registry m path) name = true

section

variable {registry : Option Registry} {m : Option Model} {t : Tree} {es : List (String × Record)}

/-- A list is held by a relationship of the root, or below one. -/
theorem holdsList_iff :
    HoldsList registry m t ↔
      ∃ name c, t.related.lookup name = some c ∧
        (wantsList m name = true ∨ HoldsList registry (relatedModel? registry m name) c) := by
  constructor
  · rintro ⟨path, name, hbelow, hwants⟩
    cases path with
    | nil =>
        obtain ⟨c, hc⟩ := Option.isSome_iff_exists.mp hbelow
        obtain ⟨c', hc', -⟩ := Option.bind_eq_some_iff.mp hc
        exact ⟨name, c', hc', .inl hwants⟩
    | cons first rest =>
        obtain ⟨c, hc⟩ := Option.isSome_iff_exists.mp hbelow
        obtain ⟨c', hc', hrest⟩ := Option.bind_eq_some_iff.mp hc
        refine ⟨first, c', hc', .inr ⟨rest, name, ?_, hwants⟩⟩
        exact Option.isSome_iff_exists.mpr ⟨c, hrest⟩
  · rintro ⟨name, c, hc, hwants | ⟨path, name', hbelow, hwants⟩⟩
    · refine ⟨[], name, ?_, hwants⟩
      show ((t.related.lookup name).bind (Tree.below? [])).isSome
      rw [hc]
      rfl
    · refine ⟨name :: path, name', ?_, hwants⟩
      show ((t.related.lookup name).bind (Tree.below? (path ++ [name']))).isSome
      rw [hc]
      exact hbelow

/-- What is absent is held as an empty list where a list is wanted, and else as absent. -/
theorem holding_absent (m : Option Model) (name : String) :
    holding m name .absent = if wantsList m name then .many [] else .absent := rfl

/-! ## Without a list below -/

/-- Nulls without a list among them come to fields of which none is there, whatever the factories
do: none of them is asked. -/
theorem unlisted_fields (ht : t.Ordered) (hnull : t.AllNull) (hlist : ¬ HoldsList registry m t) :
    ∃ es, t.entries registry m = .ok es ∧ somePresent es = false := by
  induction t using Tree.descend generalizing m with
  | step t ih =>
      have hrelated : ∀ name c, t.related.lookup name = some c →
          relationshipOf registry m name c = .ok .absent := by
        intro name c hc
        rw [holdsList_iff] at hlist
        have hwants : ¬ wantsList m name = true := fun h => hlist ⟨name, c, hc, .inl h⟩
        have hbelow : ¬ HoldsList registry (relatedModel? registry m name) c :=
          fun h => hlist ⟨name, c, hc, .inr h⟩
        obtain ⟨es, hes, habsent⟩ := ih name c hc (ht.lookup hc) (hnull.lookup hc) hbelow
        rw [relationshipOf_eq hes, habsent, holding_absent, if_neg hwants]
        rfl
      obtain ⟨es, hes⟩ := entries_isOk ht fun name c hc => ⟨_, hrelated name c hc⟩
      refine ⟨es, hes, ?_⟩
      rw [Bool.eq_false_iff]
      intro hpresent
      obtain ⟨name, r, hr, hthere⟩ := (somePresent_iff (entries_nodup ht hes)).mp hpresent
      -- under each name stands an absent record or a null
      cases hc : t.related.lookup name with
      | some c =>
          obtain ⟨r', hr', hlookup⟩ := lookup_relationship ht hes hc
          rw [hrelated name c hc] at hr'
          cases hr'
          rw [hlookup] at hr
          cases hr
          cases hthere
      | none =>
          rw [lookup_own ht hes hc] at hr
          obtain ⟨v, hv, rfl⟩ := Option.map_eq_some_iff.mp hr
          rw [hnull [name] v hv] at hthere
          cases hthere

/-- A relationship without values, and without lists, is absent. -/
theorem unlisted_relationship {name : String} {c : Tree} (hc : c.Ordered) (hnull : c.AllNull)
    (hlist : ¬ HoldsList registry (relatedModel? registry m name) c) :
    relationshipOf registry m name c = .ok (holding m name .absent) := by
  obtain ⟨es, hes, habsent⟩ := unlisted_fields hc hnull hlist
  rw [relationshipOf_eq hes, habsent]
  rfl

/-! ## With a list below -/

/-- With a list among nulls, the fields of some record below come out, and one of them is there. -/
theorem listed_fields (ht : t.Ordered) (hnull : t.AllNull) (hlist : HoldsList registry m t) :
    ∃ path c es, t.below? path = some c ∧
      c.entries registry (modelAlong registry m path) = .ok es ∧ somePresent es = true := by
  induction t using Tree.descend generalizing m with
  | step t ih =>
      by_cases hdeeper : ∃ name c, t.related.lookup name = some c ∧
          HoldsList registry (relatedModel? registry m name) c
      · obtain ⟨name, c, hc, hbelow⟩ := hdeeper
        obtain ⟨path, c', es, hpath, hes, hpresent⟩ :=
          ih name c hc (ht.lookup hc) (hnull.lookup hc) hbelow
        refine ⟨name :: path, c', es, ?_, hes, hpresent⟩
        rw [Tree.below?, hc]
        exact hpath
      · -- no list lies deeper, so the lists of the root itself hold nothing
        obtain ⟨name, c, hc, hwants | hbelow⟩ := holdsList_iff.mp hlist
        · have hrelated : ∀ name c, t.related.lookup name = some c →
              relationshipOf registry m name c = .ok (holding m name .absent) := by
            intro name c hc
            refine unlisted_relationship (ht.lookup hc) (hnull.lookup hc) ?_
            intro h
            exact hdeeper ⟨name, c, hc, h⟩
          obtain ⟨es, hes⟩ := entries_isOk ht fun name c hc => ⟨_, hrelated name c hc⟩
          refine ⟨[], t, es, rfl, hes, ?_⟩
          obtain ⟨r, hr, hlookup⟩ := lookup_relationship ht hes hc
          rw [hrelated name c hc, holding_absent, if_pos hwants] at hr
          cases hr
          exact (somePresent_iff (entries_nodup ht hes)).mpr ⟨name, _, hlookup, rfl⟩
        · exact absurd ⟨name, c, hc, hbelow⟩ hdeeper

/-- The factories of a model and of those its relationships lead to answer with something. -/
def Making : Option Registry → Option Model → Prop :=
  Along fun c => ∀ make es r, c.factory = some make → make es = .ok r → r.isPresent = true

/-- A factory that always answers with something answers so for a record. -/
theorem Making.build (h : Making registry m) {r : Record} (hr : buildRecord m es = .ok r) :
    r.isPresent = true := by
  cases m with
  | none =>
      cases hr
      rfl
  | some c =>
      rw [buildRecord, Model.build] at hr
      cases hf : c.factory with
      | none =>
          rw [hf] at hr
          cases hr
          rfl
      | some make =>
          rw [hf] at hr
          exact h [] c rfl make _ r hf hr

/-- What is present is held as something present. -/
theorem holding_isPresent {name : String} {r : Record} (h : r.isPresent = true) :
    (holding m name r).isPresent = true ∧ holding m name r ≠ holding m name .absent := by
  rw [holding_absent, holding, h]
  split
  · exact ⟨rfl, by simp⟩
  · refine ⟨h, ?_⟩
    rintro rfl
    cases h

/-- A list below the root makes one of the root's own fields be there: the list itself, or a record
built because of it. -/
theorem listed_present (ht : t.Ordered) (hmaking : Making registry m)
    (hlist : HoldsList registry m t) (hes : t.entries registry m = .ok es) :
    somePresent es = true := by
  induction t using Tree.descend generalizing m es with
  | step t ih =>
      obtain ⟨name, c, hc, hdown⟩ := holdsList_iff.mp hlist
      obtain ⟨r, hr, hlookup⟩ := lookup_relationship ht hes hc
      refine (somePresent_iff (entries_nodup ht hes)).mpr ⟨name, r, hlookup, ?_⟩
      obtain ⟨es', hes'⟩ := entries_of_relationshipOf hr
      rw [relationshipOf_eq hes'] at hr
      -- the field that leads to the list is there: as a record, or else as the list
      by_cases hpresent : somePresent es' = true
      · rw [if_pos hpresent] at hr
        obtain ⟨record, hrecord, rfl⟩ := map_eq_ok hr
        exact (holding_isPresent (Making.build (hmaking.further [name]) hrecord)).1
      · rw [if_neg hpresent] at hr
        cases hr
        rcases hdown with hwants | hbelow
        · rw [holding_absent, if_pos hwants]
          rfl
        · exact absurd (ih name c hc (ht.lookup hc) (hmaking.further [name]) hbelow hes') hpresent

/-- A relationship without values is there all the same if a list is held below it. -/
theorem listed_relationship {name : String} {c : Tree} {held : Record} (hc : c.Ordered)
    (hmaking : Making registry m)
    (hlist : HoldsList registry (relatedModel? registry m name) c)
    (hheld : relationshipOf registry m name c = .ok held) : held ≠ holding m name .absent := by
  obtain ⟨es, hes⟩ := entries_of_relationshipOf hheld
  have hpresent : somePresent es = true := listed_present hc (hmaking.further [name]) hlist hes
  rw [relationshipOf_eq hes, if_pos hpresent] at hheld
  obtain ⟨record, hrecord, rfl⟩ := map_eq_ok hheld
  exact (holding_isPresent (Making.build (hmaking.further [name]) hrecord)).2

/-- If the fields of the whole record come out, so do those of every record below. -/
theorem entries_below {path : List String} {c : Tree} (ht : t.Ordered)
    (hes : t.entries registry m = .ok es) (hc : t.below? path = some c) :
    ∃ es', c.entries registry (modelAlong registry m path) = .ok es' := by
  induction path generalizing t m es with
  | nil =>
      cases hc
      exact ⟨es, hes⟩
  | cons name rest ih =>
      obtain ⟨c', hc', hrest⟩ := Option.bind_eq_some_iff.mp hc
      obtain ⟨r, hr, -⟩ := lookup_relationship ht hes hc'
      obtain ⟨es', hes'⟩ := entries_of_relationshipOf hr
      exact ih (ht.lookup hc') hes' hrest

end

/-! ## Rows -/

section Rows

variable (registry : Option Registry) (m : Model) (cells : List (String × Value))
  (path : List String)

/-- The row has a column below the path. -/
def Labelled : Prop := ∃ e ∈ cells, ∃ rest, rest ≠ [] ∧ segments m e.1 = path ++ rest

/-- All columns of the row below the path are null. -/
def NullBelow : Prop :=
  ∀ e ∈ cells, ∀ rest, rest ≠ [] → segments m e.1 = path ++ rest → e.2 = .null

/-- Further down than the path, the row has columns of a relationship that is held as a list. -/
def ListBelow : Prop :=
  ∃ more name, Labelled m cells (path ++ more ++ [name]) ∧
    wantsList (modelAlong registry (some m) (path ++ more)) name = true

/-- The fields of the record at the end of a path, as its model builds it. -/
def fieldsAt : Except Error (List (String × Record)) :=
  (((treeOf m cells).below? path).getD .empty).entries registry
    (modelAlong registry (some m) path)

/-- A record is built at the end of a path: its fields come out, and one of them is there. -/
def BuiltAt : Prop := ∃ es, fieldsAt registry m cells path = .ok es ∧ somePresent es = true

variable {registry m cells path}

theorem below_of_labelled (h : Labelled m cells path) :
    ∃ c, (treeOf m cells).below? path = some c :=
  Option.isSome_iff_exists.mp (isSome_below?_treeOf.mpr (.inr h))

/-- The fields at the end of a path are the entries of the tree that stands there. -/
theorem fieldsAt_eq {c : Tree} (h : (treeOf m cells).below? path = some c) :
    fieldsAt registry m cells path = c.entries registry (modelAlong registry (some m) path) := by
  rw [fieldsAt, h]
  rfl

/-- Where all columns are null, the tree has no value. -/
theorem NullBelow.allNull {c : Tree} (h : NullBelow m cells path)
    (hc : (treeOf m cells).below? path = some c) : c.AllNull := by
  intro more v hv
  have hne : more ≠ [] := by
    rintro rfl
    cases hv
  have hrow : (treeOf m cells).value? (path ++ more) = some v := by
    rw [Tree.value?_append hne, hc]
    exact hv
  obtain ⟨e, he, hpath, rfl⟩ := value?_treeOf hrow
  exact h e he more hne hpath

/-- The row has a list below a path just if the tree there holds one. -/
theorem listBelow_iff {c : Tree} (hc : (treeOf m cells).below? path = some c) :
    ListBelow registry m cells path ↔
      HoldsList registry (modelAlong registry (some m) path) c := by
  have hbelow : ∀ more name, Labelled m cells (path ++ more ++ [name]) ↔
      (c.below? (more ++ [name])).isSome := by
    intro more name
    have hrow : (treeOf m cells).below? (path ++ (more ++ [name])) =
        c.below? (more ++ [name]) := by
      rw [Tree.below?_append, hc]
      rfl
    rw [← hrow, isSome_below?_treeOf, ← List.append_assoc]
    constructor
    · intro h
      exact .inr h
    · rintro (h | h)
      · simp at h
      · exact h
  rw [ListBelow, HoldsList]
  simp only [hbelow, modelAlong_append]

/-- A record that was loaded was built from the fields at every path. -/
theorem fieldsAt_isOk {row : Row} {r : Record} {c : Tree} (hrow : row.named = .ok cells)
    (h : loadRecord m registry row = .ok r) (hc : (treeOf m cells).below? path = some c) :
    ∃ es, fieldsAt registry m cells path = .ok es := by
  rw [loadRecord_eq hrow] at h
  obtain ⟨es, hes, -⟩ := bind_eq_ok h
  rw [fieldsAt_eq hc]
  exact entries_below (ordered_treeOf cells) hes hc

/-- Columns that are null below a path are null further down. -/
theorem NullBelow.further (h : NullBelow m cells path) (more : List String) :
    NullBelow m cells (path ++ more) := by
  intro e he rest hrest hpath
  refine h e he (more ++ rest) ?_ ?_
  · intro hnil
    exact hrest (List.append_eq_nil_iff.mp hnil).2
  · rw [hpath, List.append_assoc]

/-- A list that is held further down is held below the path. -/
theorem ListBelow.of_further {more : List String} (h : ListBelow registry m cells (path ++ more)) :
    ListBelow registry m cells path := by
  obtain ⟨more', name, hlabelled, hwants⟩ := h
  refine ⟨more ++ more', name, ?_, ?_⟩
  · rw [← List.append_assoc]
    exact hlabelled
  · rw [← List.append_assoc]
    exact hwants

/-- Nulls without a list below them have no record built of them. -/
theorem unlisted_unbuilt (hnull : NullBelow m cells path)
    (hlist : ¬ ListBelow registry m cells path) : ¬ BuiltAt registry m cells path := by
  rintro ⟨es, hes, hpresent⟩
  cases hc : (treeOf m cells).below? path with
  | none =>
      -- without columns there are no fields
      rw [fieldsAt, hc] at hes
      cases hes
      cases hpresent
  | some c =>
      have hno : ¬ HoldsList registry (modelAlong registry (some m) path) c :=
        fun h => hlist ((listBelow_iff hc).mpr h)
      obtain ⟨es', hes', habsent⟩ :=
        unlisted_fields ((ordered_treeOf cells).descendant hc) (hnull.allNull hc) hno
      rw [fieldsAt_eq hc, hes'] at hes
      cases hes
      rw [habsent] at hpresent
      cases hpresent

/-- Nulls with a list below them have a record built of them, there or further down. -/
theorem listed_built (hlabelled : Labelled m cells path) (hnull : NullBelow m cells path)
    (hlist : ListBelow registry m cells path) :
    ∃ more, BuiltAt registry m cells (path ++ more) := by
  obtain ⟨c, hc⟩ := below_of_labelled hlabelled
  obtain ⟨more, c', es, hmore, hes, hpresent⟩ :=
    listed_fields ((ordered_treeOf cells).descendant hc) (hnull.allNull hc)
      ((listBelow_iff hc).mp hlist)
  have hc' : (treeOf m cells).below? (path ++ more) = some c' := by
    rw [Tree.below?_append, hc]
    exact hmore
  refine ⟨more, es, ?_, hpresent⟩
  rw [fieldsAt_eq hc', modelAlong_append]
  exact hes

/-- **A RELATIONSHIP OF NULLS IS HELD AS EMPTY EXACTLY IF NO LIST LIES BELOW IT**: let all columns
of a row below a relationship be null.  A record is built there, or further down, just in case some
relationship further down is held as a list, as a model with a factory holds one that leads to many.
Whenever the row can be loaded, the record that has the relationship is built from fields that hold
the empty list or nothing under it if there is no list below, and something else if there is one and
the factories answer with something. -/
theorem missing_relationship {row : Row} {parent : List String} {name : String}
    (hrow : row.named = .ok cells) (hlabelled : Labelled m cells (parent ++ [name]))
    (hnull : NullBelow m cells (parent ++ [name])) :
    ((∃ more, BuiltAt registry m cells (parent ++ [name] ++ more)) ↔
      ListBelow registry m cells (parent ++ [name])) ∧
    ∀ r, loadRecord m registry row = .ok r →
      let empty : Record :=
        if wantsList (modelAlong registry (some m) parent) name then .many [] else .absent
      ∃ es, fieldsAt registry m cells parent = .ok es ∧
        (¬ ListBelow registry m cells (parent ++ [name]) → es.lookup name = some empty) ∧
        (ListBelow registry m cells (parent ++ [name]) → Making registry (some m) →
          ∃ held, es.lookup name = some held ∧ held ≠ empty) := by
  have ht : (treeOf m cells).Ordered := ordered_treeOf cells
  obtain ⟨c, hc⟩ := below_of_labelled hlabelled
  have hdown := hc
  rw [Tree.below?_append] at hdown
  obtain ⟨owner, howner, hname⟩ := Option.bind_eq_some_iff.mp hdown
  obtain ⟨c', hlookup, hself⟩ := Option.bind_eq_some_iff.mp hname
  cases hself
  have hmodel : modelAlong registry (some m) (parent ++ [name]) =
      relatedModel? registry (modelAlong registry (some m) parent) name := modelAlong_append ..
  have hlists : ListBelow registry m cells (parent ++ [name]) ↔ _ := listBelow_iff hc
  rw [hmodel] at hlists
  constructor
  · constructor
    · rintro ⟨more, hbuilt⟩
      refine Classical.byContradiction fun hno => ?_
      exact unlisted_unbuilt (hnull.further more) (fun h => hno h.of_further) hbuilt
    · exact listed_built hlabelled hnull
  · intro r hr empty
    obtain ⟨es, hes⟩ := fieldsAt_isOk hrow hr howner
    have hfields := hes
    rw [fieldsAt_eq howner] at hfields
    obtain ⟨held, hheld, hfound⟩ := lookup_relationship (ht.descendant howner) hfields hlookup
    refine ⟨es, hes, ?_, ?_⟩
    · intro hno
      rw [unlisted_relationship (ht.descendant hc) (hnull.allNull hc)
        (fun h => hno (hlists.mpr h))] at hheld
      cases hheld
      exact hfound
    · intro hlist hmaking
      refine ⟨held, hfound, ?_⟩
      exact listed_relationship (ht.descendant hc) (hmaking.further parent) (hlists.mp hlist) hheld

end Rows

/-! ## A list below nulls -/

/-- Posts with their author. -/
def authoredPost : Model :=
  { name := "post", table := "posts"
    fields := .ofList
      [.plain "id" "" true "post", .belongsTo "author" "" true "post" ⟨"user", "id"⟩]
    sorting := [], loadWith := [], group := defaultGroup, primaryKey := "id", factory := none }

/-- Users with their posts, whose records a factory builds. -/
def writingUser : Model :=
  { name := "user", table := "users"
    fields := .ofList
      [.plain "id" "" true "user", .hasMany "posts" "" false "user" ⟨"post", "author_id"⟩]
    sorting := [], loadWith := [], group := defaultGroup, primaryKey := "id"
    factory := some (Record.keeping "user") }

/-- The two models. -/
def writing : Registry := .ofModels [authoredPost, writingUser]

/-- The columns of a post that has no author. -/
def unauthored : List (String × Value) :=
  [("id", .int 1), ("post:author:id", .null), ("post:author:posts:id", .null)]

/-- The row of a post that has no author. -/
def unauthoredRow : Row := unauthored.map fun e => (.text e.1, e.2)

/-- The author of a post without one is built of nulls, for the author's posts are held as a
list. -/
theorem missing_author_built :
    (∃ more, BuiltAt (some writing) authoredPost unauthored (["author"] ++ more)) ∧
    ∃ es, fieldsAt (some writing) authoredPost unauthored [] = .ok es ∧
      ∃ held, es.lookup "author" = some held ∧ held ≠ .absent := by
  have hrow : unauthoredRow.named = .ok unauthored := rfl
  have hlabelled : Labelled authoredPost unauthored ([] ++ ["author"]) :=
    ⟨("post:author:id", .null), .tail _ (.head _), ["id"], List.cons_ne_nil _ _, rfl⟩
  have hnull : NullBelow authoredPost unauthored ([] ++ ["author"]) := by
    intro e he rest hrest hpath
    rcases he with _ | ⟨_, _ | ⟨_, _ | ⟨_, he⟩⟩⟩
    · have hown : ["id"] = "author" :: rest := hpath
      exact absurd (List.cons.inj hown).1 (by decide)
    · rfl
    · rfl
    · cases he
  have hlist : ListBelow (some writing) authoredPost unauthored ([] ++ ["author"]) :=
    ⟨[], "posts", ⟨("post:author:posts:id", .null), .tail _ (.tail _ (.head _)), ["id"],
      List.cons_ne_nil _ _, rfl⟩, rfl⟩
  have hmaking : Making (some writing) (some authoredPost) := by
    intro path c hc make es r hmake hr
    have hmem : c ∈ [authoredPost, writingUser] := by
      rcases modelAlong_mem hc with rfl | ⟨registry, hsome, hmem⟩
      · exact .head _
      · cases hsome
        exact hmem
    rcases hmem with _ | ⟨_, _ | ⟨_, hmem⟩⟩
    · cases hmake
    · cases hmake
      cases hr
      rfl
    · cases hmem
  have hid : pathOf authoredPost "id" = ("id", []) := rfl
  have hauthor : pathOf authoredPost "post:author:id" = ("author", ["id"]) := rfl
  have hposts : pathOf authoredPost "post:author:posts:id" = ("author", ["posts", "id"]) := rfl
  have htree : treeOf authoredPost unauthored = .node [("id", .int 1)]
      [("author", .node [("id", .null)] [("posts", .node [("id", .null)] [])])] := by
    rw [treeOf, unauthored]
    simp only [List.foldl_cons, List.foldl_nil, hid, hauthor, hposts]
    rfl
  have hload : loadRecord authoredPost (some writing) unauthoredRow =
      .ok (.fields [("id", .cell (.int 1)),
        ("author", .object "user" [("id", .cell .null), ("posts", .many [])])]) := by
    rw [loadRecord_eq hrow, htree]
    rfl
  have h := @missing_relationship (some writing) authoredPost unauthored unauthoredRow [] "author"
    hrow hlabelled hnull
  obtain ⟨es, hes, -, hheld⟩ := h.2 _ hload
  exact ⟨h.1.mpr hlist, es, hes, hheld hlist hmaking⟩

end ModelQuery
