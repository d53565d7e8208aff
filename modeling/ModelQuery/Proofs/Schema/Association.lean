import ModelQuery.Proofs.Schema.Mapped

/-!
# The keys of an association table

A relationship through an association table joins along two of its foreign keys.  The mapping says
which: each side is joined along the columns its join equates.  The field of the relationship is
made without a look at the joins, from the foreign keys alone, and these come in any order.

So the field is the same in every order, and joins as the mapping says, exactly if the two sides are
different tables and the association table has one foreign key to each of them, the one that is
joined along (`association_keys_found_iff`).
-/

namespace ModelQuery

open Outcome

/-! ## Looking at foreign keys -/

/-- The foreign keys that point to a table, as keys of an association. -/
def keysOf (table : String) (keys : List (String × ForeignKey)) : List AssociationKey :=
  (keys.filter fun key => key.2.table == table).map fun key => ⟨key.1, key.2.column⟩

/-- The foreign keys of a table that point to another. -/
def MappedTable.keysOf (t : MappedTable) (table : String) : List AssociationKey :=
  ModelQuery.keysOf table t.foreignKeys

section Keys

variable {owner target : String} {keys : List (String × ForeignKey)} {own far : AssociationKey}

theorem keysOf_cons (table : String) (key : String × ForeignKey) :
    keysOf table (key :: keys) =
      if key.2.table = table then ⟨key.1, key.2.column⟩ :: keysOf table keys
      else keysOf table keys := by
  rw [keysOf, List.filter_cons]
  by_cases h : key.2.table = table
  · rw [if_pos h, beq_iff_eq.mpr h]
    rfl
  · rw [if_neg h, beq_false_of_ne h]
    rfl

theorem keysOf_reverse (table : String) (keys : List (String × ForeignKey)) :
    keysOf table keys.reverse = (keysOf table keys).reverse := by
  rw [keysOf, List.filter_reverse, List.map_reverse]
  rfl

/-- The order of the keys does not change which are found. -/
theorem keysOf_perm {keys' : List (String × ForeignKey)} (table : String) (h : keys'.Perm keys) :
    (keysOf table keys').Perm (keysOf table keys) :=
  (h.filter _).map _

/-- Foreign keys of different columns are different keys. -/
theorem keysOf_nodup (table : String) (h : (keys.map Prod.fst).Nodup) :
    (keysOf table keys).Nodup := by
  have hthrough : ((keysOf table keys).map AssociationKey.through).Sublist (keys.map Prod.fst) := by
    rw [keysOf, List.map_map]
    exact List.filter_sublist.map Prod.fst
  exact (hthrough.nodup h).of_map _

theorem getLast?_cons_or {α : Type} (a : α) (as : List α) (b : Option α) :
    (a :: as).getLast?.or b = as.getLast?.or (some a) := by
  rw [List.getLast?_cons]
  cases as.getLast? with
  | none => rfl
  | some _ => rfl

/-- Between different tables the first key to the owner is its own, and the last to the target leads
there. -/
theorem foldl_look_of_ne (h : owner ≠ target) (acc : AssociationKeys) :
    keys.foldl (AssociationKeys.look owner target) acc =
      ⟨acc.own.or (keysOf owner keys).head?, (keysOf target keys).getLast?.or acc.foreign⟩ := by
  induction keys generalizing acc with
  | nil =>
      obtain ⟨own, foreign⟩ := acc
      cases own with
      | none => rfl
      | some _ => rfl
  | cons key rest ih =>
      obtain ⟨column, fk⟩ := key
      rw [List.foldl_cons, ih, keysOf_cons, keysOf_cons, AssociationKeys.look]
      dsimp only
      by_cases howner : fk.table = owner
      · have htarget : fk.table ≠ target := fun heq => h (howner.symm.trans heq)
        rw [if_pos howner, if_neg htarget, if_neg htarget]
        cases hown : acc.own with
        | none =>
            rw [if_pos ⟨rfl, howner⟩]
            rfl
        | some a =>
            rw [if_neg (fun hand => nomatch hand.1), hown]
            rfl
      · rw [if_neg howner, if_neg (fun hand => howner hand.2)]
        by_cases htarget : fk.table = target
        · rw [if_pos htarget, if_pos htarget, getLast?_cons_or]
        · rw [if_neg htarget, if_neg htarget]

/-- Within one table the first key is the owner's, and the last of all others leads to the
target. -/
theorem foldl_look_same (table : String) (acc : AssociationKeys) :
    keys.foldl (AssociationKeys.look table table) acc =
      match acc.own with
      | some a => ⟨some a, (keysOf table keys).getLast?.or acc.foreign⟩
      | none => ⟨(keysOf table keys).head?, (keysOf table keys).tail.getLast?.or acc.foreign⟩ := by
  induction keys generalizing acc with
  | nil =>
      obtain ⟨own, foreign⟩ := acc
      cases own with
      | none => rfl
      | some _ => rfl
  | cons key rest ih =>
      obtain ⟨column, fk⟩ := key
      rw [List.foldl_cons, ih, keysOf_cons, AssociationKeys.look]
      dsimp only
      by_cases htable : fk.table = table
      · rw [if_pos htable, if_pos htable]
        cases hown : acc.own with
        | none =>
            rw [if_pos ⟨rfl, htable⟩]
            rfl
        | some a =>
            rw [if_neg (fun hand => nomatch hand.1)]
            dsimp only
            rw [getLast?_cons_or]
      · rw [if_neg htable, if_neg htable, if_neg (fun hand => htable hand.2)]

/-- A list without repetition that begins and ends with the same has nothing else. -/
theorem eq_singleton_of_ends {α : Type} {a : α} {as : List α} (h : as.Nodup)
    (hfirst : as.head? = some a) (hlast : as.getLast? = some a) : as = [a] := by
  cases as with
  | nil => cases hfirst
  | cons b rest =>
      cases hfirst
      cases rest with
      | nil => rfl
      | cons c more =>
          rw [List.getLast?_cons_cons] at hlast
          exact absurd (List.mem_of_getLast? hlast) (List.nodup_cons.mp h).1

/-- Keys that are found from both ends are those of two different tables, each pointed to once. -/
theorem keysOf_of_found (h : (keys.map Prod.fst).Nodup)
    (hkeys : associationKeys owner target keys = ⟨some own, some far⟩)
    (hreverse : associationKeys owner target keys.reverse = ⟨some own, some far⟩) :
    owner ≠ target ∧ keysOf owner keys = [own] ∧ keysOf target keys = [far] := by
  rw [associationKeys] at hkeys hreverse
  by_cases hne : owner = target
  · -- both ends of the same keys would be the owner's
    subst hne
    rw [foldl_look_same] at hkeys hreverse
    dsimp only at hkeys hreverse
    rw [AssociationKeys.mk.injEq] at hkeys hreverse
    rw [keysOf_reverse, List.head?_reverse] at hreverse
    have hsingle := eq_singleton_of_ends (keysOf_nodup owner h) hkeys.1 hreverse.1
    rw [hsingle] at hkeys
    cases hkeys.2
  · rw [foldl_look_of_ne hne, AssociationKeys.mk.injEq] at hkeys hreverse
    rw [keysOf_reverse, keysOf_reverse, List.head?_reverse, List.getLast?_reverse] at hreverse
    rw [Option.none_or, Option.or_none] at hkeys hreverse
    exact ⟨hne, eq_singleton_of_ends (keysOf_nodup owner h) hkeys.1 hreverse.1,
      eq_singleton_of_ends (keysOf_nodup target h) hreverse.2 hkeys.2⟩

/-- Such keys are found in any order. -/
theorem associationKeys_of_perm {keys' : List (String × ForeignKey)} (hne : owner ≠ target)
    (hown : keysOf owner keys = [own]) (hfar : keysOf target keys = [far])
    (hperm : keys'.Perm keys) : associationKeys owner target keys' = ⟨some own, some far⟩ := by
  have hown' := List.perm_singleton.mp (hown ▸ keysOf_perm owner hperm)
  have hfar' := List.perm_singleton.mp (hfar ▸ keysOf_perm target hperm)
  rw [associationKeys, foldl_look_of_ne hne, hown', hfar']
  rfl

/-- What was found is there. -/
theorem mem_of_associationKeys (h : associationKeys owner target keys = ⟨some own, some far⟩) :
    own ∈ keysOf owner keys ∧ far ∈ keysOf target keys := by
  rw [associationKeys] at h
  by_cases hne : owner = target
  · subst hne
    rw [foldl_look_same, AssociationKeys.mk.injEq, Option.or_none] at h
    exact ⟨List.mem_of_head? h.1, List.mem_of_mem_tail (List.mem_of_getLast? h.2)⟩
  · rw [foldl_look_of_ne hne, AssociationKeys.mk.injEq, Option.none_or, Option.or_none] at h
    exact ⟨List.mem_of_head? h.1, List.mem_of_getLast? h.2⟩

end Keys

/-! ## The field of a relationship -/

/-- The table has a name, and so have the columns of its foreign keys and those they point to. -/
structure MappedTable.Named (t : MappedTable) : Prop where
  name : t.name ≠ ""
  keys : ∀ key ∈ t.foreignKeys, key.1 ≠ "" ∧ key.2.column ≠ ""

/-- The field joins through the table along two of its keys, whatever model it is bound to. -/
def Field.Along (f : Field) (target : MappedClass) (t : MappedTable) (own far : AssociationKey) :
    Prop :=
  ∀ model, (f.bind model).column = own.column ∧
    (f.bind model).link =
      .manyToMany ⟨normalizeName target.name, far.column⟩ ⟨t.name, own.through, far.through⟩

/-- In whatever order the columns of the association table come, the relationship becomes a field
that joins along two of its keys. -/
def FoundInAnyOrder (m : Mapping) (owner : MappedClass) (r : MappedRelationship)
    (target : MappedClass) (t : MappedTable) (own far : AssociationKey) : Prop :=
  ∀ t' : MappedTable, t'.name = t.name → t'.columns.Perm t.columns →
    ∃ f, relationshipField m owner ⟨r, target, .through t'⟩ = .ok (some f) ∧
      f.Along target t own far

section Fields

variable {owner target : MappedClass} {t : MappedTable} {own far : AssociationKey}

theorem MappedTable.foreignKeys_nodup (h : (t.columns.map (·.name)).Nodup) :
    (t.foreignKeys.map Prod.fst).Nodup := by
  have hsublist (columns : List TableColumn) :
      ((columns.filterMap fun c => c.foreignKey.map fun fk => (c.name, fk)).map Prod.fst).Sublist
        (columns.map (·.name)) := by
    induction columns with
    | nil => exact List.Sublist.refl []
    | cons c rest ih =>
        obtain ⟨name, foreignKey⟩ := c
        cases foreignKey with
        | none => exact ih.cons name
        | some fk => exact ih.cons_cons name
  exact (hsublist t.columns).nodup h

theorem MappedTable.foreignKeys_perm {t' : MappedTable} (h : t'.columns.Perm t.columns) :
    t'.foreignKeys.Perm t.foreignKeys :=
  h.filterMap _

/-- The order of the columns matters neither for the names nor for the keys. -/
theorem MappedTable.Named.of_perm {t' : MappedTable} (h : t.Named) (hname : t'.name = t.name)
    (hperm : t'.columns.Perm t.columns) : t'.Named :=
  ⟨hname ▸ h.name, fun key hkey => h.keys key ((foreignKeys_perm hperm).mem_iff.mp hkey)⟩

/-- A key of a table whose columns have names has names on both sides. -/
theorem MappedTable.Named.key_ne (h : t.Named) {table : String} {key : AssociationKey}
    (hkey : key ∈ t.keysOf table) : key.through ≠ "" ∧ key.column ≠ "" := by
  obtain ⟨fk, hfk, rfl⟩ := List.mem_map.mp hkey
  exact h.keys fk (List.mem_filter.mp hfk).1

/-- A field goes along two keys just if these are the association's keys. -/
theorem throughField_along (attr : String) (h : t.Named) :
    (∃ f, throughField attr owner target t = .ok (some f) ∧ f.Along target t own far) ↔
      associationKeys owner.table target.table t.foreignKeys = ⟨some own, some far⟩ := by
  have hfield {own far : AssociationKey}
      (hfound : associationKeys owner.table target.table t.foreignKeys = ⟨some own, some far⟩) :
      ∃ f, throughField attr owner target t = .ok (some f) ∧ f.Along target t own far := by
    obtain ⟨hown, hfar⟩ := mem_of_associationKeys hfound
    rw [throughField, hfound]
    dsimp only
    rw [Field.manyToMany, if_neg h.name]
    refine ⟨_, rfl, fun model => ⟨orElse_of_ne (h.key_ne hown).2, ?_⟩⟩
    show Link.manyToMany _ ⟨t.name, orElse own.through _, orElse far.through _⟩ = _
    rw [orElse_of_ne (h.key_ne hown).1, orElse_of_ne (h.key_ne hfar).1]
  constructor
  · rintro ⟨f, hf, halong⟩
    have hf' := hf
    rw [throughField] at hf'
    split at hf'
    · rename_i own' far' hown' hfar'
      -- the field that was made joins along the keys that were found
      have hfound : associationKeys owner.table target.table t.foreignKeys =
          ⟨some own', some far'⟩ := by rw [← hown', ← hfar']
      obtain ⟨g, hg, hthere⟩ := hfield hfound
      cases hf.symm.trans hg
      have hcolumn := (halong "").1.symm.trans (hthere "").1
      have hlink := (halong "").2.symm.trans (hthere "").2
      cases own
      cases far
      cases own'
      cases far'
      cases hcolumn
      cases hlink
      exact hfound
    · cases hf'
  · exact hfield

/-- The foreign keys of the association table point to columns that are there. -/
theorem relationshipField_through {m : Mapping} {r : MappedRelationship}
    (hkeys : ∀ key ∈ t.foreignKeys, m.checkKey key.2 = .ok ()) :
    relationshipField m owner ⟨r, target, .through t⟩ = throughField r.attr owner target t := by
  rw [relationshipField]
  dsimp only
  rw [show (t.foreignKeys.forM fun x => m.checkKey x.2) = .ok () from forM_eq_ok_iff.mpr hkeys]
  rfl

/-- In whatever order the columns stand, the two keys are found just if the tables differ and these
are the only keys to each. -/
theorem foundInAnyOrder_iff {m : Mapping} {r : MappedRelationship} (h : t.Named)
    (hcolumns : (t.columns.map (·.name)).Nodup)
    (hkeys : ∀ key ∈ t.foreignKeys, m.checkKey key.2 = .ok ()) :
    FoundInAnyOrder m owner r target t own far ↔
      owner.table ≠ target.table ∧ t.keysOf owner.table = [own] ∧ t.keysOf target.table = [far] := by
  have hkeys' {t' : MappedTable} (hperm : t'.columns.Perm t.columns) :
      ∀ key ∈ t'.foreignKeys, m.checkKey key.2 = .ok () := fun key hkey =>
    hkeys key ((MappedTable.foreignKeys_perm hperm).mem_iff.mp hkey)
  have hfound {t' : MappedTable} (hname : t'.name = t.name) (hperm : t'.columns.Perm t.columns) :
      (∃ f, relationshipField m owner ⟨r, target, .through t'⟩ = .ok (some f) ∧
          f.Along target t own far) ↔
        associationKeys owner.table target.table t'.foreignKeys = ⟨some own, some far⟩ := by
    rw [relationshipField_through (hkeys' hperm), ← throughField_along r.attr (h.of_perm hname hperm)]
    simp only [Field.Along, hname]
  constructor
  · intro hall
    refine keysOf_of_found (MappedTable.foreignKeys_nodup hcolumns) ?_ ?_
    · exact (hfound rfl (List.Perm.refl _)).mp (hall t rfl (List.Perm.refl _))
    · have hperm := t.columns.reverse_perm
      have hreverse := (@hfound ⟨t.name, t.columns.reverse⟩ rfl hperm).mp (hall _ rfl hperm)
      rw [MappedTable.foreignKeys, List.filterMap_reverse] at hreverse
      exact hreverse
  · rintro ⟨hne, hown, hfar⟩ t' hname hperm
    exact (hfound hname hperm).mpr
      (associationKeys_of_perm hne hown hfar (MappedTable.foreignKeys_perm hperm))

end Fields

/-! ## What the joins of a relationship equate -/

/-- The columns that a connection of a side with its association table equates. -/
def Connection.key (c : Connection) : AssociationKey :=
  if c.forward then ⟨c.referred, c.column⟩ else ⟨c.column, c.referred⟩

/-- The connections of two tables are the foreign keys that lead back, and others that lead
forth. -/
theorem of_connections {meant : Option ColumnPlace} {a b : MappedTable} {cs : List Connection}
    (h : connections meant a b = .ok cs) :
    ∃ back forth, b.keysTo a meant = .ok back ∧
      cs = back.map (fun key => ⟨key.1, key.2.column, false⟩) ++ forth ∧
      ∀ c ∈ forth, c.forward = true := by
  rw [connections] at h
  obtain ⟨back, hback, h⟩ := bind_eq_ok h
  have hforth {forth : List (String × ForeignKey)} :
      ∀ c ∈ forth.map fun key => (⟨key.1, key.2.column, true⟩ : Connection), c.forward = true := by
    intro c hc
    obtain ⟨key, -, rfl⟩ := List.mem_map.mp hc
    rfl
  dsimp only at h
  split at h
  · cases h
    exact ⟨back, _, hback, rfl, nofun⟩
  · obtain ⟨forth, -, h⟩ := bind_eq_ok h
    cases h
    exact ⟨back, _, hback, rfl, hforth⟩

/-- The keys that lead to a table are its keys in the association. -/
theorem keysTo_eq {t other : MappedTable} {keys : List (String × ForeignKey)}
    (h : t.keysTo other none = .ok keys) :
    keys.map (fun key => ⟨key.1, key.2.column⟩) = t.keysOf other.name := by
  rw [MappedTable.keysTo] at h
  have hsame : ∀ key key' : String × ForeignKey,
      (if other.has key.2.column then Except.ok key else .error Error.noReferredColumn) = .ok key' →
        (⟨key'.1, key'.2.column⟩ : AssociationKey) = ⟨key.1, key.2.column⟩ := by
    intro key key' hkey
    split at hkey
    · cases hkey
      rfl
    · cases hkey
  rw [map_of_mapM h hsame, MappedTable.keysOf, ModelQuery.keysOf]
  congr 1
  exact List.filter_congr fun key _ => Bool.and_true _

/-- The columns of a connection are those of the only foreign key to a side, unless it leads the
other way. -/
theorem keysOf_connection_iff {side t : MappedTable} {c : Connection}
    (h : connection none side t = .ok c) : t.keysOf side.name = [c.key] ↔ c.forward = false := by
  rw [connection] at h
  obtain ⟨cs, hcs, h⟩ := bind_eq_ok h
  obtain ⟨back, forth, hback, rfl, hforth⟩ := of_connections hcs
  rw [← keysTo_eq hback]
  cases back with
  | nil =>
      cases forth with
      | nil => cases h
      | cons c' rest =>
          cases rest with
          | nil =>
              obtain rfl := Except.ok.inj h
              rw [hforth c' List.mem_cons_self]
              exact ⟨nofun, nofun⟩
          | cons c'' more => cases h
  | cons key rest =>
      cases hrest : rest.map (fun key => (⟨key.1, key.2.column, false⟩ : Connection)) ++ forth with
      | nil =>
          rw [List.map_cons, List.cons_append, hrest] at h
          obtain rfl := Except.ok.inj h
          rw [List.map_eq_nil_iff.mp (List.append_eq_nil_iff.mp hrest).1]
          exact ⟨fun _ => rfl, fun _ => rfl⟩
      | cons c' more =>
          rw [List.map_cons, List.cons_append, hrest] at h
          cases h

/-- **KEYS OF THE ASSOCIATION TABLE**: whatever two keys the joins of a relationship equate -- those
of the connections, where the joins are not written out --, its field joins along them for every
order of the foreign keys exactly if the sides are different tables and these are the only foreign
keys to them.  Then an opposite relationship joins along the same keys the other way around. -/
theorem association_keys_found_iff {described : Mapping} {g : Registry} {owner target : MappedClass}
    {r : MappedRelationship} {t : MappedTable} (hregistry : described.registry = .ok g)
    (howner : owner ∈ described.settled.classes) (hr : r ∈ owner.relationships)
    (hroute : described.settled.route owner r = .ok ⟨r, target, .through t⟩) (ht : t.Named) :
    let m := described.settled
    (∀ own far, FoundInAnyOrder m owner r target t own far ↔
        owner.table ≠ target.table ∧ t.keysOf owner.table = [own] ∧
          t.keysOf target.table = [far]) ∧
      (∀ own far r', FoundInAnyOrder m owner r target t own far ↔
        FoundInAnyOrder m target r' owner t far own) ∧
      (r.ownWritten = false → r.farWritten = false → r.foreignKey = none →
        ∃ c c', connection none owner.mappedTable t = .ok c ∧
          connection none target.mappedTable t = .ok c' ∧
          (FoundInAnyOrder m owner r target t c.key c'.key ↔
            owner.table ≠ target.table ∧ c.forward = false ∧ c'.forward = false)) := by
  intro m
  obtain ⟨hcheck, registrations, -, -, hclasses⟩ := Mapping.registrations_of_registry hregistry
  obtain ⟨routes, x, -, hroutes, hregistration⟩ := hclasses owner howner
  obtain ⟨related, hrelated, -⟩ := Mapping.of_registration hregistration
  obtain ⟨meant, hmeant, hthrough, hconnected⟩ := (Mapping.leads_of_route hroute).way
  have hcolumns := Mapping.nodup_of_check hcheck hthrough
  have hkeys : ∀ key ∈ t.foreignKeys, m.checkKey key.2 = .ok () := by
    obtain ⟨route, hmem, hroute'⟩ := mem_of_mapM hroutes hr
    obtain rfl := Except.ok.inj (hroute.symm.trans hroute')
    obtain ⟨found, -, hfield⟩ := mem_of_mapM hrelated hmem
    obtain ⟨done, hkeys, -⟩ := bind_eq_ok hfield
    exact forM_eq_ok_iff.mp hkeys
  have hfound {own far : AssociationKey} :=
    @foundInAnyOrder_iff owner target t own far m r ht hcolumns hkeys
  refine ⟨fun own far => hfound, fun own far r' => ?_, fun hown hfar hmeant' => ?_⟩
  · rw [hfound, foundInAnyOrder_iff ht hcolumns hkeys, ne_comm, and_comm (a := _ = [own])]
  · rw [hmeant'] at hmeant
    obtain rfl := Except.ok.inj hmeant
    rw [checkAssociation, hown, hfar] at hconnected
    have hboth : (connection none target.mappedTable t >>= fun _ =>
        connection none owner.mappedTable t >>= fun _ => pure ()) = .ok () := by
      rw [← hconnected]
      cases connection none target.mappedTable t with
      | error e => rfl
      | ok c' => rfl
    obtain ⟨c', hc', hboth⟩ := bind_eq_ok hboth
    obtain ⟨c, hc, -⟩ := bind_eq_ok hboth
    refine ⟨c, c', hc, hc', ?_⟩
    rw [hfound, ← keysOf_connection_iff hc, ← keysOf_connection_iff hc']
    rfl

/-- Tags that posts are joined with by their slugs, next to a foreign key to the posts. -/
def postTags : MappedTable where
  name := "post_tags"
  columns := [⟨"post_slug", none⟩, ⟨"post_id", some ⟨"posts", "id"⟩⟩, ⟨"tag_id", some ⟨"tags", "id"⟩⟩]

def tagsOfPost : MappedRelationship :=
  { attr := "tags", target := "Tag", secondary := some "post_tags"
    ownWritten := true, farWritten := true }

def postClass : MappedClass where
  name := "Post"
  table := "posts"
  columns := [⟨"id", "id", none, true⟩, ⟨"slug", "slug", none, false⟩]
  relationships := [tagsOfPost]

def tagClass : MappedClass where
  name := "Tag"
  table := "tags"
  columns := [⟨"id", "id", none, true⟩]
  relationships := []

def taggedPosts : Mapping := ⟨[postTags], [postClass, tagClass]⟩

/-- The field of a join by slugs joins by the foreign key, in any order. -/
theorem posts_joined_by_foreign_key :
    ∃ g, taggedPosts.registry = .ok g ∧
      FoundInAnyOrder taggedPosts.settled postClass.settled tagsOfPost tagClass.settled postTags
        ⟨"post_id", "id"⟩ ⟨"tag_id", "id"⟩ ∧
      ¬FoundInAnyOrder taggedPosts.settled postClass.settled tagsOfPost tagClass.settled postTags
        ⟨"post_slug", "slug"⟩ ⟨"tag_id", "id"⟩ := by
  have hregistry : taggedPosts.registry.isOk = true := by
    rw [Mapping.registry_of_sorted (by decide)]
    decide +kernel
  cases hg : taggedPosts.registry with
  | error e =>
      rw [hg] at hregistry
      cases hregistry
  | ok g =>
      obtain ⟨hfound, -, -⟩ := @association_keys_found_iff taggedPosts g postClass.settled
        tagClass.settled tagsOfPost postTags hg List.mem_cons_self (by decide +kernel) rfl
        ⟨by decide, by decide⟩
      refine ⟨g, rfl, (hfound _ _).mpr (by decide), fun h => ?_⟩
      exact absurd ((hfound _ _).mp h).2.1 (by decide)

end ModelQuery
