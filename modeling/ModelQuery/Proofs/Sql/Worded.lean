import ModelQuery.Proofs.Sql.Mentioned

/-!
# Queries whose names are texts

Tables, aliases and references may be any values; `Worded` is the query where all of them are texts
and no alias can be taken for another or for a table beside it.  Its entries are read as they are
written, and what it mentions is `Sound`, so that the catalog finds it again: an alias stands for
its table, a table for itself.
-/

namespace ModelQuery.Sql

/-- The alias a value gives; an empty one is none. -/
def textAlias? : Value → Option (Option String)
  | .null => some none
  | v => v.text?.map fun a => if a = "" then none else some a

/-- A table with its alias. -/
def textEntry? (e : Value × Value) : Option (String × Option String) := do
  let table ← e.1.text?
  let asName ← textAlias? e.2
  return (table, asName)

/-- The aliases, each with its table. -/
def aliases (names : List (String × Option String)) : List (String × String) :=
  names.filterMap fun (table, asName) => asName.map fun a => (a, table)

/-- A query whose tables, aliases and references are texts.  No alias is given twice, and none is
the name of a table that is named beside it. -/
structure Worded (q : Query) (names : List (String × Option String)) : Prop where
  entries : (tableValues q).mapM textEntry? = some names
  references : ∀ v ∈ references q, ∃ s, v.text? = some s
  once : (Assoc.keys (aliases names)).Nodup
  apart : ∀ a ∈ Assoc.keys (aliases names), a ∉ names.map Prod.fst

/-- What a name stands for: the table behind it if it is an alias, else the table so called. -/
def sourceOf (names : List (String × Option String)) (name : String) : Source :=
  { name := .text name, aliasOf := ((aliases names).lookup name).map .text }

/-! ## Entries -/

/-- What an entry stands for, under the name it is visible by: its table, or the alias of it. -/
def TableEntry.source (e : TableEntry) : Source :=
  { name := e.visible, aliasOf := e.asName.map fun _ => e.table }

/-- An entry by its names. -/
def entryOf (name : String × Option String) : TableEntry := ⟨.text name.1, name.2.map .text⟩

theorem sourceName_of_text {v : Value} {s : String} (h : v.text? = some s) (earlier : List Value) :
    sourceName earlier v = .ok (.text s) := by
  rcases Value.eq_of_text? h with rfl | rfl
  · rfl
  · rfl

/-- A text counts as true, and so gives an alias, unless it is empty. -/
theorem givenAlias_of_text {v : Value} {a? : Option String} (h : textAlias? v = some a?) :
    givenAlias v = .ok (a?.map fun _ => v) ∧ ∀ a, a? = some a → v.text? = some a := by
  have htext : ∀ s, v.text? = some s → givenAlias v = .ok (if s = "" then none else some v) →
      a? = (if s = "" then none else some s) →
      givenAlias v = .ok (a?.map fun _ => v) ∧ ∀ a, a? = some a → v.text? = some a := by
    intro s hs hgiven ha
    by_cases hempty : s = ""
    · rw [if_pos hempty] at hgiven ha
      subst ha
      exact ⟨hgiven, nofun⟩
    · rw [if_neg hempty] at hgiven ha
      subst ha
      exact ⟨hgiven, fun a ha => hs.trans ha⟩
  have hgiven : ∀ s, (Except.ok (if s != "" then some v else none) : Except Error (Option Value)) =
      .ok (if s = "" then none else some v) := by
    intro s
    by_cases hempty : s = ""
    · subst hempty
      rfl
    · rw [if_neg hempty, if_pos (bne_iff_ne.mpr hempty)]
  cases v with
  | null =>
      cases h
      exact ⟨rfl, nofun⟩
  | text s => exact htext s rfl (hgiven s) (Option.some.inj h).symm
  | declared s => exact htext s rfl (hgiven s) (Option.some.inj h).symm
  | _ => cases h

/-- An entry in words is read as such, whatever stands before it. -/
theorem readEntry_of_text {e : Value × Value} {name : String × Option String}
    (h : textEntry? e = some name) (earlier : List Value) :
    ∃ more, readEntry earlier e = .ok (entryOf name, more) := by
  obtain ⟨table, asName⟩ := e
  obtain ⟨t, ht, h⟩ := Option.bind_eq_some_iff.mp h
  obtain ⟨a?, ha, h⟩ := Option.bind_eq_some_iff.mp h
  cases h
  obtain ⟨hgiven, htext⟩ := givenAlias_of_text ha
  rw [readEntry]
  show ∃ more, (sourceName earlier table >>= fun _ => givenAlias asName >>= _) = _
  rw [sourceName_of_text ht, hgiven]
  cases a? with
  | none => exact ⟨earlier ++ [table], rfl⟩
  | some a =>
      refine ⟨earlier ++ [table] ++ [asName], ?_⟩
      show (sourceName (earlier ++ [table]) asName >>= _) = _
      rw [sourceName_of_text (htext a rfl)]
      rfl

/-- Entries in words are read as such, one after the other. -/
theorem readEntries_of_text {es : List (Value × Value)} {names : List (String × Option String)}
    (h : es.mapM textEntry? = some names) (earlier : List Value) :
    readEntries earlier es = .ok (names.map entryOf) := by
  induction es generalizing names earlier with
  | nil =>
      cases h
      rfl
  | cons e rest ih =>
      rw [List.mapM_cons] at h
      obtain ⟨name, hname, h⟩ := Option.bind_eq_some_iff.mp h
      obtain ⟨others, hothers, h⟩ := Option.bind_eq_some_iff.mp h
      cases h
      obtain ⟨more, hmore⟩ := readEntry_of_text hname earlier
      rw [readEntries, hmore]
      show (readEntries more rest >>= fun es => pure (entryOf name :: es)) = _
      rw [ih hothers more]
      rfl

/-! ## Mentions -/

section Mentions

open Mentions

variable {q : Query} {names : List (String × Option String)}

/-- An alias with its table as names of sources. -/
def aliasPair (e : String × String) : SourceName × SourceName := (.text e.1, .text e.2)

theorem filterMap_entryOf (names : List (String × Option String)) :
    (names.map entryOf).filterMap aliasOf? = (aliases names).map aliasPair := by
  induction names with
  | nil => rfl
  | cons name rest ih =>
      obtain ⟨table, asName⟩ := name
      cases asName with
      | none => exact ih
      | some a => exact congrArg (aliasPair (a, table) :: ·) ih

theorem lookup_aliasPair (pairs : List (String × String)) (name : String) :
    (pairs.map aliasPair).lookup (.text name) = (pairs.lookup name).map .text := by
  induction pairs with
  | nil => rfl
  | cons pair rest ih =>
      obtain ⟨a, table⟩ := pair
      show ((SourceName.text a, SourceName.text table) :: rest.map aliasPair).lookup _ = _
      rw [List.lookup_cons, List.lookup_cons]
      by_cases h : name = a
      · subst h
        rw [beq_self_eq_true, beq_self_eq_true]
        rfl
      · have hne : SourceName.text name ≠ .text a := fun heq => h (SourceName.text.inj heq)
        rw [beq_false_of_ne h, beq_false_of_ne hne]
        exact ih

theorem keys_aliasPair (pairs : List (String × String)) :
    Assoc.keys (pairs.map aliasPair) = (Assoc.keys pairs).map .text := by
  rw [Assoc.keys, Assoc.keys, List.map_map, List.map_map]
  rfl

/-- The entries of a query as mentions. -/
def named (names : List (String × Option String)) : Mentions :=
  (names.map entryOf).foldl addEntry .empty

/-- No alias of a worded query is given twice. -/
theorem once_aliasPair (h : Worded q names) :
    (Assoc.keys ((aliases names).map aliasPair)).Nodup := by
  rw [keys_aliasPair]
  exact List.pairwise_map.mpr (h.once.imp fun hne heq => hne (SourceName.text.inj heq))

/-- What is mentioned with the names has their aliases. -/
theorem named_aliases (names : List (String × Option String)) :
    (named names).aliases = Assoc.putAll ((aliases names).map aliasPair) [] := by
  rw [named, addEntries_aliases, filterMap_entryOf]
  rfl

/-- Under a name among the entries the table of its alias is found. -/
theorem lookup_named (h : Worded q names) (name : String) :
    (named names).aliases.lookup (.text name) = ((aliases names).lookup name).map .text := by
  rw [named_aliases, Assoc.lookup_putAll (once_aliasPair h), List.lookup_nil, Option.or_none,
    lookup_aliasPair]

/-- The entries of a worded query are apart. -/
theorem apart_entries (h : Worded q names) : Apart (names.map entryOf) := by
  intro e he e' he' halias
  obtain ⟨⟨table, asName⟩, hname, rfl⟩ := List.mem_map.mp he
  obtain ⟨⟨table', asName'⟩, hname', rfl⟩ := List.mem_map.mp he'
  obtain ⟨a, rfl, heq⟩ := Option.map_eq_some_iff.mp halias
  obtain rfl : a = table' := SourceName.text.inj heq
  refine h.apart a ?_ (List.mem_map_of_mem hname')
  exact List.mem_map.mpr ⟨(a, table), List.mem_filterMap.mpr ⟨(table, some a), hname, rfl⟩, rfl⟩

/-- To mention what is written loses nothing. -/
theorem mentionWritten_grows (target : Option TableEntry) (written : List Value) (m : Mentions) :
    Grows m (mentionWritten target written m) := by
  cases target with
  | none => exact .refl m
  | some entry => exact foldl_grows (addTo_grows entry.table) written m

/-- What is mentioned beside the entries only adds to them. -/
theorem mentions_extend (q : Query) (kind : Kind) (entries : List TableEntry) :
    Grows (entries.foldl addEntry .empty) (mentions q kind entries) :=
  (foldl_grows addReference_grows (references q) _).trans
    (mentionWritten_grows _ (writtenColumns q kind) _)

/-- Every plain reference with a table is mentioned. -/
theorem mentions_reference {v : Value} {table column : String} (hv : v ∈ references q)
    (hplain : plainColumn? v = some ⟨some table, column⟩) (kind : Kind)
    (entries : List TableEntry) : (mentions q kind entries).Has (.text table) column :=
  (mentionWritten_grows _ (writtenColumns q kind) _).has
    (foldl_has addReference_grows hv (addReference_has hplain) _)

/-- Every written column is mentioned as one of the first table. -/
theorem mentions_written {v : Value} {p : PlainColumn} {kind : Kind}
    (hv : v ∈ writtenColumns q kind) (hplain : plainColumn? v = some p) (htables : q.tables ≠ [])
    {first : TableEntry} {rest : List TableEntry} :
    (mentions q kind (first :: rest)).Has first.table p.column := by
  rw [mentions, if_neg (fun hempty => htables (List.isEmpty_iff.mp hempty))]
  exact foldl_has (addTo_grows first.table) hv (addTo_has hplain) _

/-- A mentioned column is found under the name it was mentioned with. -/
theorem entry?_of_has {m : Mentions} (h : m.Sound) {table : SourceName} {column : String}
    (hhas : m.Has table column) :
    ∃ e, Catalog.entry? (.ofMentions m) table = some e ∧ column ∈ e.columns := by
  obtain ⟨cs, hcs, hcolumn⟩ := hhas
  rw [Catalog.entry?_ofMentions h, hcs]
  exact ⟨_, rfl, hcolumn⟩

end Mentions

end ModelQuery.Sql
