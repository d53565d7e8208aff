/-!
# Ordered maps

A map that remembers the order in which its keys came, as a list of entries. `put` writes a value:
a new key goes to the end, a known key keeps its place and its spelling and gets the new value.
`putNew` writes only a new key. Reading is `List.lookup`.

The lemmas say what a write does to the keys and to a later read.
-/

namespace ModelQuery.Assoc

variable {κ α : Type}

/-- Writes `v` under `k`; a known key keeps its place. -/
def put [BEq κ] (k : κ) (v : α) : List (κ × α) → List (κ × α)
  | [] => [(k, v)]
  | (k', v') :: rest => if k == k' then (k', v) :: rest else (k', v') :: put k v rest

/-- Writes `v` under `k` unless the key is known. -/
def putNew [BEq κ] (k : κ) (v : α) (m : List (κ × α)) : List (κ × α) :=
  if (m.lookup k).isSome then m else m ++ [(k, v)]

/-- Writes entries from the left. -/
def putAll [BEq κ] (entries m : List (κ × α)) : List (κ × α) :=
  entries.foldl (fun m (k, v) => put k v m) m

/-- The map of a list of entries, written from the left. -/
def ofList [BEq κ] (entries : List (κ × α)) : List (κ × α) := putAll entries []

/-- The keys in order. -/
def keys (m : List (κ × α)) : List κ := m.map Prod.fst

/-- The values in order. -/
def values (m : List (κ × α)) : List α := m.map Prod.snd

/-! ## What a write does -/

variable [BEq κ]

@[simp] theorem put_nil (k : κ) (v : α) : put k v [] = [(k, v)] := rfl

@[simp] theorem lookup_put_self [LawfulBEq κ] (k : κ) (v : α) (m : List (κ × α)) :
    (put k v m).lookup k = some v := by
  induction m with
  | nil => simp [put]
  | cons e rest ih =>
    obtain ⟨k', v'⟩ := e
    by_cases h : k = k'
    · subst h
      simp [put]
    · have hb : (k == k') = false := by simpa using h
      simp [put, hb, ih, List.lookup_cons]

theorem lookup_put_of_ne [LawfulBEq κ] {k k' : κ} (h : k' ≠ k) (v : α) (m : List (κ × α)) :
    (put k v m).lookup k' = m.lookup k' := by
  have hne : (k' == k) = false := by simpa using h
  induction m with
  | nil => simp [put, List.lookup_cons, hne]
  | cons e rest ih =>
    obtain ⟨j, w⟩ := e
    by_cases hj : k == j
    · have : k = j := by simpa using hj
      subst this
      simp [put, List.lookup_cons, hne]
    · simp only [put, hj, Bool.false_eq_true, if_false, List.lookup_cons, ih]

/-- A key that is written if it is new: what was known comes first. -/
theorem lookup_putNew [LawfulBEq κ] (k k' : κ) (v : α) (m : List (κ × α)) :
    (putNew k v m).lookup k' = (m.lookup k').or ([(k, v)].lookup k') := by
  rw [putNew]
  split
  · rename_i hknown
    by_cases h : k' = k
    · subst h
      obtain ⟨w, hw⟩ := Option.isSome_iff_exists.mp hknown
      rw [hw]
      rfl
    · rw [List.lookup_cons, beq_false_of_ne h, List.lookup_nil, Option.or_none]
  · exact List.lookup_append

/-- Items that are written if their keys are new: of one key the first is found, behind what was
known. -/
theorem lookup_foldl_putNew [LawfulBEq κ] (key : α → κ) (items : List α) (k : κ)
    (m : List (κ × α)) :
    (items.foldl (fun known x => putNew (key x) x known) m).lookup k =
      (m.lookup k).or (items.find? (key · == k)) := by
  induction items generalizing m with
  | nil => exact Option.or_none.symm
  | cons x rest ih =>
    rw [List.foldl_cons, ih, lookup_putNew, Option.or_assoc, List.find?_cons, List.lookup_cons,
      BEq.comm]
    cases key x == k with
    | true => rfl
    | false => rfl

/-- A write adds at most its own key, at the end. -/
theorem keys_put [LawfulBEq κ] (k : κ) (v : α) (m : List (κ × α)) :
    keys (put k v m) = if k ∈ keys m then keys m else keys m ++ [k] := by
  induction m with
  | nil => simp [put, keys]
  | cons e rest ih =>
    obtain ⟨j, w⟩ := e
    by_cases hj : k = j
    · subst hj
      simp [put, keys]
    · have hb : (k == j) = false := by simpa using hj
      have hput : keys (put k v ((j, w) :: rest)) = j :: keys (put k v rest) := by
        simp [keys, put, hb]
      have hkeys : keys ((j, w) :: rest) = j :: keys rest := rfl
      rw [hput, hkeys, ih]
      simp only [List.mem_cons, hj, false_or]
      split
      · rfl
      · rfl

theorem nodup_keys_put [LawfulBEq κ] (k : κ) (v : α) {m : List (κ × α)} (h : (keys m).Nodup) :
    (keys (put k v m)).Nodup := by
  rw [keys_put]
  split
  · exact h
  · rename_i hk
    rw [List.nodup_append]
    refine ⟨h, List.nodup_cons.mpr ⟨by simp, by simp⟩, ?_⟩
    intro a ha b hb
    rw [List.mem_singleton] at hb
    subst hb
    exact fun hab => hk (hab ▸ ha)

theorem mem_put [LawfulBEq κ] {k : κ} {v : α} {m : List (κ × α)} {e : κ × α}
    (h : e ∈ put k v m) : e = (k, v) ∨ e ∈ m := by
  induction m with
  | nil => exact .inl (List.mem_singleton.mp h)
  | cons e' rest ih =>
    obtain ⟨k', v'⟩ := e'
    rw [put] at h
    split at h
    · rename_i hk
      rcases List.mem_cons.mp h with rfl | h
      · rw [eq_of_beq hk]
        exact .inl rfl
      · exact .inr (List.mem_cons_of_mem _ h)
    · rcases List.mem_cons.mp h with rfl | h
      · exact .inr List.mem_cons_self
      · rcases ih h with h | h
        · exact .inl h
        · exact .inr (List.mem_cons_of_mem _ h)

theorem mem_putAll [LawfulBEq κ] {entries m : List (κ × α)} {e : κ × α}
    (h : e ∈ putAll entries m) : e ∈ entries ∨ e ∈ m := by
  induction entries generalizing m with
  | nil => exact .inr h
  | cons e' rest ih =>
    rcases ih h with h | h
    · exact .inl (List.mem_cons_of_mem _ h)
    · rcases mem_put h with rfl | h
      · exact .inl List.mem_cons_self
      · exact .inr h

/-- A map of items under keys of their own holds nothing else. -/
theorem mem_ofList_map [LawfulBEq κ] (key : α → κ) {items : List α} {e : κ × α}
    (h : e ∈ ofList (items.map fun x => (key x, x))) : e.2 ∈ items ∧ key e.2 = e.1 := by
  rcases mem_putAll h with hitem | hnone
  · obtain ⟨x, hx, rfl⟩ := List.mem_map.mp hitem
    exact ⟨hx, rfl⟩
  · cases hnone

theorem put_of_not_mem [LawfulBEq κ] {k : κ} {m : List (κ × α)} (h : k ∉ keys m) (v : α) :
    put k v m = m ++ [(k, v)] := by
  induction m with
  | nil => rfl
  | cons e rest ih =>
    obtain ⟨j, w⟩ := e
    obtain ⟨hj, hrest⟩ := not_or.mp fun hmem => h (List.mem_cons.mpr hmem)
    rw [put, beq_false_of_ne hj, ih hrest]
    rfl

/-- Entries of new keys, each given once, go to the end as they come. -/
theorem putAll_of_nodup [LawfulBEq κ] {entries m : List (κ × α)}
    (h : (keys (m ++ entries)).Nodup) : putAll entries m = m ++ entries := by
  induction entries generalizing m with
  | nil => exact (List.append_nil m).symm
  | cons e rest ih =>
    obtain ⟨k, v⟩ := e
    have hsplit : m ++ (k, v) :: rest = m ++ [(k, v)] ++ rest := by
      rw [List.append_assoc]
      rfl
    have hk : k ∉ keys m := by
      intro hmem
      rw [keys, List.map_append, List.nodup_append] at h
      exact h.2.2 k hmem k List.mem_cons_self rfl
    show putAll rest (put k v m) = _
    rw [put_of_not_mem hk, hsplit]
    exact ih (hsplit ▸ h)

theorem nodup_keys_putAll [LawfulBEq κ] (entries : List (κ × α)) {m : List (κ × α)}
    (h : (keys m).Nodup) : (keys (putAll entries m)).Nodup := by
  induction entries generalizing m with
  | nil => exact h
  | cons e rest ih => exact ih (nodup_keys_put e.1 e.2 h)

theorem mem_keys_put [LawfulBEq κ] {k k' : κ} {v : α} {m : List (κ × α)} :
    k' ∈ keys (put k v m) ↔ k' = k ∨ k' ∈ keys m := by
  rw [keys_put]
  split
  · rename_i hk
    constructor
    · exact .inr
    · rintro (rfl | hmem)
      · exact hk
      · exact hmem
  · rw [List.mem_append, List.mem_singleton]
    exact Or.comm

theorem mem_keys_putAll [LawfulBEq κ] {k : κ} {entries m : List (κ × α)} :
    k ∈ keys (putAll entries m) ↔ k ∈ keys entries ∨ k ∈ keys m := by
  induction entries generalizing m with
  | nil => exact ⟨.inr, fun h => h.resolve_left List.not_mem_nil⟩
  | cons e rest ih =>
    show k ∈ keys (putAll rest (put e.1 e.2 m)) ↔ k ∈ e.1 :: keys rest ∨ k ∈ keys m
    rw [ih, mem_keys_put, List.mem_cons]
    constructor
    · rintro (hrest | rfl | hm)
      · exact .inl (.inr hrest)
      · exact .inl (.inl rfl)
      · exact .inr hm
    · rintro ((rfl | hrest) | hm)
      · exact .inr (.inl rfl)
      · exact .inl hrest
      · exact .inr (.inr hm)

/-- Writes under known keys add none. -/
theorem keys_putAll_of_known [LawfulBEq κ] {entries m : List (κ × α)}
    (h : ∀ k ∈ keys entries, k ∈ keys m) : keys (putAll entries m) = keys m := by
  induction entries generalizing m with
  | nil => rfl
  | cons e rest ih =>
    have he : keys (put e.1 e.2 m) = keys m := by
      rw [keys_put, if_pos (h e.1 List.mem_cons_self)]
    have hrest : ∀ k ∈ keys rest, k ∈ keys (put e.1 e.2 m) := fun k hk =>
      he ▸ h k (List.mem_cons_of_mem _ hk)
    exact (ih hrest).trans he

/-! ## What a read finds -/

theorem mem_of_lookup [LawfulBEq κ] {k : κ} {v : α} {m : List (κ × α)}
    (h : m.lookup k = some v) : (k, v) ∈ m := by
  obtain ⟨before, behind, rfl, -⟩ := List.lookup_eq_some_iff.mp h
  exact List.mem_append_right _ List.mem_cons_self

omit [BEq κ] in
theorem exists_of_mem_keys {k : κ} {m : List (κ × α)} (h : k ∈ keys m) : ∃ v, (k, v) ∈ m := by
  obtain ⟨⟨k', v⟩, hm, rfl⟩ := List.mem_map.mp h
  exact ⟨v, hm⟩

/-- An entry is found under its key if no other entry has the key. -/
theorem lookup_of_mem [LawfulBEq κ] {k : κ} {v : α} {m : List (κ × α)} (hm : (keys m).Nodup)
    (h : (k, v) ∈ m) : m.lookup k = some v := by
  induction m with
  | nil => cases h
  | cons e rest ih =>
    obtain ⟨k', v'⟩ := e
    obtain ⟨hk, hrest⟩ := List.nodup_cons.mp hm
    rcases List.mem_cons.mp h with heq | hin
    · cases heq
      exact List.lookup_cons_self
    · have hne : k ≠ k' := by
        rintro rfl
        exact hk (List.mem_map.mpr ⟨(k, v), hin, rfl⟩)
      rw [List.lookup_cons, beq_false_of_ne hne]
      exact ih hrest hin

theorem lookup_eq_none_iff [LawfulBEq κ] {k : κ} {m : List (κ × α)} :
    m.lookup k = none ↔ k ∉ keys m := by
  rw [List.lookup_eq_none_iff, keys, List.mem_map]
  constructor
  · rintro h ⟨e, he, rfl⟩
    exact absurd (h e he) (by simp)
  · intro h e he
    have hne : k ≠ e.1 := by
      rintro rfl
      exact h ⟨e, he, rfl⟩
    simpa using hne

/-- Values that are changed under their keys are found there, changed. -/
theorem lookup_map [LawfulBEq κ] {β : Type} (f : κ → α → β) (k : κ) (m : List (κ × α)) :
    (m.map fun e => (e.1, f e.1 e.2)).lookup k = (m.lookup k).map (f k) := by
  induction m with
  | nil => rfl
  | cons e rest ih =>
    rw [List.map_cons, List.lookup_cons, List.lookup_cons, ih]
    by_cases h : k = e.1
    · subst h
      rw [beq_self_eq_true]
      rfl
    · rw [beq_false_of_ne h]

/-- Items under keys of their own are found as they are among themselves. -/
theorem lookup_map_key [LawfulBEq κ] (key : α → κ) (items : List α) (k : κ) :
    (items.map fun x => (key x, x)).lookup k = items.find? (key · == k) := by
  induction items with
  | nil => rfl
  | cons x rest ih => rw [List.map_cons, List.lookup_cons, List.find?_cons, BEq.comm, ih]

/-- What was written last is found first. -/
theorem lookup_putAll [LawfulBEq κ] {entries : List (κ × α)} (h : (keys entries).Nodup) (k : κ)
    (m : List (κ × α)) : (putAll entries m).lookup k = (entries.lookup k).or (m.lookup k) := by
  induction entries generalizing m with
  | nil => rfl
  | cons e rest ih =>
    obtain ⟨k', v'⟩ := e
    obtain ⟨hk, hrest⟩ := List.nodup_cons.mp h
    show (putAll rest (put k' v' m)).lookup k = _
    rw [ih hrest, List.lookup_cons]
    by_cases hkk : k = k'
    · subst hkk
      rw [lookup_put_self, lookup_eq_none_iff.mpr hk, beq_self_eq_true]
      rfl
    · rw [lookup_put_of_ne hkk, beq_false_of_ne hkk]

/-- Of all writes under a key the last is found. -/
theorem lookup_putAll_reverse [LawfulBEq κ] (entries : List (κ × α)) (k : κ) (m : List (κ × α)) :
    (putAll entries m).lookup k = (entries.reverse.lookup k).or (m.lookup k) := by
  induction entries generalizing m with
  | nil => rfl
  | cons e rest ih =>
    obtain ⟨k', v'⟩ := e
    show (putAll rest (put k' v' m)).lookup k = _
    rw [ih, List.reverse_cons, List.lookup_append, Option.or_assoc, List.lookup_cons]
    by_cases hkk : k = k'
    · subst hkk
      rw [lookup_put_self, beq_self_eq_true]
      rfl
    · rw [lookup_put_of_ne hkk, beq_false_of_ne hkk]
      rfl

end ModelQuery.Assoc
