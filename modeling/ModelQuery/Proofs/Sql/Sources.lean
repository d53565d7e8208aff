import ModelQuery.Sql.Wording.Select

/-!
# Sources in the order they are listed

A FROM clause lists its entries and then what is only read, each source where it comes first; a
source of the caller's own is listed again and again.  So what is listed in one part hangs on the
parts before it only through the sources in them (`listNew_behind`).  Behind its entries a SELECT
lists what it gains (`Select.fromEntries_eq`), which is all it reads that is not among the entries
(`Select.mem_gained_iff`).
-/

namespace ModelQuery.Sql

/-! ## Parts of a list -/

section Sources

variable {listed listed' named read : List Source} {source : Source}

/-- What is new depends on which sources are listed, and not on how. -/
theorem listNew_congr (h : ∀ s, s ∈ listed ↔ s ∈ listed') (read : List Source) :
    listNew listed read = listNew listed' read := by
  induction read generalizing listed listed' with
  | nil => rfl
  | cons s rest ih =>
      have hbehind : ∀ s', s' ∈ listed ++ [s] ↔ s' ∈ listed' ++ [s] := fun s' => by
        rw [List.mem_append, List.mem_append, h]
      simp only [listNew, h s, ih h, ih hbehind]

/-- Sources are listed as they come, the later ones behind all that came before. -/
theorem listNew_behind (listed named read : List Source) :
    listNew listed (named ++ read) = listNew listed named ++ listNew (listed ++ named) read := by
  induction named generalizing listed with
  | nil => rw [List.append_nil, List.nil_append, listNew, List.nil_append]
  | cons s rest ih =>
      rw [List.cons_append, listNew, listNew]
      split
      · rename_i hskip
        rw [ih]
        refine congrArg (_ ++ ·) (listNew_congr (fun s' => ?_) read)
        rw [List.mem_append, List.mem_append, List.mem_cons]
        refine ⟨Or.imp_right .inr, fun h => ?_⟩
        rcases h with hlisted | rfl | hrest
        · exact .inl hlisted
        · exact .inl hskip.1
        · exact .inr hrest
      · rw [ih, List.append_assoc]
        rfl

theorem mem_of_mem_listNew (h : source ∈ listNew listed read) : source ∈ read := by
  induction read generalizing listed with
  | nil => cases h
  | cons s rest ih =>
      rw [listNew] at h
      split at h
      · exact List.mem_cons_of_mem _ (ih h)
      · rcases List.mem_cons.mp h with rfl | h
        · exact List.mem_cons_self
        · exact List.mem_cons_of_mem _ (ih h)

/-- A source is new just if it is read and not listed, unless it stands apart. -/
theorem mem_listNew (hapart : source.apart = false) :
    source ∈ listNew listed read ↔ source ∈ read ∧ source ∉ listed := by
  induction read generalizing listed with
  | nil => exact ⟨nofun, fun h => h.1⟩
  | cons s rest ih =>
      rw [listNew, List.mem_cons]
      split
      · rename_i hskip
        rw [ih]
        refine and_congr_left fun hnew => ⟨.inr, fun h => h.resolve_left ?_⟩
        exact fun heq => hnew (heq ▸ hskip.1)
      · rename_i hkeep
        rw [List.mem_cons, ih, List.mem_append, List.mem_singleton, not_or]
        constructor
        · rintro (rfl | ⟨hrest, hnew, -⟩)
          · exact ⟨.inl rfl, fun hlisted => hkeep ⟨hlisted, by rw [hapart]; rfl⟩⟩
          · exact ⟨.inr hrest, hnew⟩
        · rintro ⟨hmem, hnew⟩
          by_cases heq : source = s
          · exact .inl heq
          · exact .inr ⟨hmem.resolve_left heq, hnew, heq⟩

/-- Sources that are all different, and not listed, are all new. -/
theorem listNew_of_nodup {others : List Source} (h : (listed ++ others).Nodup) :
    listNew listed others = others := by
  induction others generalizing listed with
  | nil => rfl
  | cons s rest ih =>
      have hsplit : listed ++ s :: rest = listed ++ [s] ++ rest := by
        rw [List.append_assoc]
        rfl
      have hnew : s ∉ listed := fun hmem =>
        (List.nodup_append.mp h).2.2 s hmem s List.mem_cons_self rfl
      rw [listNew, if_neg fun hlisted => hnew hlisted.1, ih (hsplit ▸ h)]

/-- Sources that are not listed yet and come once are listed as they come. -/
theorem listNew_append {others : List Source} (h : (listed ++ others).Nodup) :
    listNew listed (others ++ read) = others ++ listNew (listed ++ others) read := by
  rw [listNew_behind, listNew_of_nodup h]

/-- What is read beside the listed sources adds nothing if it is one of them, or of those that are
listed before it. -/
theorem listNew_of_listed {more : List Source}
    (h : ∀ s ∈ read, (s ∈ listed ∨ s ∈ named) ∧ s.apart = false) :
    listNew listed (named ++ (read ++ more)) = listNew listed (named ++ more) := by
  have hmem : ∀ s ∈ read, s ∈ listed ++ named := fun s hs => List.mem_append.mpr (h s hs).1
  have hnothing : listNew (listed ++ named) read = [] := by
    refine List.eq_nil_iff_forall_not_mem.mpr fun s hs => ?_
    have hread := mem_of_mem_listNew hs
    exact ((mem_listNew (h s hread).2).mp hs).2 (hmem s hread)
  have hsame : ∀ s, s ∈ listed ++ named ++ read ↔ s ∈ listed ++ named := fun s => by
    rw [List.mem_append]
    exact ⟨fun hs => hs.elim id (hmem s), .inl⟩
  rw [listNew_behind, listNew_behind, listNew_behind listed named more, hnothing, List.nil_append,
    listNew_congr hsame]

end Sources

/-! ## What a SELECT gains -/

namespace Select

/-- The sources a SELECT lists for its entries. -/
def listed (s : Select) : List Source :=
  match s.tables with
  | some t => t.joined ++ t.others
  | none => []

/-- The sources a SELECT lists because it reads them, though it has no entry for them. -/
def gained (s : Select) : List Source := listNew s.listed s.read

/-- A SELECT gains just what it reads and has no entry for. -/
theorem mem_gained_iff {s : Select} {source : Source} (hapart : source.apart = false) :
    source ∈ s.gained ↔ source ∈ s.read ∧ source ∉ s.listed :=
  mem_listNew hapart

/-- In the FROM clause stands what would stand there if nothing were read, then what is gained. -/
theorem fromEntries_eq (s : Select) :
    fromEntries s.tables s.read = fromEntries s.tables [] ++ s.gained.map sourceTokens := by
  have hbeside : beside s.tables s.read = beside s.tables [] ++ s.gained := by
    rw [gained, listed]
    cases s.tables with
    | none => rfl
    | some t =>
        show listNew t.joined (t.others ++ s.read) = listNew t.joined (t.others ++ []) ++ _
        rw [List.append_nil]
        exact listNew_behind ..
  rw [fromEntries, fromEntries, hbeside, List.map_append, List.append_assoc]

end Select

end ModelQuery.Sql
