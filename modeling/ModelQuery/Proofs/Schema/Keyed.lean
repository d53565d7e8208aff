import Mathlib.Data.List.TakeWhile
import ModelQuery.Proofs.Schema.OwnName

/-!
# Models under their own names

A registry is made of ready models, and more are registered in it.  Either way a model is kept under
its own name, and a name that is taken stays taken (`keyed_made`).  So whatever comes to the name of
a model when it is brought to a logical name is looked up as this model.

A character that is neither blank nor has another small form, nor is in the mark, is in the logical
name of a text if it is in the text (`mem_normalizeName`).
-/

namespace ModelQuery

/-! ## Characters that stay -/

namespace Text

variable {c : Char} {cs : List Char}

theorem mem_dropWhile {p : Char → Bool} (hc : p c = false) (h : c ∈ cs) : c ∈ cs.dropWhile p := by
  rw [← List.takeWhile_append_dropWhile (p := p) (l := cs), List.mem_append] at h
  refine h.resolve_left fun htaken => ?_
  rw [List.mem_takeWhile_imp htaken] at hc
  cases hc

theorem mem_stripChars (hc : isBlank c = false) (h : c ∈ cs) : c ∈ stripChars cs :=
  List.mem_reverse.mpr (mem_dropWhile hc (List.mem_reverse.mpr (mem_dropWhile hc h)))

/-- A character that is its own small form, and no capital sigma, stays. -/
theorem mem_lowerAfter (hc : c.toNat ≠ 0x3a3) (hself : smallChars c = [c]) (before : List Char)
    (h : c ∈ cs) : c ∈ lowerAfter before cs := by
  induction cs generalizing before with
  | nil => cases h
  | cons d rest ih =>
      rw [lowerAfter, List.mem_append]
      rcases List.mem_cons.mp h with rfl | h
      · rw [if_neg hc, hself]
        exact .inl List.mem_cons_self
      · exact .inr (ih _ h)

end Text

/-- A character that is its own small form, and neither blank nor of the mark, stays in a name. -/
theorem mem_normalizeName {c : Char} {s : String} (hdark : Text.isBlank c = false)
    (hsmall : c.toNat ≠ 0x3a3 ∧ Text.smallChars c = [c]) (hmark : c ∉ modelMark.toList)
    (h : c ∈ s.toList) : c ∈ (normalizeName s).toList := by
  have hlower : c ∈ (Text.lower (Text.strip s)).toList := by
    rw [Text.lower, Text.strip, String.toList_ofList, String.toList_ofList]
    exact Text.mem_lowerAfter hsmall.1 hsmall.2 [] (Text.mem_stripChars hdark h)
  rw [normalizeName_eq]
  by_cases hmarked : Marked (Text.lower (Text.strip s))
  · obtain ⟨rest, hrest, hname⟩ := hmarked
    rw [hname, String.toList_append, List.mem_append] at hlower
    rw [hname, withoutMark_append hrest]
    exact hlower.resolve_left hmark
  · rw [withoutMark_of_not_marked hmarked]
    exact hlower

/-! ## Names of models -/

namespace Registry

variable {r : Registry} {m : Model}

/-- Every model is kept under its own name, and no name twice. -/
structure Keyed (r : Registry) : Prop where
  named : ∀ e ∈ r.entries, e.2.name = e.1
  nodup : r.names.Nodup

theorem keyed_empty : empty.Keyed := ⟨nofun, List.nodup_nil⟩

namespace Keyed

/-- A model put under a new name leaves a registry keyed. -/
theorem put (h : r.Keyed) (hnew : r.find? m.name = none) : (r.put m.name m).Keyed := by
  constructor
  case named =>
    intro e he
    rcases List.mem_append.mp he with he | he
    · exact h.named e he
    · rw [List.mem_singleton.mp he]
  case nodup =>
    show ((r.entries ++ [(m.name, m)]).map Prod.fst).Nodup
    rw [List.map_append, List.nodup_append]
    refine ⟨h.nodup, List.nodup_singleton _, fun name hname name' hname' heq => ?_⟩
    rw [heq, List.mem_singleton.mp hname'] at hname
    exact find?_eq_none_iff.mp hnew hname

/-- A registration leaves a registry keyed. -/
theorem after (h : r.Keyed) (x : Registration) : (r.after x).Keyed := by
  rcases after_cases r x with ⟨_, -, -, hafter⟩ | ⟨_, -, -, -, hafter⟩ | ⟨m, hnew, hmade, -, hafter⟩
  · exact hafter.symm ▸ h
  · exact hafter.symm ▸ h
  · obtain ⟨hname, -⟩ := of_modelOf hmade
    rw [hafter, ← hname]
    exact h.put (hname.symm ▸ hnew)

/-- Any number of registrations leave a registry keyed. -/
theorem afterAll (h : r.Keyed) (xs : List Registration) : (r.afterAll xs).Keyed := by
  induction xs generalizing r with
  | nil => exact h
  | cons x rest ih => exact ih (h.after x)

/-- A model is found under its name. -/
theorem find?_name (h : r.Keyed) (hm : m ∈ r.models) : r.find? m.name = some m := by
  obtain ⟨⟨name, m⟩, he, rfl⟩ := List.mem_map.mp hm
  rw [show m.name = name from h.named _ he]
  exact Assoc.lookup_of_mem h.nodup he

/-- Models of one name are one model. -/
theorem eq_of_name (h : r.Keyed) {m' : Model} (hm : m ∈ r.models) (hm' : m' ∈ r.models)
    (hname : m.name = m'.name) : m = m' := by
  have hfind := h.find?_name hm
  rw [hname, h.find?_name hm'] at hfind
  exact (Option.some.inj hfind).symm

/-- Whatever comes to its name is looked up as this model, unless it has none. -/
theorem lookupName?_of_normalized (h : r.Keyed) (hm : m ∈ r.models) (hnamed : m.name ≠ "")
    {q : String} (hq : normalizeName q = m.name) : r.lookupName? q = some m := by
  have hne : q ≠ "" := by
    rintro rfl
    rw [show normalizeName "" = "" by decide +kernel] at hq
    exact hnamed hq.symm
  rw [lookupName?_eq, if_neg hne, hq]
  exact h.find?_name hm

end Keyed

/-- A registry that is made of models is keyed. -/
theorem keyed_ofModels (ms : List Model) : (ofModels ms).Keyed := by
  have hall : ∀ r : Registry, r.Keyed →
      Keyed ⟨ms.foldl (fun entries m => Assoc.putNew m.name m entries) r.entries⟩ := by
    induction ms with
    | nil => exact fun r h => h
    | cons m rest ih =>
        intro r h
        cases hnew : r.find? m.name with
        | some known =>
            have hput : Assoc.putNew m.name m r.entries = r.entries :=
              if_pos (Option.isSome_iff_exists.mpr ⟨known, hnew⟩)
            rw [List.foldl_cons, hput]
            exact ih r h
        | none =>
            have hput : Assoc.putNew m.name m r.entries = (r.put m.name m).entries :=
              if_neg (by rw [show r.entries.lookup m.name = none from hnew]; exact nofun)
            rw [List.foldl_cons, hput]
            exact ih _ (h.put hnew)
  exact hall empty keyed_empty

/-- However a registry is made, of ready models and by registrations, each model is kept under its
own name. -/
theorem keyed_made (ms : List Model) (xs : List Registration) : ((ofModels ms).afterAll xs).Keyed :=
  (keyed_ofModels ms).afterAll xs

end Registry

end ModelQuery
