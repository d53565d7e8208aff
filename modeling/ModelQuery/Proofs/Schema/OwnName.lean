import ModelQuery.Proofs.Schema.Registration
import ModelQuery.Proofs.Text.Small

/-!
# Finding a model by its own name

Whatever refers to a model is brought to a logical name once when the model is registered, and the
logical name is brought to one again when the model is looked up by it.  The second time nothing is
done about letters and about blanks at the end, but a blank that stood behind the mark goes, and a
mark that stood behind another is dropped (`normalizeName_eq_self_iff`).  So a registered model is
found by its own name exactly if the name is free of both, and is not empty
(`found_by_own_name_iff`).
-/

namespace ModelQuery

/-! ## Logical names -/

theorem Text.afterStart?_eq_some_iff {start s rest : String} :
    Text.afterStart? start s = some rest ↔ s = start ++ rest := by
  rw [Text.afterStart?]
  constructor
  · intro h
    split at h
    · rename_i hprefix
      obtain ⟨behind, hbehind⟩ := List.isPrefixOf_iff_prefix.mp hprefix
      cases h
      rw [← String.toList_inj, String.toList_append, String.toList_ofList, ← hbehind,
        List.drop_left]
    · cases h
  · rintro rfl
    rw [String.toList_append, if_pos (List.isPrefixOf_iff_prefix.mpr (List.prefix_append ..)),
      List.drop_left, String.ofList_toList]

/-- A text that is a mark with more behind. -/
def Marked (name : String) : Prop := ∃ rest, rest ≠ "" ∧ name = modelMark ++ rest

/-- A name without its mark, unless nothing would be left. -/
def withoutMark (name : String) : String :=
  match Text.afterStart? modelMark name with
  | some rest => if rest = "" then name else rest
  | none => name

/-- A name is normalized by stripping, by small letters and without its mark. -/
theorem normalizeName_eq (s : String) :
    normalizeName s = withoutMark (Text.lower (Text.strip s)) := by
  -- the name is made a variable, so that nothing computes it
  delta normalizeName
  generalize Text.lower (Text.strip s) = name
  rfl

/-- A name without a mark stays itself. -/
theorem withoutMark_of_not_marked {name : String} (h : ¬ Marked name) : withoutMark name = name := by
  rw [withoutMark]
  split
  · rename_i rest hrest
    rw [if_pos]
    by_contra hne
    exact h ⟨rest, hne, Text.afterStart?_eq_some_iff.mp hrest⟩
  · rfl

theorem withoutMark_append {rest : String} (h : rest ≠ "") :
    withoutMark (modelMark ++ rest) = rest := by
  rw [withoutMark, Text.afterStart?_eq_some_iff.mpr rfl]
  exact if_neg h

/-- What is left of a name is its end. -/
theorem withoutMark_suffix (name : String) : (withoutMark name).toList <:+ name.toList := by
  by_cases h : Marked name
  · obtain ⟨rest, hrest, rfl⟩ := h
    rw [withoutMark_append hrest, String.toList_append]
    exact List.suffix_append ..
  · exact (withoutMark_of_not_marked h).symm ▸ List.suffix_rfl

/-- A name that stays itself without its mark has none. -/
theorem not_marked_of_withoutMark {name : String} (h : withoutMark name = name) : ¬ Marked name := by
  rintro ⟨rest, hrest, rfl⟩
  rw [withoutMark_append hrest] at h
  have hlength := congrArg (fun s => s.toList.length) h
  rw [String.toList_append, List.length_append] at hlength
  have hmark : modelMark.toList.length = 6 := rfl
  omega

/-- What is known of every logical name: its letters are small, and no blank stands at its end. -/
structure IsLogical (name : String) : Prop where
  small : ∀ c ∈ name.toList, Text.isSmall c = true
  ends : Text.EndsDark name.toList

/-- A normalized name is logical. -/
theorem isLogical_normalizeName (s : String) : IsLogical (normalizeName s) := by
  have hsuffix := withoutMark_suffix (Text.lower (Text.strip s))
  rw [← normalizeName_eq, Text.lower, String.toList_ofList] at hsuffix
  constructor
  case small => exact fun c hc => Text.isSmall_of_mem_lowerAfter (hsuffix.subset hc)
  case ends =>
    have hends : Text.EndsDark (Text.strip s).toList := by
      rw [Text.strip, String.toList_ofList]
      exact Text.endsDark_stripChars s.toList
    exact (hends.lowerAfter []).of_suffix hsuffix

/-- The name that a model is registered under is logical. -/
theorem isLogical_modelName (v : Value) : IsLogical (modelName v) := by
  rw [modelName.eq_def]
  split
  · exact isLogical_normalizeName _
  · exact isLogical_normalizeName _
  · exact isLogical_normalizeName _

/-- Of a logical name only blanks at the beginning and a mark go. -/
theorem normalizeName_of_isLogical {name : String} (h : IsLogical name) :
    normalizeName name = withoutMark (String.ofList (name.toList.dropWhile Text.isBlank)) := by
  have hstrip : Text.strip name = String.ofList (name.toList.dropWhile Text.isBlank) := by
    rw [Text.strip, Text.stripChars_of_endsDark h.ends]
  have hsmall : ∀ c ∈ name.toList.dropWhile Text.isBlank, Text.isSmall c = true := fun c hc =>
    h.small c (List.dropWhile_suffix _ |>.subset hc)
  rw [normalizeName_eq, hstrip, Text.lower, String.toList_ofList,
    Text.lowerAfter_of_isSmall hsmall]

/-- **A LOGICAL NAME STAYS** when it is brought to one again, exactly if no blank leads it and it is
no mark with more behind. -/
theorem normalizeName_eq_self_iff {name : String} (h : IsLogical name) :
    normalizeName name = name ↔
      (∀ c, name.toList.head? = some c → Text.isBlank c = false) ∧ ¬ Marked name := by
  rw [normalizeName_of_isLogical h]
  constructor
  · intro hself
    -- neither of the two steps makes the name shorter
    have hdark : name.toList.dropWhile Text.isBlank = name.toList := by
      have hsuffix := withoutMark_suffix (String.ofList (name.toList.dropWhile Text.isBlank))
      rw [hself, String.toList_ofList] at hsuffix
      exact (List.dropWhile_suffix _).eq_of_length_le hsuffix.length_le
    rw [hdark, String.ofList_toList] at hself
    refine ⟨fun c hc => ?_, not_marked_of_withoutMark hself⟩
    have hhead := List.head?_dropWhile_not Text.isBlank name.toList
    rw [hdark, hc] at hhead
    exact hhead
  · rintro ⟨hdark, hmarked⟩
    have hdrop : name.toList.dropWhile Text.isBlank = name.toList := by
      cases hchars : name.toList with
      | nil => rfl
      | cons c rest =>
          refine List.dropWhile_cons_of_neg (Bool.not_eq_true _ ▸ hdark c ?_)
          rw [hchars]
          rfl
    rw [hdrop, String.ofList_toList, withoutMark_of_not_marked hmarked]

/-! ## Registered models -/

namespace Registry

variable {r : Registry} {xs : List Registration} {m : Model}

/-- A name is looked up as it is normalized, unless it is empty. -/
theorem lookupName?_eq (r : Registry) (name : String) :
    r.lookupName? name = if name = "" then none else r.find? (normalizeName name) := by
  show (if (Value.text name).truthy = true then r.find? (normalizeName name) else none) = _
  by_cases hname : name = ""
  · rw [if_pos hname, if_neg]
    rw [hname]
    exact Bool.false_ne_true
  · rw [if_neg hname, if_pos]
    exact bne_iff_ne.mpr hname

/-- A name that leads back to the model that got it. -/
structure LeadsBack (name : String) : Prop where
  named : name ≠ ""
  dark : ∀ c, name.toList.head? = some c → Text.isBlank c = false
  unmarked : ¬ Marked name

/-- **FOUND BY ITS OWN NAME**: whatever was registered, a model in the registry is found by its own
logical name exactly if that is not empty, does not begin with a blank and is no mark with more
behind. -/
theorem found_by_own_name_iff (hm : m ∈ (empty.afterAll xs).models) :
    (empty.afterAll xs).lookupName? m.name = some m ↔ LeadsBack m.name := by
  have hkept := firstKept_afterAll xs
  have hfind := hkept.find?_name hm
  have hlogical : IsLogical m.name := by
    obtain ⟨x, -, hname, -⟩ := hkept.described m.name m hfind
    rw [← hname]
    exact isLogical_modelName x.model
  rw [lookupName?_eq]
  constructor
  · intro hfound
    split at hfound
    · cases hfound
    · rename_i hnamed
      -- the model is called like the name it is found under
      obtain ⟨x, -, -, hmade⟩ := hkept.described _ m hfound
      obtain ⟨hdark, hmarked⟩ := (normalizeName_eq_self_iff hlogical).mp (of_modelOf hmade).1.symm
      exact ⟨hnamed, hdark, hmarked⟩
  · rintro ⟨hnamed, hdark, hmarked⟩
    rw [if_neg hnamed, (normalizeName_eq_self_iff hlogical).mpr ⟨hdark, hmarked⟩, hfind]

/-- A post is found by its own name; what was registered with two marks is not, the one that is left
is dropped on the way to it. -/
theorem post_found_twice_marked_not :
    let registered := empty.afterAll [{ model := .text "Post" }, { model := .text "model_model_x" }]
    (∃ m ∈ registered.models, m.name = "post" ∧ registered.lookupName? m.name = some m) ∧
      ∃ m ∈ registered.models, m.name = "model_x" ∧ registered.lookupName? m.name ≠ some m := by
  intro registered
  have hnames : registered.models.map (·.name) = ["post", "model_x"] := by decide +kernel
  have hpost : "post" ∈ registered.models.map (·.name) := hnames ▸ List.mem_cons_self
  have hmarked : "model_x" ∈ registered.models.map (·.name) :=
    hnames ▸ List.mem_cons_of_mem _ List.mem_cons_self
  obtain ⟨post, hmem, hname⟩ := List.mem_map.mp hpost
  obtain ⟨x, hmem', hname'⟩ := List.mem_map.mp hmarked
  refine ⟨⟨post, hmem, hname, (found_by_own_name_iff hmem).mpr ?_⟩, x, hmem', hname',
    fun hfound => ?_⟩
  · rw [show post.name = "post" from hname]
    refine ⟨by decide +kernel, fun c hc => ?_, ?_⟩
    · obtain rfl : 'p' = c := Option.some.inj hc
      decide +kernel
    · exact not_marked_of_withoutMark (by decide +kernel)
  · refine ((found_by_own_name_iff hmem').mp hfound).unmarked ⟨"x", by decide +kernel, ?_⟩
    rw [show x.name = "model_x" from hname']
    rfl

end Registry

end ModelQuery
