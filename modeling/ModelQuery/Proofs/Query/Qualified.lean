import ModelQuery.Proofs.Query.Extends

/-!
# Qualified names

A field of a model is written with the name of the model before it, and a column with its table; in
between is a point.  What stands before the first point is read back as the model, and the rest as
the field, whatever points are in it (`ofText_dotted`).  So a qualified name that is resolved
becomes a column of the model's table, the one the field of this name is stored in
(`column_dotted`).

Nothing keeps a column's own name from being resolved in this way, and it does not come back if some
field has the same name (`Model.stored`).
-/

namespace ModelQuery

/-! ## Cutting at the point -/

namespace Text

variable {sep : Char} {cs : List Char}

theorem cutFirst?_append (h : sep ∉ cs) (rest : List Char) :
    cutFirst? sep (cs ++ sep :: rest) = some (cs, rest) := by
  induction cs with
  | nil => exact if_pos rfl
  | cons c more ih =>
      rw [List.mem_cons, not_or] at h
      rw [List.cons_append, cutFirst?, if_neg (Ne.symm h.1), ih h.2]
      rfl

theorem cutFirst?_of_not_mem (h : sep ∉ cs) : cutFirst? sep cs = none := by
  induction cs with
  | nil => rfl
  | cons c more ih =>
      rw [List.mem_cons, not_or] at h
      rw [cutFirst?, if_neg (Ne.symm h.1), ih h.2]
      rfl

theorem toList_dotted (qualifier name : String) :
    (qualifier ++ "." ++ name).toList = qualifier.toList ++ '.' :: name.toList := by
  simp only [String.toList_append, List.append_assoc]
  rfl

/-- A qualified name is split at its first point. -/
theorem splitFirst?_dotted {qualifier : String} (h : '.' ∉ qualifier.toList) (name : String) :
    splitFirst? '.' (qualifier ++ "." ++ name) = some (qualifier, name) := by
  rw [splitFirst?, toList_dotted, cutFirst?_append h]
  simp only [Option.map_some, String.ofList_toList]

theorem splitAt_of_not_mem {s : String} (h : sep ∉ s.toList) : splitAt sep s = [s] := by
  rw [splitAt, pieces_of_not_mem h]
  simp only [List.map_cons, List.map_nil, String.ofList_toList]

theorem holds_eq_false_iff {s : String} {c : Char} : holds s c = false ↔ c ∉ s.toList := by
  rw [holds, ← Bool.not_eq_true, List.contains_iff_mem]

end Text

/-- Qualified names are the same only part by part. -/
theorem dotted_inj {a b c d : String} (ha : '.' ∉ a.toList) (hc : '.' ∉ c.toList) :
    dotted a b = dotted c d ↔ a = c ∧ b = d := by
  constructor
  · intro h
    have hsplit := congrArg (Text.splitFirst? '.') (Value.text.inj h)
    rw [Text.splitFirst?_dotted ha, Text.splitFirst?_dotted hc] at hsplit
    exact Prod.mk.inj (Option.some.inj hsplit)
  · rintro ⟨rfl, rfl⟩
    rfl

/-! ## Reading names -/

/-- A text that neither quotes nor marks anything, so that it is read as a name. -/
structure IsName (s : String) : Prop where
  unquoted : '"' ∉ s.toList
  unmarked : ':' ∉ s.toList

/-- A name that can stand before a point. -/
structure IsQualifier (s : String) : Prop extends IsName s where
  whole : '.' ∉ s.toList

instance (s : String) : Decidable (IsName s) :=
  decidable_of_iff ('"' ∉ s.toList ∧ ':' ∉ s.toList) ⟨fun ⟨hq, hm⟩ => ⟨hq, hm⟩, fun h => ⟨h.1, h.2⟩⟩

instance (s : String) : Decidable (IsQualifier s) :=
  decidable_of_iff (IsName s ∧ '.' ∉ s.toList) ⟨fun ⟨hn, hp⟩ => ⟨hn, hp⟩, fun h => ⟨h.1, h.2⟩⟩

namespace Identifier

variable {qualifier name : String}

/-- A qualified name is read as its two parts. -/
theorem ofText_dotted (hqualifier : IsQualifier qualifier) (hname : IsName name) :
    ofText (qualifier ++ "." ++ name) = .qualified qualifier name := by
  have hfree {c : Char} (hpoint : c ≠ '.') (hbefore : c ∉ qualifier.toList)
      (hbehind : c ∉ name.toList) : Text.holds (qualifier ++ "." ++ name) c = false := by
    rw [Text.holds_eq_false_iff, Text.toList_dotted, List.mem_append, List.mem_cons]
    simp only [hpoint, hbefore, hbehind, or_self, not_false_eq_true]
  rw [ofText, hfree (by decide) hqualifier.unquoted hname.unquoted,
    hfree (by decide) hqualifier.unmarked hname.unmarked,
    Text.splitFirst?_dotted hqualifier.whole]
  rfl

/-- A name without a point is read as itself. -/
theorem ofText_bare (h : IsQualifier name) : ofText name = .bare name := by
  rw [ofText, Text.holds_eq_false_iff.mpr h.unquoted, Text.holds_eq_false_iff.mpr h.unmarked,
    Text.splitFirst?, Text.cutFirst?_of_not_mem h.whole]
  rfl

end Identifier

/-! ## Resolving names -/

/-- The column that a name comes to: the one that the field so called is stored in, if there is such
a field. -/
def Model.stored (m : Model) (name : String) : String :=
  match m.field? name with
  | some f => f.column
  | none => name

namespace Scope

variable {scope : Scope} {m : Model} {qualifier name : String}

/-- A qualified name of a model's field is the model's table with the stored column. -/
theorem column_dotted (htarget : scope.target? (some qualifier) = some m) (htable : m.table ≠ "")
    (hqualifier : IsQualifier qualifier) (hname : IsName name) :
    scope.column (some true) (dotted qualifier name) = dotted m.table (m.stored name) := by
  have hcolumn : (scope.columnOf (some qualifier) name).text = m.stored name := by
    rw [columnOf, htarget, Option.bind_some, Model.stored]
    cases m.field? name with
    | none => rfl
    | some f => rfl
  show (scope.resolveText (some true) (qualifier ++ "." ++ name)).toValue = _
  rw [resolveText, Identifier.ofText_dotted hqualifier hname]
  show (scope.resolveField true (some qualifier) name).toValue = _
  have htableOf : scope.tableOf (some qualifier) = some m.table := by rw [tableOf, htarget]
  rw [resolveField, htableOf, hcolumn]
  exact congrArg Name.toValue (if_pos ⟨rfl, htable⟩)

/-- The table of the canonical model stands for that model as well. -/
theorem target?_of_canonical {own : Model} (h : scope.canonical = some own)
    (hown : scope.registry.lookupName? own.name = some own)
    (hm : scope.registry.lookupName? qualifier = some m) :
    scope.target? (some qualifier) = some (if qualifier = own.table then own else m) := by
  unfold target? ownQualifier
  rw [h]
  by_cases htable : qualifier = own.table
  · simp only [if_pos htable, Option.bind_some, hown]
  · simp only [if_neg htable, Option.bind_some, hm]

end Scope

end ModelQuery
