import ModelQuery.Proofs.Query.Columns
import ModelQuery.Proofs.Query.Resolved
import ModelQuery.Proofs.Text.Leftmost

/-!
# Expressions in place

An expression is resolved part by part, and the quotes around its parts are left out when it is
compiled.  In between, the parts are read once more out of the resolved text, so what a part is
resolved to must be something that could be a part (`isPart_resolvePart`): not empty, on one line,
and without quotes.  Then the compiled text is the expression with its leftmost shortest parts
replaced (`expression_resolved_in_place`).

The names of tables and columns are such texts.  The name of a model need not be, and it stands for
its table if the canonical model is not found by its own name; so a part behind the table of a
canonical model without a name is resolved to nothing, and is not found again
(`nameless_part_kept`).
-/

namespace ModelQuery

/-- A name that can be quoted: it is not empty, and it holds neither a quote nor a line break. -/
structure IsQuotable (s : String) : Prop where
  named : s ≠ ""
  unquoted : '"' ∉ s.toList
  oneLine : '\n' ∉ s.toList

instance (s : String) : Decidable (IsQuotable s) :=
  decidable_of_iff (s ≠ "" ∧ '"' ∉ s.toList ∧ '\n' ∉ s.toList)
    ⟨fun ⟨hn, hq, hl⟩ => ⟨hn, hq, hl⟩, fun h => ⟨h.1, h.2, h.3⟩⟩

/-- Quotable text can stand between quotation marks. -/
theorem IsQuotable.isPart {s : String} (h : IsQuotable s) : Text.IsPart s.toList :=
  Text.isPart_of_free (fun hnil => h.named (String.toList_inj.mp hnil)) h.oneLine h.unquoted

/-- A qualified name can be quoted if its qualifier can and the rest neither holds a quote nor a
line break. -/
theorem isPart_dotted {t c : String} (ht : IsQuotable t) (hquote : '"' ∉ c.toList)
    (hline : '\n' ∉ c.toList) : Text.IsPart (t ++ "." ++ c).toList := by
  have hfree {d : Char} (hd : d ≠ '.') (hdt : d ∉ t.toList) (hdc : d ∉ c.toList) :
      d ∉ (t ++ "." ++ c).toList := by
    rw [Text.toList_dotted, List.mem_append, List.mem_cons, not_or, not_or]
    exact ⟨hdt, hd, hdc⟩
  refine Text.isPart_of_free ?_ (hfree (by decide) ht.oneLine hline)
    (hfree (by decide) ht.unquoted hquote)
  rw [Text.toList_dotted]
  exact List.append_ne_nil_of_right_ne_nil _ (List.cons_ne_nil _ _)

/-- Tables and columns of a registry have names that can be quoted. -/
def Registry.Quotable (r : Registry) : Prop :=
  ∀ m ∈ r.models, IsQuotable m.table ∧ ∀ f ∈ m.fields.toList, IsQuotable f.column

instance (r : Registry) : Decidable r.Quotable :=
  inferInstanceAs (Decidable (∀ m ∈ r.models, IsQuotable m.table ∧
    ∀ f ∈ m.fields.toList, IsQuotable f.column))

namespace Scope

variable {s : Scope} {p x : String}

/-- A name stands for the name of the canonical model, which no model is found by and which cannot
be quoted. -/
def Unquotable (s : Scope) (p : String) : Prop :=
  ∃ m ∈ s.canonical, (Identifier.ofText p).qualifier? = some m.table ∧
    s.registry.lookupName? m.name = none ∧ ¬ IsQuotable m.name

/-- The parts among some segments are looked at one by one. -/
theorem qualified_of_all {ss : List Text.Segment}
    (h : ss.all (fun
      | .plain _ => true
      | .quoted inside => (Identifier.ofText (String.ofList inside)).qualifier? != some "") = true) :
    ∀ inside, .quoted inside ∈ ss →
      (Identifier.ofText (String.ofList inside)).qualifier? ≠ some "" :=
  fun _ hinside => bne_iff_ne.mp (List.all_eq_true.mp h _ hinside)

/-! ## Parts -/

/-- A part is resolved like any column that stands alone; if it begins with a quote it stays. -/
theorem resolveText_part (hp : Text.IsPart p.toList) :
    (s.resolveText none p).text = s.resolvePart p ∧
      (p.toList.head? = some '"' → s.resolveText none p = ⟨p, false⟩) := by
  have hkept : Text.mapQuoted s.resolvePart p = p := by
    rw [← String.toList_inj, Text.toList_mapQuoted,
      Text.replaceParts_of_no_parts (Text.not_mem_segments_of_isPart hp)]
  have hraw (h : Identifier.ofText p = .raw p) : s.resolveText none p = ⟨p, false⟩ := by
    rw [resolveText, h, resolveIdentifier, hkept]
  constructor
  · rcases Identifier.ofText_cases p with ⟨h, -⟩ | h | ⟨q, name, -, -, -, h⟩ | ⟨-, h⟩
    · rw [hraw h, resolvePart, h]
      rfl
    · rw [resolveText, resolvePart, h]
      rfl
    · rw [resolveText, resolvePart, h]
      rfl
    · rw [resolveText, resolvePart, h]
      rfl
  · intro hhead
    have hholds : Text.holds p '"' = true :=
      List.contains_iff_mem.mpr (List.mem_of_mem_head? hhead)
    refine hraw ?_
    rw [Identifier.ofText, if_pos hholds]

/-- In a quotable registry a name without quotation marks and line ends is stored as such a one. -/
theorem stored_free {m : Model} (hr : s.registry.Quotable) (hm : m ∈ s.registry.models)
    {name : String} (hquote : '"' ∉ name.toList) (hline : '\n' ∉ name.toList) :
    '"' ∉ (m.stored name).toList ∧ '\n' ∉ (m.stored name).toList := by
  rcases m.stored_cases name with ⟨f, hf, -, hstored⟩ | hself
  · rw [hstored]
    have hcolumn := (hr m hm).2 f hf
    exact ⟨hcolumn.unquoted, hcolumn.oneLine⟩
  · rw [hself]
    exact ⟨hquote, hline⟩

/-- What a part is resolved to could be a part, if its qualifier is not empty and stands for nothing
that cannot be quoted. -/
theorem isPart_resolvePart (hr : s.registry.Quotable) (hp : Text.IsPart p.toList)
    (hq : (Identifier.ofText p).qualifier? ≠ some "") (hc : ¬ s.Unquotable p) :
    Text.IsPart (s.resolvePart p).toList := by
  rcases Identifier.ofText_cases p with ⟨h, -⟩ | h | ⟨q, name, hqualifier, hname, rfl, h⟩ |
    ⟨hbare, h⟩
  · rw [resolvePart_of_ofText h]
    exact hp
  · rw [resolvePart_of_ofText h]
    exact hp
  · have hline := hp.oneLine
    rw [Text.toList_dotted, List.mem_append, List.mem_cons, not_or, not_or] at hline
    rw [h] at hq
    have hne : q ≠ "" := fun heq => hq (congrArg some heq)
    have hresolved : s.resolvePart (q ++ "." ++ name) = (s.resolveField true (some q) name).text :=
      resolvePart_of_ofText h
    rw [hresolved]
    cases htarget : s.target? (some q) with
    | some m =>
        have hm := mem_of_target? htarget
        have htable : s.tableOf (some q) = some m.table := by rw [tableOf, htarget]
        obtain ⟨hcolumn, hend⟩ := stored_free hr hm hname.unquoted hline.2.2
        rw [resolveField_of_tableOf htable (hr m hm).1.named, text_columnOf htarget]
        exact isPart_dotted (hr m hm).1 hcolumn hend
    | none =>
        -- the table is the qualifier itself, or the name of the canonical model
        have htable : ∃ t, s.tableOf (some q) = some t ∧ IsQuotable t := by
          have hself : IsQuotable q := ⟨hne, hqualifier.unquoted, hline.1⟩
          have heq : s.tableOf (some q) = s.ownQualifier (some q) := by rw [tableOf, htarget]
          rw [heq]
          unfold target? at htarget
          unfold ownQualifier at htarget ⊢
          cases hcanonical : s.canonical with
          | none => exact ⟨q, rfl, hself⟩
          | some m =>
              rw [hcanonical] at htarget
              dsimp only at htarget ⊢
              split at htarget
              · rename_i htable
                rw [if_pos htable]
                refine ⟨m.name, rfl, by_contra fun hbad => hc ⟨m, hcanonical, ?_, htarget, hbad⟩⟩
                rw [h, ← htable]
                rfl
              · rename_i htable
                rw [if_neg htable]
                exact ⟨q, rfl, hself⟩
        obtain ⟨t, htable, ht⟩ := htable
        have hcolumn : (s.columnOf (some q) name).text = name := by
          rw [columnOf, htarget, Option.bind_none]
        rw [resolveField_of_tableOf htable ht.named, hcolumn]
        exact isPart_dotted ht hname.unquoted hline.2.2
  · rw [resolvePart_bare hbare]
    cases htarget : s.target? none with
    | none =>
        rw [columnOf, htarget, Option.bind_none]
        exact hp
    | some m =>
        rw [text_columnOf htarget]
        rcases m.stored_cases p with ⟨f, hf, -, hstored⟩ | hself
        · rw [hstored]
          exact ((hr m (mem_of_target? htarget)).2 f hf).isPart
        · rw [hself]
          exact hp

/-! ## Expressions -/

/-- A text with a quote, or one that is said to be an expression, is resolved part by part. -/
theorem column_expression {v : Value} (hv : v.text? = some x ∨ v = .identifier (.raw x))
    (hquote : '"' ∈ x.toList) (qualify : Option Bool) :
    s.column qualify v = .text (Text.mapQuoted s.resolvePart x) := by
  have hraw : Identifier.ofText x = .raw x := by
    rw [Identifier.ofText, if_pos (show Text.holds x '"' = true from List.contains_iff_mem.mpr hquote)]
  have htext : s.resolveText qualify x = ⟨Text.mapQuoted s.resolvePart x, false⟩ := by
    rw [resolveText, hraw]
    rfl
  rcases hv with hv | rfl
  · rcases Value.eq_of_text? hv with rfl | rfl
    · exact congrArg Name.toValue htext
    · exact congrArg Name.toValue htext
  · rfl

/-- A text with a quote that does not end in a point and a star is literal SQL without the quotes
around its parts. -/
theorem textExpr_expression (hquote : '"' ∈ x.toList) (hend : ¬ ['.', '*'] <:+ x.toList)
    (c : Sql.Catalog) : c.textExpr x = .ok (.verbatim (Text.unquoteParts x)) := by
  have hraw : Sql.isRaw x = true := List.any_eq_true.mpr ⟨'"', hquote, rfl⟩
  have hstar : ¬ (x = "*" ∨ x.toList.reverse.take 2 = ['*', '.']) := by
    rintro (rfl | hstar)
    · exact absurd hquote (by decide)
    · refine hend ?_
      rw [← List.reverse_prefix, List.prefix_iff_eq_take]
      exact hstar.symm
  rw [Sql.Catalog.textExpr, if_neg hstar, if_pos hraw]

/-- **EXPRESSIONS IN PLACE**: an expression has its leftmost shortest parts in one way.  A part that
begins with a quote is resolved to itself.  If no part has an empty qualifier, nor one that stands
for the name of a canonical model that is not found by it and cannot be quoted, then in every clause
the expression that is resolved is read as literal SQL: the same characters, with each part, quotes
included, replaced by what it is resolved to as a column that stands alone. -/
theorem expression_resolved_in_place {v : Value} (hr : s.registry.Quotable)
    (hv : v.text? = some x ∨ v = .identifier (.raw x)) (hquote : '"' ∈ x.toList)
    (hend : ¬ ['.', '*'] <:+ x.toList) :
    ∃ ss, Text.LeftmostParts x.toList ss ∧ (∀ other, Text.LeftmostParts x.toList other → other = ss) ∧
      (∀ inside, .quoted inside ∈ ss → inside.head? = some '"' →
        (s.resolveText none (String.ofList inside)).text = String.ofList inside) ∧
      ((∀ inside, .quoted inside ∈ ss →
          (Identifier.ofText (String.ofList inside)).qualifier? ≠ some "" ∧
            ¬ s.Unquotable (String.ofList inside)) →
        ∀ (qualify : Option Bool) (c : Sql.Catalog),
          ReadAs c (s.column qualify v) (.verbatim (String.ofList
            (ss.flatMap (Text.Segment.written fun p => (s.resolveText none p).text))))) := by
  have hpart (inside : List Char) (h : .quoted inside ∈ Text.segments x.toList) :
      Text.IsPart (String.ofList inside).toList := by
    rw [String.toList_ofList]
    exact Text.isPart_of_mem_segments h
  refine ⟨Text.segments x.toList, Text.leftmostParts_iff.mpr rfl,
    fun other h => Text.leftmostParts_iff.mp h, ?_, ?_⟩
  · intro inside hinside hhead
    rw [(resolveText_part (hpart inside hinside)).2 (by rw [String.toList_ofList]; exact hhead)]
  · intro hqualified qualify c
    have hresolved : ∀ inside, .quoted inside ∈ Text.segments x.toList →
        Text.IsPart (s.resolvePart (String.ofList inside)).toList := fun inside hinside =>
      isPart_resolvePart hr (hpart inside hinside) (hqualified inside hinside).1
        (hqualified inside hinside).2
    -- the resolved text has quotes where the expression had them, and ends as it ended
    have hquote' : '"' ∈ (Text.mapQuoted s.resolvePart x).toList := by
      rw [Text.toList_mapQuoted]
      exact Text.quote_mem_replaceParts hquote
    have hend' : ¬ ['.', '*'] <:+ (Text.mapQuoted s.resolvePart x).toList := by
      rw [Text.toList_mapQuoted]
      exact fun h => hend (Text.suffix_of_replaceParts (by decide) h)
    have hwritten : (Text.segments x.toList).flatMap (Text.Segment.written s.resolvePart) =
        (Text.segments x.toList).flatMap
          (Text.Segment.written fun p => (s.resolveText none p).text) := by
      rw [List.flatMap_def, List.flatMap_def]
      refine congrArg List.flatten (List.map_congr_left fun segment hsegment => ?_)
      cases segment with
      | plain d => rfl
      | quoted inside =>
          exact congrArg String.toList (resolveText_part (hpart inside hsegment)).1.symm
    rw [readAs_iff, column_expression hv hquote]
    show (c.textExpr (Text.mapQuoted s.resolvePart x)).map Value.sql = _
    rw [textExpr_expression hquote' hend', Text.unquoteParts_mapQuoted hresolved, hwritten]
    rfl

/-- Two titles in an expression that ends in a stray quote. -/
theorem titles_resolved_in_place :
    let registry := Registry.ofModels
      [Builder.plainModel "post" "posts" [.plain "title" "headline" true "post"]]
    let s : Scope := ⟨registry, registry.lookupName? "post"⟩
    ReadAs ⟨[]⟩ (s.column none (.text "MAX(\"title\") < \"post.title\" || \""))
      (.verbatim "MAX(headline) < posts.headline || \"") := by
  intro registry s
  obtain ⟨ss, hss, -, -, hread⟩ :=
    @expression_resolved_in_place s "MAX(\"title\") < \"post.title\" || \""
      (.text "MAX(\"title\") < \"post.title\" || \"") (by decide +kernel) (.inl rfl) (by decide)
      (by decide)
  have hcut : ss = "MAX(".toList.map .plain ++ .quoted "title".toList ::
      (") < ".toList.map .plain ++ .quoted "post.title".toList :: " || \"".toList.map .plain) :=
    (Text.leftmostParts_iff.mp hss).trans (by decide +kernel)
  subst hcut
  -- the model is found by its name, so its table stands for nothing else
  have hfound : (registry.lookupName? "post").any
      (fun m => (registry.lookupName? m.name).isSome) = true := by decide +kernel
  have hquotable : ∀ p, ¬ s.Unquotable p := by
    rintro p ⟨m, hm, -, hnone, -⟩
    rw [show registry.lookupName? "post" = some m from hm, Option.any_some, hnone] at hfound
    cases hfound
  obtain ⟨text, htext, hin⟩ : ∃ text, text = String.ofList _ ∧
      ReadAs ⟨[]⟩ (s.column none (.text "MAX(\"title\") < \"post.title\" || \"")) (.verbatim text) :=
    ⟨_, rfl, hread (fun inside hinside => ⟨qualified_of_all (by decide) inside hinside,
      hquotable _⟩) none ⟨[]⟩⟩
  have hwhole : text = "MAX(headline) < posts.headline || \"" := htext.trans (by decide +kernel)
  exact hwhole ▸ hin

/-! ## A model without a name -/

/-- What stands behind the table of a canonical model without a name is resolved to nothing.  Then
the quotes around it are no part any more, and stay. -/
theorem nameless_part_kept :
    let registry := Registry.ofModels [Builder.plainModel "" "posts" []]
    let s : Scope := ⟨registry, registry.find? ""⟩
    let ss : List Text.Segment :=
      "COUNT(".toList.map .plain ++ [.quoted "posts.".toList, .plain ')']
    s.registry.Quotable ∧ s.canonical.isSome ∧
      Text.LeftmostParts "COUNT(\"posts.\")".toList ss ∧
      (∀ inside, .quoted inside ∈ ss →
        (Identifier.ofText (String.ofList inside)).qualifier? ≠ some "") ∧
      String.ofList (ss.flatMap (Text.Segment.written fun p => (s.resolveText none p).text)) =
        "COUNT()" ∧
      ¬ ReadAs ⟨[]⟩ (s.column none (.text "COUNT(\"posts.\")")) (.verbatim "COUNT()") := by
  intro registry s ss
  have hresolved : s.column none (.text "COUNT(\"posts.\")") = .text "COUNT(\"\")" :=
    congrArg Name.toValue (show s.resolveText none "COUNT(\"posts.\")" = ⟨"COUNT(\"\")", false⟩ by
      decide +kernel)
  have hbare : Text.unquoteParts "COUNT(\"\")" = "COUNT(\"\")" := by decide +kernel
  refine ⟨by decide +kernel, rfl, Text.leftmostParts_iff.mpr (by decide +kernel),
    qualified_of_all (by decide), by decide +kernel, fun hread => ?_⟩
  rw [readAs_iff, hresolved] at hread
  have hliteral : (Sql.Catalog.textExpr ⟨[]⟩ "COUNT(\"\")").map Value.sql =
      .ok (.sql (.verbatim "COUNT()")) := hread
  rw [textExpr_expression (by decide) (by decide), hbare] at hliteral
  exact absurd hliteral (by simp [Except.map])

end Scope

end ModelQuery
