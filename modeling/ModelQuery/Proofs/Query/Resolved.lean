import ModelQuery.Proofs.Query.Uncaptured
import ModelQuery.Proofs.Text.Replaced

/-!
# Resolving what is resolved

A qualified name that is resolved becomes the name of a table, a point and the name of a column, and
this text is read as a qualified name again (`ofText_cases` says all that a text can be read as).
If names are not captured the table comes to itself then, and so does the column (`Settles`).
Labels stay in any case.  In an expression each quoted part is one of these, or a bare name, which
becomes a bare column; what it becomes can stand in its place, so the parts of the result are where
they were.

So to resolve once more what was resolved changes nothing (`resolved_resolves_to_itself`).  This
needs a canonical model that is found by its name.  A model without a name is not: nothing is
qualified by it, and what stands behind its table is resolved in its own right the second time
(`nameless_resolved_twice`).
-/

namespace ModelQuery

/-! ## Reading identifiers -/

namespace Text

variable {sep : Char} {cs before after : List Char}

theorem cutFirst?_eq_none_iff : cutFirst? sep cs = none ↔ sep ∉ cs := by
  refine ⟨fun h hmem => ?_, cutFirst?_of_not_mem⟩
  obtain ⟨before, after, rfl, hbefore⟩ := List.eq_append_cons_of_mem hmem
  rw [cutFirst?_append hbefore] at h
  cases h

/-- What is cut at the first separator has none before it. -/
theorem of_cutFirst? (h : cutFirst? sep cs = some (before, after)) :
    cs = before ++ sep :: after ∧ sep ∉ before := by
  have hmem : sep ∈ cs := by
    by_contra hnone
    rw [cutFirst?_of_not_mem hnone] at h
    cases h
  obtain ⟨before', after', rfl, hbefore⟩ := List.eq_append_cons_of_mem hmem
  rw [cutFirst?_append hbefore] at h
  cases h
  exact ⟨rfl, hbefore⟩

/-- A name that is split is its parts with a point between, and the first has none. -/
theorem of_splitFirst? {s qualifier name : String} (h : splitFirst? '.' s = some (qualifier, name)) :
    s = qualifier ++ "." ++ name ∧ '.' ∉ qualifier.toList := by
  obtain ⟨⟨before, after⟩, hcut, heq⟩ := Option.map_eq_some_iff.mp h
  obtain ⟨rfl, rfl⟩ := Prod.mk.inj heq
  obtain ⟨hchars, hbefore⟩ := of_cutFirst? hcut
  rw [String.toList_ofList]
  refine ⟨String.toList_inj.mp ?_, hbefore⟩
  rw [toList_dotted, String.toList_ofList, String.toList_ofList, hchars]

end Text

/-- What a text is read as. -/
theorem Identifier.ofText_cases (s : String) :
    (ofText s = .raw s ∧ Text.holds s '"' = true) ∨ ofText s = .label s ∨
      (∃ qualifier name, IsQualifier qualifier ∧ IsName name ∧ s = qualifier ++ "." ++ name ∧
        ofText s = .qualified qualifier name) ∨
      (IsQualifier s ∧ ofText s = .bare s) := by
  rw [ofText]
  by_cases hquote : Text.holds s '"' = true
  · exact .inl ⟨if_pos hquote, hquote⟩
  · by_cases hmark : Text.holds s ':' = true
    · exact .inr (.inl ((if_neg hquote).trans (if_pos hmark)))
    · rw [if_neg hquote, if_neg hmark]
      rw [Bool.not_eq_true, Text.holds_eq_false_iff] at hquote hmark
      cases hsplit : Text.splitFirst? '.' s with
      | some parts =>
          obtain ⟨qualifier, name⟩ := parts
          obtain ⟨rfl, hwhole⟩ := Text.of_splitFirst? hsplit
          rw [Text.toList_dotted, List.mem_append, List.mem_cons, not_or, not_or] at hquote hmark
          exact .inr (.inr (.inl ⟨qualifier, name, ⟨⟨hquote.1, hmark.1⟩, hwhole⟩,
            ⟨hquote.2.2, hmark.2.2⟩, rfl, rfl⟩))
      | none =>
          have hwhole := Text.cutFirst?_eq_none_iff.mp (Option.map_eq_none_iff.mp hsplit)
          exact .inr (.inr (.inr ⟨⟨⟨hquote, hmark⟩, hwhole⟩, rfl⟩))

/-- The qualifier of a qualified name. -/
def Identifier.qualifier? : Identifier String → Option String
  | .qualified q _ => some q
  | _ => none

/-- No qualifier in an identifier is empty, neither its own nor that of a quoted part. -/
structure Qualifying (s : String) : Prop where
  whole : (Identifier.ofText s).qualifier? ≠ some ""
  parts : ∀ inside, .quoted inside ∈ Text.segments s.toList →
    (Identifier.ofText (String.ofList inside)).qualifier? ≠ some ""

namespace Scope

variable {s : Scope} {m : Model} {q : Option String} {t c name x : String}

/-! ## Qualified names -/

/-- A table and a column that are resolved to themselves. -/
structure Settles (s : Scope) (t c : String) : Prop where
  table : IsQualifier t ∧ t ≠ ""
  column : IsName c
  kept : s.resolveField true (some t) c = ⟨t ++ "." ++ c, false⟩

/-- Unless it is not to be qualified, a settled name is resolved to itself. -/
theorem Settles.resolveSimple (h : s.Settles t c) (qualify : Option Bool)
    (hqualify : qualify.getD true = true) :
    s.resolveSimple qualify (.ofText (t ++ "." ++ c)) = ⟨t ++ "." ++ c, false⟩ := by
  rw [Identifier.ofText_dotted h.table.1 h.column, Scope.resolveSimple, hqualify, h.kept]

/-- A settled name stays itself as a column. -/
theorem Settles.column_dotted (h : s.Settles t c) :
    s.column (some true) (dotted t c) = dotted t c := by
  rw [dotted, column_text, resolveText, Identifier.ofText_dotted h.table.1 h.column]
  exact congrArg Name.toValue h.kept

/-- With a table for the qualifier, a field is resolved to the table and the column. -/
theorem resolveField_of_tableOf (htable : s.tableOf q = some t) (hne : t ≠ "") (name : String) :
    s.resolveField true q name = ⟨t ++ "." ++ (s.columnOf q name).text, false⟩ := by
  rw [resolveField, htable]
  exact if_pos ⟨rfl, hne⟩

namespace Uncaptured

/-- A name of a model becomes a column of its table, and stays one. -/
theorem settles_of_target (h : s.Uncaptured) (htarget : s.target? q = some m) (hname : IsName name) :
    s.resolveField true q name = ⟨m.table ++ "." ++ m.stored name, false⟩ ∧
      s.Settles m.table (m.stored name) := by
  have hm := mem_of_target? htarget
  have hword := h.registry.tables m hm
  have htable : s.tableOf q = some m.table := by rw [tableOf, htarget]
  refine ⟨?_, ⟨hword.toIsQualifier, hword.named⟩, ?_, ?_⟩
  · rw [resolveField_of_tableOf htable hword.named, text_columnOf htarget]
  · rcases m.stored_cases name with ⟨f, hf, -, hstored⟩ | hself
    · rw [hstored]
      exact (h.registry.fields m hm f hf).2.toIsName
    · exact hself.symm ▸ hname
  · rw [resolveField_of_tableOf (h.tableOf_table hm) hword.named, h.columnOf_table hm]

/-- A name of nothing that is known stays as it is. -/
theorem settles_of_unknown {q : String} (h : s.Uncaptured) (hq : s.target? (some q) = none)
    (hqualifier : IsQualifier q) (hne : q ≠ "") (hname : IsName name) : s.Settles q name := by
  have htable : s.tableOf (some q) = some q := by
    rw [tableOf, hq]
    exact h.ownQualifier_of_target? hq
  refine ⟨⟨hqualifier, hne⟩, hname, ?_⟩
  rw [resolveField_of_tableOf htable hne, columnOf, hq, Option.bind_none]

/-- A bare name where there is no model it could be one of stays as it is. -/
theorem resolveField_of_nothing (h : s.Uncaptured) (hnone : s.target? none = none) (qualify : Bool)
    (name : String) : s.resolveField qualify none name = ⟨name, false⟩ := by
  have hcanonical : s.canonical = none := h.target?_none.symm.trans hnone
  have htable : s.tableOf none = none := by
    unfold tableOf ownQualifier
    rw [hnone, hcanonical]
  rw [resolveField, htable, columnOf, hnone, Option.bind_none]

/-- What a qualified name is resolved to is resolved to itself, and is written on one line if the
name was. -/
theorem settles_of_qualified {q : String} (h : s.Uncaptured) (hqualifier : IsQualifier q)
    (hne : q ≠ "") (hname : IsName name) :
    ∃ t c, s.resolveField true (some q) name = ⟨t ++ "." ++ c, false⟩ ∧ s.Settles t c ∧
      ('\n' ∉ (q ++ "." ++ name).toList → '\n' ∉ (t ++ "." ++ c).toList) := by
  cases htarget : s.target? (some q) with
  | none =>
      have hsettles := h.settles_of_unknown htarget hqualifier hne hname
      exact ⟨q, name, hsettles.kept, hsettles, id⟩
  | some m =>
      obtain ⟨hresolved, hsettles⟩ := h.settles_of_target htarget hname
      refine ⟨_, _, hresolved, hsettles, fun hline => ?_⟩
      have hm := mem_of_target? htarget
      rw [Text.toList_dotted, List.mem_append, List.mem_cons, not_or, not_or] at hline ⊢
      refine ⟨(h.registry.tables m hm).oneLine, by decide, ?_⟩
      rcases m.stored_cases name with ⟨f, hf, -, hstored⟩ | hself
      · rw [hstored]
        exact (h.registry.fields m hm f hf).2.oneLine
      · rw [hself]
        exact hline.2.2

end Uncaptured

/-! ## Quoted parts -/

/-- A part is resolved as the identifier that it is read as. -/
theorem resolvePart_of_ofText {p : String} {i : Identifier String} (h : Identifier.ofText p = i) :
    s.resolvePart p = (s.resolveSimple none i).text := by
  rw [resolvePart, h]

/-- A bare part is resolved as a column without a qualifier. -/
theorem resolvePart_bare {p : String} (h : IsQualifier p) :
    s.resolvePart p = (s.columnOf none p).text := by
  rw [resolvePart_of_ofText (Identifier.ofText_bare h), resolveSimple, resolveField]
  split
  · rw [if_neg fun hqualify => Bool.false_ne_true hqualify.1]
  · rfl

namespace Uncaptured

/-- What the inside of a part is resolved to can stand in its place, and is resolved to itself. -/
theorem resolvePart_resolvePart (h : s.Uncaptured) {p : String} (hp : Text.IsPart p.toList)
    (hqualifying : (Identifier.ofText p).qualifier? ≠ some "") :
    Text.IsPart (s.resolvePart p).toList ∧ s.resolvePart (s.resolvePart p) = s.resolvePart p := by
  rcases Identifier.ofText_cases p with ⟨hraw, -⟩ | hlabel | ⟨q, name, hq, hname, rfl, hof⟩ |
    ⟨hbare, -⟩
  · have hself : s.resolvePart p = p := resolvePart_of_ofText hraw
    rw [hself, hself]
    exact ⟨hp, rfl⟩
  · have hself : s.resolvePart p = p := resolvePart_of_ofText hlabel
    rw [hself, hself]
    exact ⟨hp, rfl⟩
  · rw [hof] at hqualifying
    have hne : q ≠ "" := fun h => hqualifying (congrArg some h)
    obtain ⟨t, c, hresolved, hsettles, hline⟩ := h.settles_of_qualified hq hne hname
    have hpart : s.resolvePart (q ++ "." ++ name) = t ++ "." ++ c := by
      rw [resolvePart_of_ofText hof, resolveSimple]
      exact congrArg Name.text hresolved
    rw [hpart]
    refine ⟨Text.isPart_of_free ?_ (hline hp.oneLine) ?_, ?_⟩
    · rw [Text.toList_dotted]
      exact List.append_ne_nil_of_right_ne_nil _ (List.cons_ne_nil _ _)
    · rw [Text.toList_dotted, List.mem_append, List.mem_cons, not_or, not_or]
      exact ⟨hsettles.table.1.unquoted, by decide, hsettles.column.unquoted⟩
    · exact congrArg Name.text (hsettles.resolveSimple none rfl)
  · rw [resolvePart_bare hbare]
    cases htarget : s.target? none with
    | none =>
        have hself : (s.columnOf none p).text = p := by rw [columnOf, htarget, Option.bind_none]
        rw [hself, resolvePart_bare hbare, hself]
        exact ⟨hp, rfl⟩
    | some m =>
        have hm := mem_of_target? htarget
        have hstored := Model.stored_stored h.registry hm p
        rw [text_columnOf htarget]
        rcases m.stored_cases p with ⟨f, hf, -, hcolumn⟩ | hself
        · have hword := (h.registry.fields m hm f hf).2
          rw [hcolumn] at hstored ⊢
          refine ⟨Text.isPart_of_free ?_ hword.oneLine hword.unquoted, ?_⟩
          · exact fun hnil => hword.named (String.toList_inj.mp hnil)
          · rw [resolvePart_bare hword.toIsQualifier, text_columnOf htarget, hstored]
        · rw [hself, resolvePart_bare hbare, text_columnOf htarget, hself]
          exact ⟨hp, rfl⟩

/-! ## Identifiers -/

/-- A text that is resolved is resolved to a text, and that to itself. -/
theorem column_column (h : s.Uncaptured) (hx : Qualifying x) :
    s.column (some true) (s.column (some true) (.text x)) = s.column (some true) (.text x) := by
  rw [column_text, resolveText]
  rcases Identifier.ofText_cases x with ⟨hraw, hquote⟩ | hlabel | ⟨q, name, hq, hname, rfl, hof⟩ |
    ⟨hbare, hof⟩
  · -- the parts are replaced by what stays, and the quotes around them stay
    have hagain : Identifier.ofText (Text.mapQuoted s.resolvePart x) =
        .raw (Text.mapQuoted s.resolvePart x) := by
      rw [Identifier.ofText, Text.holds_mapQuoted hquote, if_pos rfl]
    have hpart (inside : List Char) (hinside : .quoted inside ∈ Text.segments x.toList) :=
      h.resolvePart_resolvePart (p := String.ofList inside)
        (by rw [String.toList_ofList]; exact Text.isPart_of_mem_segments hinside)
        (hx.parts inside hinside)
    rw [hraw, resolveIdentifier]
    show (s.resolveText (some true) (Text.mapQuoted s.resolvePart x)).toValue = _
    rw [resolveText, hagain, resolveIdentifier, Text.mapQuoted_mapQuoted
      (fun inside hinside => (hpart inside hinside).1)
      (fun inside hinside => (hpart inside hinside).2)]
  · have hself : s.resolveIdentifier (some true) (.label x) = ⟨x, false⟩ := rfl
    rw [hlabel, hself]
    show (s.resolveText (some true) x).toValue = _
    rw [resolveText, hlabel, hself]
  · have hwhole := hx.whole
    rw [hof] at hwhole
    have hne : q ≠ "" := fun h => hwhole (congrArg some h)
    obtain ⟨t, c, hresolved, hsettles, -⟩ := h.settles_of_qualified hq hne hname
    have hfirst : s.resolveIdentifier (some true) (.qualified q name) = ⟨t ++ "." ++ c, false⟩ :=
      hresolved
    rw [hof, hfirst]
    exact hsettles.column_dotted
  · cases htarget : s.target? none with
    | none =>
        have hself : s.resolveIdentifier (some true) (.bare x) = ⟨x, false⟩ :=
          h.resolveField_of_nothing htarget true x
        rw [hof, hself]
        show (s.resolveText (some true) x).toValue = _
        rw [resolveText, hof, hself]
    | some m =>
        obtain ⟨hresolved, hsettles⟩ := h.settles_of_target htarget hbare.toIsName
        have hfirst : s.resolveIdentifier (some true) (.bare x) =
            ⟨m.table ++ "." ++ m.stored x, false⟩ := hresolved
        rw [hof, hfirst]
        exact hsettles.column_dotted

end Uncaptured

/-- **WHAT IS RESOLVED RESOLVES TO ITSELF**: in a registry made in any way whose names are not
captured, for a canonical model of it that has a name, or none, a column that is resolved with its
table is resolved to itself, whatever it was written as, a name, a label or an expression with
quoted parts, if no qualifier in it is empty. -/
theorem resolved_resolves_to_itself {ms : List Model} {xs : List Registration}
    (hregistry : s.registry = (Registry.ofModels ms).afterAll xs)
    (huncaptured : s.registry.Uncaptured)
    (hcanonical : ∀ m ∈ s.canonical, m ∈ s.registry.models ∧ m.name ≠ "") {v : Value}
    (hv : v.text? = some x) (hx : Qualifying x) :
    s.column (some true) (s.column (some true) v) = s.column (some true) v := by
  have hkeyed : s.registry.Keyed := hregistry ▸ Registry.keyed_made ms xs
  have hscope : s.Uncaptured := ⟨hkeyed, huncaptured, hcanonical⟩
  have htext := hscope.column_column hx
  rcases Value.eq_of_text? hv with rfl | rfl
  · exact htext
  · exact htext

/-- The quoted title of posts stays as it is when it was resolved. -/
theorem quoted_title_stays :
    let registry := (Registry.ofModels
      [Builder.plainModel "post" "posts" [.plain "title" "headline" true "post"]]).afterAll []
    let s : Scope := ⟨registry, registry.lookupName? "post"⟩
    let v := s.column (some true) (.text "\"post.title\"")
    v = .text "\"posts.headline\"" ∧ s.column (some true) v = v := by
  intro registry s v
  have hopened : Text.openedPart? "post.title\"".toList = some ("post.title".toList, []) := by decide
  have hqualifying : Qualifying "\"post.title\"" := by
    constructor
    case whole => decide
    case parts =>
      intro inside hinside
      rw [show "\"post.title\"".toList = '"' :: "post.title\"".toList by decide,
        Text.segments_opened hopened, Text.segments, List.mem_singleton] at hinside
      cases hinside
      decide
  have hpart : s.resolvePart "post.title" = "posts.headline" := by decide +kernel
  have hcanonical : ∀ m ∈ s.canonical, m ∈ s.registry.models ∧ m.name ≠ "" := by
    intro m hm
    have hfound : registry.lookupName? "post" = some m := hm
    have hnamed : (registry.lookupName? "post").any (·.name != "") = true := by decide +kernel
    rw [hfound] at hnamed
    exact ⟨Registry.mem_of_lookupName? hfound, bne_iff_ne.mp hnamed⟩
  refine ⟨congrArg Value.text (String.toList_inj.mp ?_),
    @resolved_resolves_to_itself s _ [_] [] rfl (by decide +kernel) hcanonical _ rfl hqualifying⟩
  show (Text.mapQuoted s.resolvePart "\"post.title\"").toList = _
  rw [Text.toList_mapQuoted, show "\"post.title\"".toList = '"' :: "post.title\"".toList by decide,
    Text.replaceParts_opened hopened, String.ofList_toList, hpart, Text.replaceParts, Text.segments]
  decide

/-! ## A model without a name -/

/-- Posts without a name for the model, and something stored in `as`. -/
def namelessModels : List Model := [Builder.plainModel "" "posts" [], Builder.plainModel "a" "as" []]

/-- What stands behind the table of a model without a name is not qualified, and so it is resolved
once more. -/
theorem nameless_resolved_twice :
    let registry := Registry.ofModels namelessModels
    let s : Scope := ⟨registry, registry.find? ""⟩
    registry.Uncaptured ∧ s.canonical.isSome ∧ Qualifying "posts.a.b" ∧
      s.column (some true) (.text "posts.a.b") = .text "a.b" ∧
      s.column (some true) (.text "a.b") = .text "as.b" := by
  intro registry s
  have hparts : ∀ inside, .quoted inside ∉ Text.segments "posts.a.b".toList :=
    fun inside hinside => absurd (Text.quote_mem_of_mem_segments hinside) (by decide)
  have hqualifying : Qualifying "posts.a.b" :=
    ⟨by decide, fun inside hinside => absurd hinside (hparts inside)⟩
  have hfirst : s.resolveText (some true) "posts.a.b" = ⟨"a.b", false⟩ := by decide +kernel
  have hsecond : s.resolveText (some true) "a.b" = ⟨"as.b", false⟩ := by decide +kernel
  exact ⟨by decide +kernel, rfl, hqualifying, congrArg Name.toValue hfirst,
    congrArg Name.toValue hsecond⟩

end Scope

end ModelQuery
