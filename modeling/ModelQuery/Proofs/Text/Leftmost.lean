import ModelQuery.Proofs.Text.Replaced

/-!
# The leftmost quoted parts

Which parts an expression has can be said without reading it.  A quote can open a part if what
stands behind it, up to some other quote, is not empty and on one line (`Closes`); then the part
goes to the nearest such quote.  Parts are taken from the left, and a quote that can open none is a
character like any other (`LeftmostParts`).  An expression has its parts in this one way, in which
`segments` cuts it (`leftmostParts_iff`).

So a part has no parts of its own (`not_mem_segments_of_isPart`), and if the parts of an expression
are replaced by what could be parts and the quotes around them left out, the replacements stand
where the parts stood (`unquoteParts_mapQuoted`).
-/

namespace ModelQuery.Text

variable {cs inside after l : List Char} {ss : List Segment} {c : Char}

/-! ## Parts that can be opened -/

/-- Behind an opening quote stand the inside of a part, a quote that closes it, and the rest. -/
structure Closes (cs inside after : List Char) : Prop where
  eq : cs = inside ++ '"' :: after
  nonempty : inside ≠ []
  oneLine : '\n' ∉ inside

/-- The part is closed by the nearest quote that can close it. -/
def ClosesFirst (cs inside after : List Char) : Prop :=
  Closes cs inside after ∧
    ∀ other rest, Closes cs other rest → inside.length ≤ other.length

/-- A part that can stand between quotes is closed by the quote behind it. -/
theorem Closes.of_isPart (h : IsPart inside) (heq : cs = inside ++ '"' :: after) :
    Closes cs inside after := by
  have hline := h.oneLine
  obtain ⟨c, rest, rfl, -, -⟩ := h
  exact ⟨heq, List.cons_ne_nil c rest, hline⟩

/-- What is opened is closed by the first quote that can close it. -/
theorem openedPart?_eq_some_iff_closesFirst :
    openedPart? cs = some (inside, after) ↔ ClosesFirst cs inside after := by
  rw [openedPart?_eq_some_iff]
  constructor
  · rintro ⟨hpart, heq⟩
    refine ⟨.of_isPart hpart heq, fun other rest hother => ?_⟩
    obtain ⟨c, inner, rfl, -, hinner⟩ := hpart
    obtain ⟨d, outer, rfl⟩ := List.exists_cons_of_ne_nil hother.nonempty
    have hsame : inner ++ '"' :: after = outer ++ '"' :: rest :=
      (List.cons.inj (heq.symm.trans hother.eq)).2
    rw [List.length_cons, List.length_cons]
    -- a quote that closes earlier would stand inside the part
    rcases List.append_eq_append_iff.mp hsame with ⟨more, houter, -⟩ | ⟨more, hin, hmore⟩
    · rw [houter, List.length_append]
      omega
    · cases more with
      | nil =>
          rw [hin, List.append_nil]
      | cons e more =>
          obtain ⟨rfl, -⟩ := List.cons.inj hmore
          have hquote : '"' ∈ inner := hin ▸ List.mem_append_right _ List.mem_cons_self
          exact absurd (hinner '"' hquote) (by decide)
  · rintro ⟨hcloses, hfirst⟩
    refine ⟨?_, hcloses.eq⟩
    obtain ⟨c, inner, rfl⟩ := List.exists_cons_of_ne_nil hcloses.nonempty
    have hline := hcloses.oneLine
    rw [List.mem_cons, not_or] at hline
    refine ⟨c, inner, rfl, Ne.symm hline.1, fun d hd => ?_⟩
    rw [isInner, Bool.and_eq_true, decide_eq_true_eq, decide_eq_true_eq]
    refine ⟨?_, fun heq => hline.2 (heq ▸ hd)⟩
    rintro rfl
    -- it could be closed by this quote
    obtain ⟨before, behind, rfl, -⟩ := List.eq_append_cons_of_mem hd
    have hearlier : Closes cs (c :: before) (behind ++ '"' :: after) := by
      refine ⟨?_, List.cons_ne_nil _ _, fun hmem => hcloses.oneLine ?_⟩
      · rw [hcloses.eq, List.cons_append, List.cons_append, List.append_assoc, List.cons_append]
      · rw [← List.cons_append]
        exact List.mem_append_left _ hmem
    have hle := hfirst _ _ hearlier
    rw [List.length_cons, List.length_cons, List.length_append, List.length_cons] at hle
    omega

/-- Nothing is opened just if no quote can close it. -/
theorem openedPart?_eq_none_iff_closes :
    openedPart? cs = none ↔ ∀ inside after, ¬ Closes cs inside after := by
  constructor
  · rintro hnone inside after ⟨rfl, hne, hline⟩
    obtain ⟨c, inner, rfl⟩ := List.exists_cons_of_ne_nil hne
    rw [List.mem_cons, not_or] at hline
    rcases openedPart?_eq_none_iff.mp hnone with rfl | hunquoted
    · exact hline.1 rfl
    · have hinner : ∀ d ∈ inner, decide (d ≠ '\n') = true :=
        fun d hd => decide_eq_true fun heq => hline.2 (heq ▸ hd)
      refine hunquoted ?_
      show '"' ∈ (inner ++ '"' :: after).takeWhile fun d => decide (d ≠ '\n')
      rw [List.takeWhile_append_of_pos hinner]
      exact List.mem_append_right _ List.mem_cons_self
  · intro hno
    cases hopened : openedPart? cs with
    | none => rfl
    | some part =>
        exact absurd (openedPart?_eq_some_iff_closesFirst.mp hopened).1 (hno part.1 part.2)

/-! ## From the left -/

/-- The segments of an expression, said without reading it: parts begin as far to the left and end
as early as they can. -/
inductive LeftmostParts : List Char → List Segment → Prop where
  | done : LeftmostParts [] []
  | part {rest inside after : List Char} {ss : List Segment} (hfirst : ClosesFirst rest inside after)
      (hss : LeftmostParts after ss) : LeftmostParts ('"' :: rest) (.quoted inside :: ss)
  | plain {c : Char} {rest : List Char} {ss : List Segment}
      (hnone : c = '"' → ∀ inside after, ¬ Closes rest inside after)
      (hss : LeftmostParts rest ss) : LeftmostParts (c :: rest) (.plain c :: ss)

/-- The leftmost parts of a text are its segments, and no other ones. -/
theorem leftmostParts_iff : LeftmostParts cs ss ↔ ss = segments cs := by
  constructor
  · intro h
    induction h with
    | done => rw [segments]
    | part hfirst _ ih =>
        rw [segments_opened (openedPart?_eq_some_iff_closesFirst.mpr hfirst), ih]
    | @plain c rest ss hnone _ ih =>
        by_cases hc : c = '"'
        · rw [hc, segments_stray (openedPart?_eq_none_iff_closes.mpr (hnone hc)), ih]
        · rw [segments_plain hc, ih]
  · rintro rfl
    induction cs using segments.induct with
    | case1 =>
        rw [segments]
        exact .done
    | case2 rest inside after hopened ih =>
        rw [segments_opened hopened]
        exact .part (openedPart?_eq_some_iff_closesFirst.mp hopened) ih
    | case3 rest hstray ih =>
        rw [segments_stray hstray]
        exact .plain (fun _ => openedPart?_eq_none_iff_closes.mp hstray) ih
    | case4 c rest hc ih =>
        rw [segments_plain hc]
        exact .plain (fun heq => absurd heq hc) ih

/-! ## Where nothing is replaced -/

/-- A part has no parts. -/
theorem not_mem_segments_of_isPart (h : IsPart cs) (inside : List Char) :
    .quoted inside ∉ segments cs := by
  obtain ⟨c, rest, rfl, -, hrest⟩ := h
  have hquote : '"' ∉ rest := fun hmem => absurd (hrest '"' hmem) (by decide)
  have hnone : .quoted inside ∉ segments rest := fun hmem => hquote (quote_mem_of_mem_segments hmem)
  intro hmem
  by_cases hc : c = '"'
  · have hstray : openedPart? rest = none := by
      refine openedPart?_eq_none_iff_closes.mpr fun part after hcloses => hquote ?_
      rw [hcloses.eq]
      exact List.mem_append_right _ List.mem_cons_self
    rw [hc, segments_stray hstray] at hmem
    exact hnone ((List.mem_cons.mp hmem).resolve_left (by simp))
  · rw [segments_plain hc] at hmem
    exact hnone ((List.mem_cons.mp hmem).resolve_left (by simp))

variable {g : List Char → List Char}

/-- A text without parts stays as it is. -/
theorem replaceParts_of_no_parts (h : ∀ inside, .quoted inside ∉ segments cs) :
    replaceParts g cs = cs := by
  have hmap : (segments cs).map (.replace g) = segments cs := by
    refine (List.map_congr_left fun segment hsegment => ?_).trans (List.map_id _)
    cases segment with
    | plain c => rfl
    | quoted inside => exact absurd hsegment (h inside)
  rw [replaceParts, hmap, joinSegments_segments]

/-- What an expression ends in stays, up to the last quote. -/
theorem suffix_of_replaceParts (hl : '"' ∉ l) (h : l <:+ replaceParts g cs) : l <:+ cs := by
  induction cs using segments.induct with
  | case1 =>
      rw [replaceParts, segments] at h
      exact h
  | case2 rest inside after hopened ih =>
      rw [replaceParts_opened hopened, ← List.cons_append] at h
      have hafter : '"' :: replaceParts g after <:+ ('"' :: g inside) ++ '"' :: replaceParts g after :=
        List.suffix_append _ _
      have hbehind : l <:+ replaceParts g after := by
        rcases List.suffix_or_suffix_of_suffix h hafter with hshort | hlong
        · rcases List.suffix_cons_iff.mp hshort with rfl | hbehind
          · exact absurd List.mem_cons_self hl
          · exact hbehind
        · exact absurd (hlong.subset List.mem_cons_self) hl
      rw [openedPart?_eq hopened]
      exact (ih hbehind).trans (((List.suffix_cons _ _).trans (List.suffix_append _ _)).trans
        (List.suffix_cons _ _))
  | case3 rest hstray ih =>
      rw [replaceParts_stray hstray] at h
      rcases List.suffix_cons_iff.mp h with rfl | hrest
      · exact absurd List.mem_cons_self hl
      · exact (ih hrest).trans (List.suffix_cons _ _)
  | case4 c rest hc ih =>
      rw [replaceParts_plain hc] at h
      rcases List.suffix_cons_iff.mp h with rfl | hrest
      · -- all that follows has no quote, so it is as it was
        have hquote : '"' ∉ rest := fun hmem =>
          hl (List.mem_cons_of_mem _ (quote_mem_replaceParts hmem))
        have hsame := replaceParts_of_no_parts (g := g) fun inside hinside =>
          hquote (quote_mem_of_mem_segments hinside)
        exact ⟨[], congrArg (c :: ·) hsame⟩
      · exact (ih hrest).trans (List.suffix_cons _ _)

/-! ## Replaced and laid bare -/

variable {f : String → String} {s : String}

/-- The characters that stand for a segment when its part is replaced and the quotes are left
out. -/
def Segment.written (f : String → String) : Segment → List Char
  | .plain c => [c]
  | .quoted inside => (f (String.ofList inside)).toList

/-- If parts are replaced by what could be parts, leaving out the quotes leaves the replacements in
their places. -/
theorem unquoteParts_mapQuoted (hpart : ∀ inside, .quoted inside ∈ segments s.toList →
      IsPart (f (String.ofList inside)).toList) :
    unquoteParts (mapQuoted f s) =
      String.ofList ((segments s.toList).flatMap (Segment.written f)) := by
  rw [unquoteParts, toList_mapQuoted, segments_replaceParts hpart, List.flatMap_map]
  refine congrArg (fun write => String.ofList (List.flatMap write _)) (funext fun segment => ?_)
  cases segment with
  | plain c => rfl
  | quoted inside => rfl

end ModelQuery.Text
