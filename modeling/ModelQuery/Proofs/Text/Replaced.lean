import Mathlib.Data.List.TakeWhile
import ModelQuery.Text.QuotedParts
import ModelQuery.Text.Split

/-!
# Replacing quoted parts

A quote opens a part if there is another quote on its line behind the first character, and the part
ends there (`openedPart?_eq_some_iff`).  A quote that opens none has none behind it on its line, but
for one that stands right behind it (`openedPart?_eq_none_iff`).

So an expression in which the inside of each part is replaced by what could be inside a part itself
has these as its parts: each is read as it was written, and a quote that opened no part before opens
none now (`segments_replaceParts`).  If what replaces a part would replace itself, nothing changes
when all is replaced once more (`mapQuoted_mapQuoted`).
-/

namespace ModelQuery.Text

variable {cs inside after : List Char} {c : Char}

/-! ## What opens a part -/

/-- Characters that can be the inside of a part. -/
def IsPart (cs : List Char) : Prop :=
  ∃ c rest, cs = c :: rest ∧ c ≠ '\n' ∧ ∀ d ∈ rest, isInner d = true

theorem IsPart.oneLine (h : IsPart cs) : '\n' ∉ cs := by
  obtain ⟨c, rest, rfl, hc, hrest⟩ := h
  rw [List.mem_cons, not_or]
  exact ⟨Ne.symm hc, fun hmem => Bool.false_ne_true (hrest '\n' hmem)⟩

/-- Characters without quotes and line ends, if there are any, can be a part. -/
theorem isPart_of_free (hne : cs ≠ []) (hline : '\n' ∉ cs) (hquote : '"' ∉ cs) : IsPart cs := by
  cases cs with
  | nil => exact absurd rfl hne
  | cons c rest =>
      rw [List.mem_cons, not_or] at hline hquote
      refine ⟨c, rest, rfl, Ne.symm hline.1, fun d hd => ?_⟩
      rw [isInner, Bool.and_eq_true, decide_eq_true_eq, decide_eq_true_eq]
      exact ⟨fun heq => hquote.2 (heq ▸ hd), fun heq => hline.2 (heq ▸ hd)⟩

/-- A part is opened just if it stands in front of a quote. -/
theorem openedPart?_eq_some_iff :
    openedPart? cs = some (inside, after) ↔ IsPart inside ∧ cs = inside ++ '"' :: after := by
  constructor
  · intro h
    refine ⟨?_, openedPart?_eq h⟩
    cases cs with
    | nil => cases h
    | cons c rest =>
        rw [openedPart?] at h
        split at h
        · cases h
        · rename_i hc
          split at h
          · cases h
            exact ⟨c, _, rfl, hc, fun d hd => List.mem_takeWhile_imp hd⟩
          · cases h
  · rintro ⟨⟨c, rest, rfl, hc, hrest⟩, rfl⟩
    rw [List.cons_append, openedPart?, if_neg hc, List.dropWhile_append_of_pos hrest,
      List.takeWhile_append_of_pos hrest]
    have hquote : isInner '"' = false := rfl
    rw [List.dropWhile_cons_of_neg (by rw [hquote]; exact Bool.false_ne_true),
      List.takeWhile_cons_of_neg (by rw [hquote]; exact Bool.false_ne_true), List.append_nil]
    rfl

/-- No quote stands on the rest of the line. -/
def Unquoted (cs : List Char) : Prop := '"' ∉ cs.takeWhile (· ≠ '\n')

theorem unquoted_cons_iff : Unquoted (c :: cs) ↔ c = '\n' ∨ c ≠ '"' ∧ Unquoted cs := by
  rw [Unquoted, List.takeWhile_cons]
  by_cases hc : c = '\n'
  · simp only [hc, ne_eq, not_true, decide_false, Bool.false_eq_true, if_false,
      List.not_mem_nil, not_false_eq_true, true_or]
  · simp only [hc, ne_eq, not_false_eq_true, decide_true, if_true, List.mem_cons, not_or,
      false_or, Unquoted, @eq_comm _ c]

/-- What can stand inside a part goes on to the next quote on the line, if there is one. -/
theorem unquoted_iff_of_dropWhile :
    Unquoted cs ↔ ∀ after, cs.dropWhile isInner ≠ '"' :: after := by
  induction cs with
  | nil => exact ⟨fun _ _ => nofun, fun _ => List.not_mem_nil⟩
  | cons c rest ih =>
      rw [unquoted_cons_iff, List.dropWhile_cons]
      by_cases hinner : isInner c = true
      · rw [if_pos hinner, ← ih]
        simp only [isInner, Bool.and_eq_true, decide_eq_true_eq] at hinner
        simp only [hinner.1, hinner.2, ne_eq, not_false_eq_true, true_and, false_or]
      · rw [if_neg hinner]
        simp only [isInner, Bool.and_eq_true, decide_eq_true_eq, not_and_or, ne_eq, not_not]
          at hinner
        rcases hinner with rfl | rfl
        · simp only [Char.reduceEq, ne_eq, not_true, false_and, or_self, List.cons.injEq, true_and,
            forall_eq']
        · simp only [true_or, ne_eq, List.cons.injEq, Char.reduceEq, false_and, not_false_eq_true,
            implies_true]

/-- Behind a first character nothing is opened just if the line ends or has no quote. -/
theorem openedPart?_eq_none_iff : openedPart? (c :: cs) = none ↔ c = '\n' ∨ Unquoted cs := by
  rw [openedPart?, unquoted_iff_of_dropWhile]
  by_cases hc : c = '\n'
  · simp only [hc, if_true, true_or]
  · rw [if_neg hc]
    split
    · rename_i after hafter
      simp [hc, hafter]
    · rename_i hnone
      simp only [hc, false_or, true_iff]
      exact hnone

theorem openedPart?_of_unquoted (h : Unquoted cs) : openedPart? cs = none := by
  cases cs with
  | nil => rfl
  | cons c rest => exact openedPart?_eq_none_iff.mpr ((unquoted_cons_iff.mp h).imp_right And.right)

/-! ## One segment after the other -/

/-- A quote that opens a part starts a segment. -/
theorem segments_opened (h : openedPart? cs = some (inside, after)) :
    segments ('"' :: cs) = .quoted inside :: segments after := by
  rw [segments, if_pos rfl]
  split
  · rename_i h'
    rw [h] at h'
    cases h'
    rfl
  · rename_i h'
    rw [h] at h'
    cases h'

/-- A quote that opens none stands for itself. -/
theorem segments_stray (h : openedPart? cs = none) :
    segments ('"' :: cs) = .plain '"' :: segments cs := by
  rw [segments, if_pos rfl]
  split
  · rename_i h'
    rw [h] at h'
    cases h'
  · rfl

theorem segments_plain (hc : c ≠ '"') : segments (c :: cs) = .plain c :: segments cs := by
  rw [segments, if_neg hc]

/-- What is quoted can be a part. -/
theorem isPart_of_mem_segments (h : .quoted inside ∈ segments cs) : IsPart inside := by
  induction cs using segments.induct with
  | case1 =>
      rw [segments] at h
      cases h
  | case2 rest part after hopened ih =>
      rw [segments_opened hopened] at h
      rcases List.mem_cons.mp h with heq | h
      · cases heq
        exact (openedPart?_eq_some_iff.mp hopened).1
      · exact ih h
  | case3 rest hstray ih =>
      rw [segments_stray hstray] at h
      exact ih ((List.mem_cons.mp h).resolve_left (by simp))
  | case4 c rest hc ih =>
      rw [segments_plain hc] at h
      exact ih ((List.mem_cons.mp h).resolve_left (by simp))

theorem quote_mem_of_mem_segments (h : .quoted inside ∈ segments cs) : '"' ∈ cs := by
  rw [← joinSegments_segments cs]
  exact List.mem_flatMap.mpr ⟨_, h, List.mem_cons_self⟩

/-! ## Replacing the parts -/

variable {g : List Char → List Char}

/-- A segment with the inside of a part replaced. -/
def Segment.replace (g : List Char → List Char) : Segment → Segment
  | .plain c => .plain c
  | .quoted inside => .quoted (g inside)

/-- The characters of an expression with the inside of each part replaced. -/
def replaceParts (g : List Char → List Char) (cs : List Char) : List Char :=
  joinSegments ((segments cs).map (.replace g))

/-- A part that is opened is replaced, between its quotes. -/
theorem replaceParts_opened (h : openedPart? cs = some (inside, after)) :
    replaceParts g ('"' :: cs) = '"' :: (g inside ++ '"' :: replaceParts g after) := by
  rw [replaceParts, segments_opened h, List.map_cons, joinSegments, List.flatMap_cons]
  exact congrArg ('"' :: ·) (List.append_assoc ..)

/-- A quote that opens none stays. -/
theorem replaceParts_stray (h : openedPart? cs = none) :
    replaceParts g ('"' :: cs) = '"' :: replaceParts g cs := by
  rw [replaceParts, segments_stray h]
  rfl

theorem replaceParts_plain (hc : c ≠ '"') :
    replaceParts g (c :: cs) = c :: replaceParts g cs := by
  rw [replaceParts, segments_plain hc]
  rfl

/-- Where no quote stands on the line, the line stays. -/
theorem takeWhile_replaceParts (h : Unquoted cs) :
    (replaceParts g cs).takeWhile (· ≠ '\n') = cs.takeWhile (· ≠ '\n') := by
  induction cs with
  | nil =>
      rw [replaceParts, segments]
      rfl
  | cons c rest ih =>
      rcases unquoted_cons_iff.mp h with rfl | ⟨hc, hrest⟩
      · rw [replaceParts_plain (by decide)]
        rfl
      · rw [replaceParts_plain hc, List.takeWhile_cons, List.takeWhile_cons, ih hrest]

/-- A line without quotes stays without. -/
theorem unquoted_replaceParts (h : Unquoted cs) : Unquoted (replaceParts g cs) := by
  rw [Unquoted, takeWhile_replaceParts h]
  exact h

/-- What opens no part opens none when the parts behind it are replaced. -/
theorem openedPart?_replaceParts (h : openedPart? cs = none) :
    openedPart? (replaceParts g cs) = none := by
  cases cs with
  | nil =>
      rw [replaceParts, segments]
      rfl
  | cons c rest =>
      rcases openedPart?_eq_none_iff.mp h with rfl | hrest
      · rw [replaceParts_plain (by decide)]
        rfl
      · have hcons : replaceParts g (c :: rest) = c :: replaceParts g rest := by
          by_cases hc : c = '"'
          · subst hc
            exact replaceParts_stray (openedPart?_of_unquoted hrest)
          · exact replaceParts_plain hc
        rw [hcons]
        exact openedPart?_eq_none_iff.mpr (.inr (unquoted_replaceParts hrest))

/-- Parts that are replaced by parts are read as they are written. -/
theorem segments_replaceParts (hg : ∀ inside, .quoted inside ∈ segments cs → IsPart (g inside)) :
    segments (replaceParts g cs) = (segments cs).map (.replace g) := by
  induction cs using segments.induct with
  | case1 => rw [replaceParts, segments, List.map_nil, joinSegments, List.flatMap_nil, segments]
  | case2 rest inside after hopened ih =>
      rw [segments_opened hopened] at hg ⊢
      have hnew := openedPart?_eq_some_iff.mpr
        ⟨hg inside List.mem_cons_self, Eq.refl (g inside ++ '"' :: replaceParts g after)⟩
      rw [replaceParts_opened hopened, segments_opened hnew,
        ih fun p hp => hg p (List.mem_cons_of_mem _ hp)]
      rfl
  | case3 rest hstray ih =>
      rw [segments_stray hstray] at hg ⊢
      rw [replaceParts_stray hstray, segments_stray (openedPart?_replaceParts hstray),
        ih fun p hp => hg p (List.mem_cons_of_mem _ hp)]
      rfl
  | case4 c rest hc ih =>
      rw [segments_plain hc] at hg ⊢
      rw [replaceParts_plain hc, segments_plain hc,
        ih fun p hp => hg p (List.mem_cons_of_mem _ hp)]
      rfl

/-- Replacing leaves the quotes. -/
theorem quote_mem_replaceParts (h : '"' ∈ cs) : '"' ∈ replaceParts g cs := by
  rw [← joinSegments_segments cs] at h
  obtain ⟨segment, hsegment, hquote⟩ := List.mem_flatMap.mp h
  refine List.mem_flatMap.mpr ⟨segment.replace g, List.mem_map_of_mem hsegment, ?_⟩
  cases segment with
  | plain c => exact hquote
  | quoted inside => exact List.mem_cons_self

/-! ## On texts -/

variable {f : String → String} {s : String}

/-- To replace the parts of a text replaces those of its characters. -/
theorem toList_mapQuoted (f : String → String) (s : String) :
    (mapQuoted f s).toList = replaceParts (fun p => (f (String.ofList p)).toList) s.toList := by
  rw [mapQuoted, String.toList_ofList, replaceParts]
  refine congrArg joinSegments (List.map_congr_left fun segment _ => ?_)
  cases segment with
  | plain c => rfl
  | quoted inside => rfl

/-- A text with a quote has one with its parts replaced. -/
theorem holds_mapQuoted (h : holds s '"' = true) : holds (mapQuoted f s) '"' = true := by
  rw [holds, List.contains_iff_mem] at h ⊢
  rw [toList_mapQuoted]
  exact quote_mem_replaceParts h

/-- Replacing the parts once more changes nothing if it changes none of what they were replaced
by. -/
theorem mapQuoted_mapQuoted (hpart : ∀ inside, .quoted inside ∈ segments s.toList →
      IsPart (f (String.ofList inside)).toList)
    (hfixed : ∀ inside, .quoted inside ∈ segments s.toList →
      f (f (String.ofList inside)) = f (String.ofList inside)) :
    mapQuoted f (mapQuoted f s) = mapQuoted f s := by
  rw [← String.toList_inj, toList_mapQuoted f (mapQuoted f s), toList_mapQuoted f s, replaceParts,
    segments_replaceParts hpart, List.map_map, replaceParts]
  refine congrArg joinSegments (List.map_congr_left fun segment hsegment => ?_)
  cases segment with
  | plain c => rfl
  | quoted inside =>
      show Segment.quoted (f (String.ofList (f (String.ofList inside)).toList)).toList = _
      rw [String.ofList_toList, hfixed inside hsegment]
      rfl

end ModelQuery.Text
