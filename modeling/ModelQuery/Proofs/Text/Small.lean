import ModelQuery.Text.Blank
import ModelQuery.Text.Case

/-!
# Small letters stay small

A text in small letters is made of characters that are their own small form
(`isSmall_of_mem_lowerAfter`), so making it small again changes nothing (`lowerAfter_of_isSmall`).
Only blanks become blank, so where no blank stands at the end none comes there
(`EndsDark.lowerAfter`).

The table of small forms is gone through run by run: nothing that becomes small, and no blank, lies
where the letters of a run move to.
-/

namespace ModelQuery.Text

/-! ## Runs -/

namespace CaseRun

variable {r other : CaseRun} {n : Nat}

/-- The run moves a code point. -/
def covers (r : CaseRun) (n : Nat) : Bool :=
  r.first ≤ n && n ≤ r.last && (n - r.first) % r.stride == 0

/-- Where a run moves to. -/
def image (r : CaseRun) : CaseRun :=
  ⟨(r.first + r.shift).toNat, (r.last + r.shift).toNat, r.stride, 0⟩

/-- Two runs have nothing in common: they lie apart, or they go in steps of two, one through the
even and one through the odd. -/
def apart (r other : CaseRun) : Bool :=
  Nat.blt r.last other.first || Nat.blt other.last r.first ||
    (Nat.beq other.stride 2 && Nat.beq ((r.first + other.first) % 2) 1 &&
      (Nat.beq r.first r.last || (Nat.blt 0 r.first && Nat.beq (r.stride % 2) 0)))

/-- A run moves a code point that lies in it, in step. -/
theorem covers_eq_true_iff :
    r.covers n = true ↔ (r.first ≤ n ∧ n ≤ r.last) ∧ (n - r.first) % r.stride = 0 := by
  rw [covers, Bool.and_eq_true, Bool.and_eq_true, decide_eq_true_iff, decide_eq_true_iff, beq_iff_eq]

theorem covers_single (k n : Nat) (shift : Int) : covers ⟨k, k, 1, shift⟩ n = true ↔ n = k := by
  rw [covers_eq_true_iff]
  dsimp only
  rw [Nat.mod_one]
  omega

/-- What a run moves to is not moved by a run that lies apart. -/
theorem covers_image (h : r.image.apart other = true) (hn : r.covers n = true) :
    other.covers (n + r.shift).toNat = false := by
  obtain ⟨⟨hfirst, hlast⟩, hstride⟩ := covers_eq_true_iff.mp hn
  refine Bool.eq_false_iff.mpr fun hcovers => ?_
  obtain ⟨⟨hfirst', hlast'⟩, hstride'⟩ := covers_eq_true_iff.mp hcovers
  simp only [apart, image, Bool.or_eq_true, Bool.and_eq_true, Nat.blt_eq, Nat.beq_eq] at h
  rcases h with (hbelow | habove) | ⟨⟨htwo, hodd⟩, heq | ⟨hpositive, heven⟩⟩
  · omega
  · omega
  · rw [htwo] at hstride'
    omega
  · -- steps of an even length keep to the even or to the odd
    have hsteps : (n - r.first) % 2 = 0 :=
      Nat.mod_eq_zero_of_dvd
        (Nat.dvd_trans (Nat.dvd_of_mod_eq_zero heven) (Nat.dvd_of_mod_eq_zero hstride))
    rw [htwo] at hstride'
    omega

end CaseRun

/-- What becomes small: the runs, and the one capital that becomes two characters. -/
def capitals : List CaseRun := ⟨0x130, 0x130, 1, 0⟩ :: smallRuns

/-- The blank characters. -/
def blankRuns : List CaseRun := [
  ⟨0x9, 0xd, 1, 0⟩, ⟨0x1c, 0x20, 1, 0⟩, ⟨0x85, 0x85, 1, 0⟩, ⟨0xa0, 0xa0, 1, 0⟩,
  ⟨0x1680, 0x1680, 1, 0⟩, ⟨0x2000, 0x200a, 1, 0⟩, ⟨0x2028, 0x2029, 1, 0⟩, ⟨0x202f, 0x202f, 1, 0⟩,
  ⟨0x205f, 0x205f, 1, 0⟩, ⟨0x3000, 0x3000, 1, 0⟩]

theorem image_apart_capitals :
    (smallRuns.all fun r => capitals.all r.image.apart) = true := by decide +kernel

theorem image_apart_blankRuns :
    (smallRuns.all fun r => blankRuns.all r.image.apart) = true := by decide +kernel

variable {n : Nat}

/-- A code point is moved by the first run that covers it. -/
theorem shiftBy_eq (runs : List CaseRun) (n : Nat) :
    shiftBy runs n =
      ((runs.find? (CaseRun.covers · n)).map fun r => ((n : Int) + r.shift).toNat).getD n := by
  show _ = ((runs.find? fun r => r.covers n).map _).getD n
  unfold shiftBy
  split
  · rename_i r hr
    rw [show (runs.find? fun r => r.covers n) = some r from hr]
    rfl
  · rename_i hnone
    rw [show (runs.find? fun r => r.covers n) = none from hnone]
    rfl

theorem shiftBy_of_find? {r : CaseRun} (h : smallRuns.find? (CaseRun.covers · n) = some r) :
    shiftBy smallRuns n = (n + r.shift).toNat := by
  rw [shiftBy_eq, h]
  rfl

theorem shiftBy_of_none (h : ∀ r ∈ smallRuns, r.covers n = false) : shiftBy smallRuns n = n := by
  have hfind : smallRuns.find? (CaseRun.covers · n) = none :=
    List.find?_eq_none.mpr fun r hr => Bool.not_eq_true _ ▸ h r hr
  rw [shiftBy_eq, hfind]
  rfl

/-- What moves a code point moves it to where nothing else is moved and no blank stands. -/
theorem shiftBy_cases (n : Nat) :
    (∀ r ∈ smallRuns, r.covers n = false) ∨
      ∀ r, r ∈ capitals ∨ r ∈ blankRuns → r.covers (shiftBy smallRuns n) = false := by
  cases hfind : smallRuns.find? (CaseRun.covers · n) with
  | none => exact .inl fun r hr => Bool.of_not_eq_true (List.find?_eq_none.mp hfind r hr)
  | some r =>
      have hr := List.mem_of_find?_eq_some hfind
      rw [shiftBy_of_find? hfind]
      have hcovers := List.find?_some hfind
      refine .inr fun other hother => CaseRun.covers_image ?_ hcovers
      rcases hother with hcapital | hblank
      · exact List.all_eq_true.mp (List.all_eq_true.mp image_apart_capitals r hr) other hcapital
      · exact List.all_eq_true.mp (List.all_eq_true.mp image_apart_blankRuns r hr) other hblank

/-- Of the first code points the runs move the capitals of the alphabet. -/
theorem shiftBy_of_lt (h : n < 128) :
    shiftBy smallRuns n = if 65 ≤ n ∧ n ≤ 90 then n + 32 else n := by
  split
  · rename_i halphabet
    refine shiftBy_of_find? (r := ⟨65, 90, 1, 32⟩) ?_
    have hruns : smallRuns = ⟨65, 90, 1, 32⟩ :: smallRuns.tail := rfl
    rw [hruns, List.find?_cons_of_pos]
    rw [CaseRun.covers_eq_true_iff]
    exact ⟨halphabet, Nat.mod_one _⟩
  · rename_i hother
    refine shiftBy_of_none fun r hr => Bool.eq_false_iff.mpr fun hcovers => ?_
    have hfirst : ∀ r ∈ smallRuns, (r.first = 65 ∧ r.last = 90) ∨ 128 ≤ r.first := by
      decide +kernel
    obtain ⟨⟨hbelow, habove⟩, -⟩ := CaseRun.covers_eq_true_iff.mp hcovers
    rcases hfirst r hr with ⟨hfrom, hto⟩ | hbeyond
    · omega
    · omega

/-! ## Characters -/

variable {c d : Char} {before cs : List Char}

/-- The character is its own small form. -/
def isSmall (c : Char) : Bool := capitals.all fun r => !r.covers c.toNat

theorem isSmall_iff : isSmall c = true ↔ ∀ r ∈ capitals, r.covers c.toNat = false := by
  simp only [isSmall, List.all_eq_true, Bool.not_eq_true']

theorem not_isBlank_iff : isBlank c = false ↔ ∀ r ∈ blankRuns, r.covers c.toNat = false := by
  have hcovers : isBlank c = blankRuns.any (CaseRun.covers · c.toNat) := by
    simp only [isBlank, blankRuns, CaseRun.covers, List.any_cons, List.any_nil, Nat.mod_one]
    grind
  rw [hcovers, List.any_eq_false]
  simp only [Bool.not_eq_true]

/-- A code point that is no character becomes the null character. -/
theorem toNat_ofNat_cases (n : Nat) : (Char.ofNat n).toNat = n ∨ Char.ofNat n = Char.ofNat 0 := by
  by_cases h : n.isValidChar
  · exact .inl (congrArg Char.toNat (dif_pos h))
  · exact .inr (dif_neg h)

/-- One of the first characters becomes small like any other. -/
theorem toLower_eq (h : c.toNat < 128) : c.toLower = Char.ofNat (shiftBy smallRuns c.toNat) := by
  have hlower : ∀ n < 128, (Char.ofNat n).toLower =
      Char.ofNat (if 65 ≤ n ∧ n ≤ 90 then n + 32 else n) := by decide +kernel
  rw [shiftBy_of_lt h, ← hlower c.toNat h, Char.ofNat_toNat]

/-- What a character moves to is its own small form, and blank only if the character is. -/
theorem of_shiftBy (hc : c.toNat ≠ 0x130) :
    isSmall (Char.ofNat (shiftBy smallRuns c.toNat)) = true ∧
      (isBlank c = false → isBlank (Char.ofNat (shiftBy smallRuns c.toNat)) = false) := by
  rcases toNat_ofNat_cases (shiftBy smallRuns c.toNat) with hmoved | hnull
  · rw [isSmall_iff, not_isBlank_iff, not_isBlank_iff, hmoved]
    rcases shiftBy_cases c.toNat with hstays | hmoves
    · rw [shiftBy_of_none hstays]
      refine ⟨List.forall_mem_cons.mpr ⟨?_, hstays⟩, id⟩
      rwa [← Bool.not_eq_true, CaseRun.covers_single]
    · exact ⟨fun r hr => hmoves r (.inl hr), fun _ r hr => hmoves r (.inr hr)⟩
  · rw [hnull]
    exact ⟨by decide +kernel, fun _ => by decide +kernel⟩

/-- A small form of a character is its own, and blank only if the character is. -/
theorem of_mem_smallChars (hd : d ∈ smallChars c) :
    isSmall d = true ∧ (isBlank c = false → isBlank d = false) := by
  rw [smallChars] at hd
  split at hd
  · rename_i hfirst
    obtain rfl := List.mem_singleton.mp hd
    rw [toLower_eq hfirst]
    exact of_shiftBy (by omega)
  · split at hd
    · have hletter : isSmall 'i' = true ∧ isBlank 'i' = false := by decide +kernel
      have hdot : isSmall (Char.ofNat 0x307) = true ∧ isBlank (Char.ofNat 0x307) = false := by
        decide +kernel
      rcases List.mem_cons.mp hd with rfl | hd
      · exact ⟨hletter.1, fun _ => hletter.2⟩
      · rw [List.mem_singleton.mp hd]
        exact ⟨hdot.1, fun _ => hdot.2⟩
    · rename_i hcapital
      obtain rfl := List.mem_singleton.mp hd
      exact of_shiftBy hcapital

theorem smallChars_ne_nil (c : Char) : smallChars c ≠ [] := by
  rw [smallChars]
  split
  · exact List.cons_ne_nil _ _
  · split
    · exact List.cons_ne_nil _ _
    · exact List.cons_ne_nil _ _

/-- A small character stays itself. -/
theorem smallChars_of_isSmall (h : isSmall c = true) : smallChars c = [c] := by
  obtain ⟨hdotted, hruns⟩ := List.forall_mem_cons.mp (isSmall_iff.mp h)
  rw [smallChars]
  split
  · rename_i hfirst
    rw [toLower_eq hfirst, shiftBy_of_none hruns, Char.ofNat_toNat]
  · rw [← Bool.not_eq_true, CaseRun.covers_single] at hdotted
    rw [if_neg hdotted, shiftBy_of_none hruns, Char.ofNat_toNat]

/-! ## Texts -/

/-- What stands for a character of a text in small letters. -/
theorem lowerAfter_cons (before : List Char) (c : Char) (rest : List Char) :
    ∃ ds, lowerAfter before (c :: rest) = ds ++ lowerAfter (c :: before) rest ∧ ds ≠ [] ∧
      ∀ d ∈ ds, isSmall d = true ∧ (isBlank c = false → isBlank d = false) := by
  rw [lowerAfter]
  split
  · refine ⟨_, rfl, List.cons_ne_nil _ _, fun d hd => ?_⟩
    obtain rfl := List.mem_singleton.mp hd
    have hsigmas : ∀ n ∈ [0x3c2, 0x3c3],
        isSmall (Char.ofNat n) = true ∧ isBlank (Char.ofNat n) = false := by decide +kernel
    split
    · exact ⟨(hsigmas _ (by decide)).1, fun _ => (hsigmas _ (by decide)).2⟩
    · exact ⟨(hsigmas _ (by decide)).1, fun _ => (hsigmas _ (by decide)).2⟩
  · exact ⟨_, rfl, smallChars_ne_nil c, fun d hd => of_mem_smallChars hd⟩

/-- What becomes of a text is small throughout. -/
theorem isSmall_of_mem_lowerAfter (h : d ∈ lowerAfter before cs) : isSmall d = true := by
  induction cs generalizing before with
  | nil => cases h
  | cons c rest ih =>
      obtain ⟨ds, heq, -, hds⟩ := lowerAfter_cons before c rest
      rw [heq, List.mem_append] at h
      rcases h with hd | hrest
      · exact (hds d hd).1
      · exact ih hrest

/-- A text that is small stays itself. -/
theorem lowerAfter_of_isSmall (h : ∀ c ∈ cs, isSmall c = true) : lowerAfter before cs = cs := by
  induction cs generalizing before with
  | nil => rfl
  | cons c rest ih =>
      obtain ⟨hc, hrest⟩ := List.forall_mem_cons.mp h
      have hsigma : c.toNat ≠ 0x3a3 := by
        intro heq
        have hcapital : (capitals.any fun r => r.covers 0x3a3) = true := by decide +kernel
        obtain ⟨r, hr, hcovers⟩ := List.any_eq_true.mp hcapital
        rw [← heq, isSmall_iff.mp hc r hr] at hcovers
        cases hcovers
      rw [lowerAfter, if_neg hsigma, smallChars_of_isSmall hc, ih hrest]
      rfl

/-! ## Ends -/

/-- No blank stands at the end. -/
def EndsDark (cs : List Char) : Prop := ∀ c, cs.getLast? = some c → isBlank c = false

/-- The end of a text has no blank at its end if the text has none. -/
theorem EndsDark.of_suffix {ds : List Char} (h : EndsDark cs) (hsuffix : ds <:+ cs) :
    EndsDark ds := by
  obtain ⟨as, rfl⟩ := hsuffix
  intro c hc
  refine h c ?_
  rw [List.getLast?_append, hc]
  rfl

/-- A stripped text has no blank at its end. -/
theorem endsDark_stripChars (cs : List Char) : EndsDark (stripChars cs) := by
  intro c hc
  rw [stripChars, List.getLast?_reverse] at hc
  have hhead := List.head?_dropWhile_not isBlank (cs.dropWhile isBlank).reverse
  rw [hc] at hhead
  exact hhead

/-- Without blanks at the end only those at the beginning go. -/
theorem stripChars_of_endsDark (h : EndsDark cs) : stripChars cs = cs.dropWhile isBlank := by
  have hends := h.of_suffix (List.dropWhile_suffix isBlank)
  rw [stripChars, List.reverse_eq_iff]
  cases hreverse : (cs.dropWhile isBlank).reverse with
  | nil => rfl
  | cons c rest =>
      refine List.dropWhile_cons_of_neg (Bool.not_eq_true _ ▸ hends c ?_)
      rw [← List.head?_reverse, hreverse]
      rfl

/-- The small form of a text has no blank at its end if the text has none. -/
theorem EndsDark.lowerAfter (h : EndsDark cs) (before : List Char) :
    EndsDark (lowerAfter before cs) := by
  induction cs generalizing before with
  | nil => exact nofun
  | cons c rest ih =>
      obtain ⟨ds, heq, hne, hds⟩ := lowerAfter_cons before c rest
      rw [heq]
      intro d hd
      rw [List.getLast?_append] at hd
      cases hlast : (Text.lowerAfter (c :: before) rest).getLast? with
      | some d' =>
          rw [hlast] at hd
          cases hd
          exact ih (h.of_suffix (List.suffix_cons c rest)) _ d hlast
      | none =>
          -- nothing comes behind the small forms of the last character
          rw [hlast] at hd
          have hrest : rest = [] := by
            cases rest with
            | nil => rfl
            | cons c' rest' =>
                obtain ⟨ds', heq', hne', -⟩ := lowerAfter_cons (c :: before) c' rest'
                rw [List.getLast?_eq_none_iff, heq', List.append_eq_nil_iff] at hlast
                exact absurd hlast.1 hne'
          subst hrest
          exact (hds d (List.mem_of_getLast? hd)).2 (h c rfl)

end ModelQuery.Text
