import ModelQuery.Records.Slice

/-!
# The places of a slice

A slice begins at one place and goes on by its step as long as the places lie before its end, seen
in the direction of the step.  So its places are exactly those that are some steps from the first
one and before the end (`Slice.mem_places`), they all are places of the list
(`Slice.lt_of_mem_places`), and they come in the order of the list, or against it
(`Slice.places_onward`).
-/

namespace ModelQuery

namespace Slice

variable {step stop i : Int} {n : Nat} {s : Slice}

/-! ## Walking by a step -/

/-- A place lies before the end, in the direction of the step. -/
def Inside (step stop x : Int) : Prop := 0 < step ∧ x < stop ∨ step < 0 ∧ stop < x

/-- One place comes behind the other in the direction of the step. -/
def Onward (step : Int) (p q : Nat) : Prop := 0 < step ∧ p < q ∨ step < 0 ∧ q < p

/-- Some steps forwards do not lead back. -/
theorem mul_step_nonneg (j : Nat) (h : 0 < step) : 0 ≤ j * step :=
  Int.mul_nonneg (Int.natCast_nonneg j) (Int.le_of_lt h)

/-- Some steps backwards do not lead on. -/
theorem mul_step_nonpos (j : Nat) (h : step < 0) : j * step ≤ 0 :=
  Int.mul_nonpos_of_nonneg_of_nonpos (Int.natCast_nonneg j) (Int.le_of_lt h)

/-- What lies some steps before a place inside is inside. -/
theorem Inside.of_add {j : Nat} (h : Inside step stop (i + j * step)) : Inside step stop i := by
  rcases h with ⟨hstep, hlt⟩ | ⟨hstep, hlt⟩
  · have hmul := mul_step_nonneg j hstep
    exact .inl ⟨hstep, by omega⟩
  · have hmul := mul_step_nonpos j hstep
    exact .inr ⟨hstep, by omega⟩

theorem add_zero_mul (i step : Int) : i + (0 : Nat) * step = i := by
  rw [Int.natCast_zero, Int.zero_mul, Int.add_zero]

theorem add_succ_mul (i step : Int) (j : Nat) :
    i + step + j * step = i + (j + 1 : Nat) * step := by
  rw [Int.natCast_add, Int.add_mul]
  omega

/-- A walk that is long enough comes to the places inside that are some steps away, and to no
others. -/
theorem mem_walk (hend : ¬ Inside step stop (i + n * step))
    (hpos : ∀ j : Nat, Inside step stop (i + j * step) → 0 ≤ i + j * step) {p : Nat} :
    p ∈ walk step stop n i ↔ ∃ j : Nat, (p : Int) = i + j * step ∧ Inside step stop p := by
  induction n generalizing i with
  | zero =>
      constructor
      · intro hp
        cases hp
      · rintro ⟨j, hp, hinside⟩
        rw [add_zero_mul] at hend
        rw [hp] at hinside
        exact absurd hinside.of_add hend
  | succ n ih =>
      have hfirst := hpos 0
      rw [add_zero_mul] at hfirst
      rw [walk]
      split
      · rename_i hinside
        have hi : ((i.toNat : Nat) : Int) = i := Int.toNat_of_nonneg (hfirst hinside)
        rw [List.mem_cons, ih (by rwa [add_succ_mul]) fun j hj => by
          rw [add_succ_mul] at hj ⊢
          exact hpos (j + 1) hj]
        constructor
        · rintro (rfl | ⟨j, hp, hp'⟩)
          · refine ⟨0, ?_, ?_⟩
            · rw [hi, add_zero_mul]
            · rw [hi]
              exact hinside
          · exact ⟨j + 1, hp.trans (add_succ_mul ..), hp'⟩
        · rintro ⟨j, hp, hp'⟩
          cases j with
          | zero =>
              rw [add_zero_mul] at hp
              exact .inl (Int.ofNat_inj.mp (hp.trans hi.symm))
          | succ j => exact .inr ⟨j, hp.trans (add_succ_mul ..).symm, hp'⟩
      · rename_i houtside
        constructor
        · intro hp
          cases hp
        · rintro ⟨j, hp, hinside⟩
          rw [hp] at hinside
          exact absurd hinside.of_add houtside

/-- A walk goes on in the direction of its step. -/
theorem walk_onward (hstep : step ≠ 0) (hend : ¬ Inside step stop (i + n * step))
    (hpos : ∀ j : Nat, Inside step stop (i + j * step) → 0 ≤ i + j * step) :
    (walk step stop n i).Pairwise (Onward step) := by
  induction n generalizing i with
  | zero => exact .nil
  | succ n ih =>
      have hfirst := hpos 0
      rw [add_zero_mul] at hfirst
      rw [walk]
      split
      · rename_i hinside
        have hi : ((i.toNat : Nat) : Int) = i := Int.toNat_of_nonneg (hfirst hinside)
        have hend' : ¬ Inside step stop (i + step + n * step) := by rwa [add_succ_mul]
        have hpos' : ∀ j : Nat, Inside step stop (i + step + j * step) →
            0 ≤ i + step + j * step := fun j hj => by
          rw [add_succ_mul] at hj ⊢
          exact hpos (j + 1) hj
        refine .cons (fun q hq => ?_) (ih hend' hpos')
        obtain ⟨j, hq, -⟩ := (mem_walk hend' hpos').mp hq
        rcases Int.lt_or_gt_of_ne hstep with hneg | hpos
        · have hmul := mul_step_nonpos j hneg
          exact .inr ⟨hneg, by omega⟩
        · have hmul := mul_step_nonneg j hpos
          exact .inl ⟨hpos, by omega⟩
      · exact .nil

/-! ## Where a slice begins and ends -/

/-- Where a slice of a list begins. -/
def first (s : Slice) (length : Nat) : Int :=
  if 0 < s.step then (s.start.map (drawn length 0 length)).getD 0
  else (s.start.map (drawn length (-1) (length - 1))).getD (length - 1)

/-- Where a slice of a list ends; that place is not taken. -/
def last (s : Slice) (length : Nat) : Int :=
  if 0 < s.step then (s.stop.map (drawn length 0 length)).getD length
  else (s.stop.map (drawn length (-1) (length - 1))).getD (-1)

/-- The places of a slice are a walk from its first to its last one. -/
theorem places_eq (s : Slice) (length : Nat) :
    s.places length = walk s.step (s.last length) length (s.first length) := by
  rw [places, first, last]
  split
  · rfl
  · rfl

/-- What is drawn into bounds lies within them. -/
theorem drawn_bounds {length low high : Int} (h : low ≤ high) (i : Int) :
    low ≤ drawn length low high i ∧ drawn length low high i ≤ high := by
  rw [drawn]
  omega

/-- A bound that is drawn in, or left open at an end. -/
theorem bound_bounds {length low high edge : Int} (h : low ≤ edge ∧ edge ≤ high)
    (bound : Option Int) :
    low ≤ (bound.map (drawn length low high)).getD edge ∧
      (bound.map (drawn length low high)).getD edge ≤ high := by
  cases bound with
  | none => exact h
  | some i => exact drawn_bounds (Int.le_trans h.1 h.2) i

/-- Forwards a slice begins and ends between the first place and the one behind the last. -/
theorem bounds_forward (h : 0 < s.step) (length : Nat) :
    (0 ≤ s.first length ∧ s.first length ≤ length) ∧
      0 ≤ s.last length ∧ s.last length ≤ length := by
  rw [first, last, if_pos h, if_pos h]
  exact ⟨bound_bounds (by omega) _, bound_bounds (by omega) _⟩

/-- Backwards a slice begins and ends between the place before the first and the last. -/
theorem bounds_backward (h : ¬ 0 < s.step) (length : Nat) :
    (-1 ≤ s.first length ∧ s.first length ≤ length - 1) ∧
      -1 ≤ s.last length ∧ s.last length ≤ length - 1 := by
  rw [first, last, if_neg h, if_neg h]
  exact ⟨bound_bounds (by omega) _, bound_bounds (by omega) _⟩

/-- The walk of a slice is long enough. -/
theorem not_inside_end (s : Slice) (length : Nat) :
    ¬ Inside s.step (s.last length) (s.first length + length * s.step) := by
  rintro (⟨hstep, hlt⟩ | ⟨hstep, hlt⟩)
  · obtain ⟨⟨hfirst, -⟩, -, hlast⟩ := bounds_forward hstep length
    have hmul : (length : Int) * 1 ≤ length * s.step :=
      Int.mul_le_mul_of_nonneg_left hstep (Int.natCast_nonneg length)
    omega
  · obtain ⟨⟨-, hfirst⟩, hlast, -⟩ := bounds_backward (Int.not_lt.mpr (Int.le_of_lt hstep)) length
    have hmul : (length : Int) * s.step ≤ length * (-1) :=
      Int.mul_le_mul_of_nonneg_left (by omega) (Int.natCast_nonneg length)
    omega

/-- Where a slice goes on there is a place. -/
theorem nonneg_of_inside (s : Slice) (length j : Nat)
    (h : Inside s.step (s.last length) (s.first length + j * s.step)) :
    0 ≤ s.first length + j * s.step := by
  rcases h with ⟨hstep, -⟩ | ⟨hstep, hlt⟩
  · have hfirst := (bounds_forward hstep length).1.1
    have hmul := mul_step_nonneg j hstep
    omega
  · have hlast := (bounds_backward (Int.not_lt.mpr (Int.le_of_lt hstep)) length).2.1
    omega

/-! ## The places -/

/-- A slice takes the places that are some steps from its first and before its end. -/
theorem mem_places {length p : Nat} :
    p ∈ s.places length ↔
      ∃ j : Nat, (p : Int) = s.first length + j * s.step ∧ Inside s.step (s.last length) p := by
  rw [places_eq]
  exact mem_walk (not_inside_end s length) (nonneg_of_inside s length)

/-- A slice takes only places of the list. -/
theorem lt_of_mem_places {length p : Nat} (h : p ∈ s.places length) : p < length := by
  obtain ⟨j, hp, hinside⟩ := mem_places.mp h
  rcases hinside with ⟨hstep, hlt⟩ | ⟨hstep, hlt⟩
  · have hlast := (bounds_forward hstep length).2.2
    omega
  · have hfirst := (bounds_backward (Int.not_lt.mpr (Int.le_of_lt hstep)) length).1.2
    have hmul := mul_step_nonpos j hstep
    omega

/-- The places of a slice come one behind the other in the direction of its step. -/
theorem places_onward (h : s.step ≠ 0) (length : Nat) :
    (s.places length).Pairwise (Onward s.step) := by
  rw [places_eq]
  exact walk_onward h (not_inside_end s length) (nonneg_of_inside s length)

end Slice

end ModelQuery
