import Mathlib
import ModelQuery.Assoc
import ModelQuery.Value.Equality

/-!
# Keys

Values are told apart as keys by comparing them.  Among the values that can be keys this is an
equality in all but one respect: it is symmetric and transitive, since two of them compare equal
just in case they are the same `Key` (`same_iff`), but what is not a number is equal to nothing, not
even to itself.

So a map written from the left holds under every key what was written there last
(`Value.lookup_ofList`).
-/

namespace ModelQuery

namespace Decimal

open Float.Model

/-! ## Floating-point numbers -/

/-- The sign is the minus sign. -/
def isMinus : UnpackedFloat.Sign → Bool
  | .negative => true
  | .positive => false

theorem isMinus_injective : ∀ s t, isMinus s = isMinus t → s = t
  | .negative, .negative, _ => rfl
  | .positive, .positive, _ => rfl

theorem isMinus_ofBitVec : ∀ b : BitVec 1, isMinus (.ofBitVec b) = (b.toNat == 1) := by
  decide

/-- The exact parts of a number whose bits are taken apart. -/
def Pattern.ofUnpacked : UnpackedFloat → Pattern
  | .infinity s => .infinite (isMinus s)
  | .notANumber => .notANumber
  | .zero s => .finite ⟨isMinus s, 0, -1074⟩
  | .finite s m e _ => .finite ⟨isMinus s, m, e⟩

/-- A pattern is read from the bits of a number as the number's own comparison reads them. -/
theorem Pattern.ofFloat_eq (x : Float) : ofFloat x = ofUnpacked x.toModel.unpack := by
  obtain ⟨⟨bits, hvalid⟩⟩ := x
  have hmantissa : (@UnpackedFloat.unpackMantissa .binary64 bits.toBitVec).toNat =
      bits.toNat % 2 ^ 52 := by
    simp [UnpackedFloat.unpackMantissa]
  have hexponent : (@UnpackedFloat.unpackExponent .binary64 bits.toBitVec).toNat =
      bits.toNat / 2 ^ 52 % 2 ^ 11 := by
    simp [UnpackedFloat.unpackExponent, Nat.shiftRight_eq_div_pow]
  have hsign : (@UnpackedFloat.unpackSign .binary64 bits.toBitVec).toNat =
      bits.toNat / 2 ^ 63 % 2 := by
    simp [UnpackedFloat.unpackSign, Nat.shiftRight_eq_div_pow]
  have hminus := isMinus_ofBitVec (@UnpackedFloat.unpackSign .binary64 bits.toBitVec)
  rw [hsign] at hminus
  have hfull : (1#1 ++ @UnpackedFloat.unpackMantissa .binary64 bits.toBitVec).toNat =
      2 ^ 52 + bits.toNat % 2 ^ 52 := by
    rw [BitVec.toNat_append, hmantissa,
      ← Nat.shiftLeft_add_eq_or_of_lt (Nat.mod_lt bits.toNat (Nat.two_pow_pos 52))]
    rfl
  show ofBits bits.toNat = ofUnpacked (UnpackedFloat.unpack Format.binary64 bits.toBitVec)
  unfold ofBits UnpackedFloat.unpack
  dsimp only [Nat.pow_eq]
  rw [← hmantissa, ← hexponent, ← hminus]
  -- both sides ask for the highest exponent first, then for the lowest
  split
  · rename_i htop
    rw [if_pos (BitVec.eq_of_toNat_eq htop)]
    split
    · rename_i hm
      rw [if_pos (BitVec.eq_of_toNat_eq hm)]
      rfl
    · rename_i hm
      rw [if_neg fun h => hm (congrArg BitVec.toNat h)]
      rfl
  · rename_i htop
    rw [if_neg fun h => htop (congrArg BitVec.toNat h)]
    split
    · rename_i hlow
      rw [if_pos (BitVec.eq_of_toNat_eq hlow)]
      split
      · rename_i hm
        rw [congrArg BitVec.toNat hm]
        rfl
      · rw [hlow]
        rfl
    · rename_i hlow
      rw [if_neg fun h => hlow (congrArg BitVec.toNat h), ofUnpacked, hfull, ← hmantissa]
      rfl

/-- A significand has fifty-three bits, and fewer only at the lowest exponent. -/
structure Binary.Normal (b : Binary) : Prop where
  short : b.significand < 2 ^ 53
  low : -1074 ≤ b.exponent
  full : b.exponent ≠ -1074 → 2 ^ 52 ≤ b.significand

/-- The parts of a number are normal. -/
theorem Pattern.normal {bits : Nat} {b : Binary} (h : ofBits bits = .finite b) : b.Normal := by
  have hfraction : bits % 2 ^ 52 < 2 ^ 52 := Nat.mod_lt bits (Nat.two_pow_pos 52)
  unfold ofBits at h
  dsimp only [Nat.pow_eq] at h
  split at h
  · split at h
    · cases h
    · cases h
  · split at h
    · cases h
      exact ⟨Nat.lt_of_lt_of_le hfraction (by decide), Int.le_refl _, fun h => absurd rfl h⟩
    · rename_i he
      cases h
      refine ⟨?_, ?_, fun _ => Nat.le_add_right _ _⟩
      · show 2 ^ 52 + bits % 2 ^ 52 < 2 ^ 53
        omega
      · show (-1074 : Int) ≤ ((bits / 2 ^ 52 % 2 ^ 11 : Nat) : Int) - 1075
        omega

theorem Binary.isInt_zero (negative : Bool) (e : Int) : isInt ⟨negative, 0, e⟩ 0 = true := by
  cases e with
  | ofNat k => simp [isInt, whole, fraction]
  | negSucc k => simp [isInt, whole, fraction]

/-- The fraction of a number that is an integer cancels. -/
theorem Binary.fraction_of_isInt {b : Binary} {n : Int} (h : b.isInt n = true) :
    b.fraction.1 = n.natAbs * b.fraction.2 ∧ (n < 0 → b.negative = true) ∧
      (0 < n → b.negative = false) := by
  obtain ⟨hmod, hwhole⟩ := Bool.and_eq_true_iff.mp h
  have hdvd : b.fraction.2 ∣ b.fraction.1 := Nat.dvd_of_mod_eq_zero (eq_of_beq hmod)
  have hn : (if b.negative then -((b.fraction.1 / b.fraction.2 : Nat) : Int)
      else ((b.fraction.1 / b.fraction.2 : Nat) : Int)) = n := eq_of_beq hwhole
  have habs : n.natAbs = b.fraction.1 / b.fraction.2 := by
    rw [← hn]
    split
    · rw [Int.natAbs_neg, Int.natAbs_natCast]
    · rw [Int.natAbs_natCast]
  refine ⟨?_, ?_, ?_⟩
  · rw [habs, Nat.div_mul_cancel hdvd]
  · intro hneg
    cases hb : b.negative with
    | true => rfl
    | false =>
        rw [hb, if_neg Bool.false_ne_true] at hn
        omega
  · intro hpos
    cases hb : b.negative with
    | false => rfl
    | true =>
        rw [hb, if_pos rfl] at hn
        omega

/-- A number that is an integer is as large as the integer, in the smallest units. -/
theorem Binary.Normal.size {b : Binary} {n : Int} (hb : b.Normal) (h : b.isInt n = true) :
    b.significand * 2 ^ (b.exponent + 1074).toNat = n.natAbs * 2 ^ 1074 := by
  have hcancel := (fraction_of_isInt h).1
  have hlow := hb.low
  rw [fraction] at hcancel
  cases he : b.exponent with
  | ofNat k =>
      rw [he] at hcancel
      have hcancel : b.significand * 2 ^ k = n.natAbs := hcancel.trans (Nat.mul_one _)
      rw [← hcancel, Nat.mul_assoc, ← Nat.pow_add]
      rfl
  | negSucc k =>
      rw [he] at hcancel hlow
      have hcancel : b.significand = n.natAbs * 2 ^ (k + 1) := hcancel
      have hk : k + 1 + (Int.negSucc k + 1074).toNat = 1074 := by
        rw [Int.negSucc_eq] at hlow ⊢
        omega
      rw [hcancel, Nat.mul_assoc, ← Nat.pow_add]
      exact congrArg (n.natAbs * 2 ^ ·) hk

/-- A size is written in one way only. -/
theorem Binary.Normal.unique {a b : Binary} (ha : a.Normal) (hb : b.Normal)
    (h : a.significand * 2 ^ (a.exponent + 1074).toNat =
      b.significand * 2 ^ (b.exponent + 1074).toNat)
    (hle : a.exponent ≤ b.exponent) :
    a.significand = b.significand ∧ a.exponent = b.exponent := by
  have halow := ha.low
  have hblow := hb.low
  obtain ⟨k, hk⟩ : ∃ k, (b.exponent + 1074).toNat = k + (a.exponent + 1074).toNat :=
    ⟨(b.exponent - a.exponent).toNat, by omega⟩
  have hsignificand : a.significand = b.significand * 2 ^ k := by
    rw [hk, Nat.pow_add, ← Nat.mul_assoc] at h
    exact Nat.eq_of_mul_eq_mul_right (Nat.two_pow_pos _) h
  cases k with
  | zero =>
      have hexponent : a.exponent = b.exponent := by omega
      rw [Nat.pow_zero, Nat.mul_one] at hsignificand
      exact ⟨hsignificand, hexponent⟩
  | succ k =>
      -- at the higher exponent the significand has all its bits, so the other would have too many
      have hfull := hb.full (by omega)
      have hmore : b.significand * 2 ≤ b.significand * 2 ^ (k + 1) := by
        refine Nat.mul_le_mul_left _ ?_
        rw [Nat.pow_succ]
        exact Nat.le_mul_of_pos_left 2 (Nat.two_pow_pos k)
      have hshort := ha.short
      omega

/-- Two numbers that are the same integer differ at most in the sign of zero. -/
theorem Binary.Normal.same_integer {a b : Binary} {n : Int} (ha : a.Normal) (hb : b.Normal)
    (han : a.isInt n = true) (hbn : b.isInt n = true) :
    a.significand = b.significand ∧ a.exponent = b.exponent ∧
      (a.significand ≠ 0 → a.negative = b.negative) := by
  have hsize := (ha.size han).trans (hb.size hbn).symm
  have hequal : a.significand = b.significand ∧ a.exponent = b.exponent := by
    rcases Int.le_total a.exponent b.exponent with hle | hle
    · exact ha.unique hb hsize hle
    · obtain ⟨hsignificand, hexponent⟩ := hb.unique ha hsize.symm hle
      exact ⟨hsignificand.symm, hexponent.symm⟩
  refine ⟨hequal.1, hequal.2, fun hne => ?_⟩
  obtain ⟨-, haneg, hapos⟩ := fraction_of_isInt han
  obtain ⟨-, hbneg, hbpos⟩ := fraction_of_isInt hbn
  rcases Int.lt_trichotomy n 0 with hn | rfl | hn
  · rw [haneg hn, hbneg hn]
  · have hzero := ha.size han
    rw [Int.natAbs_zero, Nat.zero_mul] at hzero
    exact absurd ((Nat.mul_eq_zero.mp hzero).resolve_right (Nat.ne_of_gt (Nat.two_pow_pos _))) hne
  · rw [hapos hn, hbpos hn]

end Decimal

open Decimal

/-! ## What a value is as a key -/

/-- What a value is as a key: numbers by their exact value, whatever their sort. -/
inductive Key where
  | null
  | integer (n : Int)
  | fraction (b : Binary)
  | infinite (negative : Bool)
  | text (s : String)
  | tuple (items : List Key)
  | identifier (i : Identifier String)

namespace Key

/-- The key a floating-point number is; what is not a number is none. -/
def ofPattern? : Pattern → Option Key
  | .finite b => if b.isInt b.whole then some (.integer b.whole) else some (.fraction b)
  | .infinite negative => some (.infinite negative)
  | .notANumber => none

mutual

/-- The key a value is.  Objects of their own are none. -/
def ofValue? : Value → Option Key
  | .null => some .null
  | .bool b => some (.integer (Value.ofBit b))
  | .int n => some (.integer n)
  | .float x => ofPattern? (.ofFloat x)
  | .text s | .declared s => some (.text s)
  | .tuple items => (ofValues? items).map .tuple
  | .identifier i => some (.identifier i)
  | _ => none

/-- The keys of values. -/
def ofValues? : List Value → Option (List Key)
  | [] => some []
  | v :: rest =>
    match ofValue? v, ofValues? rest with
    | some k, some ks => some (k :: ks)
    | _, _ => none

end

/-- A number is the key of an integer just if it is the integer. -/
theorem ofPattern?_integer {p : Pattern} {n : Int} :
    ofPattern? p = some (.integer n) ↔ ∃ b, p = .finite b ∧ b.isInt n = true := by
  cases p with
  | infinite negative => exact ⟨(nomatch ·), fun ⟨b, h, _⟩ => nomatch h⟩
  | notANumber => exact ⟨(nomatch ·), fun ⟨b, h, _⟩ => nomatch h⟩
  | finite b =>
      rw [ofPattern?]
      constructor
      · intro h
        split at h
        · rename_i hint
          cases h
          exact ⟨b, rfl, hint⟩
        · cases h
      · rintro ⟨b', h, hint⟩
        cases h
        have hwhole : b.whole = n := eq_of_beq (Bool.and_eq_true_iff.mp hint).2
        rw [hwhole, if_pos hint]

/-- A floating-point number equals an integer just if its key is the integer's. -/
theorem floatIs_iff {x : Float} {n : Int} :
    Value.floatIs x n = true ↔ ofPattern? (.ofFloat x) = some (.integer n) := by
  rw [ofPattern?_integer, Value.floatIs]
  cases Pattern.ofFloat x with
  | finite b => exact ⟨fun h => ⟨b, rfl, h⟩, fun ⟨b', hb, h⟩ => by cases hb; exact h⟩
  | infinite negative => exact ⟨(nomatch ·), fun ⟨b, h, _⟩ => nomatch h⟩
  | notANumber => exact ⟨(nomatch ·), fun ⟨b, h, _⟩ => nomatch h⟩

/-- Numbers that are the same key are the same, but for the sign of zero. -/
theorem eq_or_zero_of_ofPattern? {p q : Pattern} {k : Key} (hp : ∀ b, p = .finite b → b.Normal)
    (hq : ∀ b, q = .finite b → b.Normal) (hpk : ofPattern? p = some k)
    (hqk : ofPattern? q = some k) :
    p = q ∨ ∃ s t e, p = .finite ⟨s, 0, e⟩ ∧ q = .finite ⟨t, 0, e⟩ := by
  cases k with
  | integer n =>
      obtain ⟨a, rfl, ha⟩ := ofPattern?_integer.mp hpk
      obtain ⟨b, rfl, hb⟩ := ofPattern?_integer.mp hqk
      obtain ⟨hsignificand, hexponent, hsign⟩ := (hp a rfl).same_integer (hq b rfl) ha hb
      obtain ⟨s, m, e⟩ := a
      obtain ⟨t, m', e'⟩ := b
      cases hsignificand
      cases hexponent
      by_cases hm : m = 0
      · subst hm
        exact .inr ⟨s, t, e, rfl, rfl⟩
      · cases hsign hm
        exact .inl rfl
  | _ =>
      refine .inl ?_
      unfold ofPattern? at hpk hqk
      grind

/-- Numbers of the same parts are the same. -/
theorem ofUnpacked_injective {u v : Float.Model.UnpackedFloat}
    (h : Pattern.ofUnpacked u = Pattern.ofUnpacked v) : u = v := by
  unfold Pattern.ofUnpacked at h
  have hminus := isMinus_injective
  grind

/-- A number without a significand is one of the zeros. -/
theorem zero_of_ofUnpacked {u : Float.Model.UnpackedFloat} {s : Bool} {e : Int}
    (h : Pattern.ofUnpacked u = .finite ⟨s, 0, e⟩) : ∃ sign, u = .zero sign := by
  cases u with
  | zero sign => exact ⟨sign, rfl⟩
  | finite sign m e' hm =>
      cases h
      exact absurd hm (Nat.lt_irrefl 0)
  | infinity sign => cases h
  | notANumber => cases h

theorem zero_integer (s : Float.Model.UnpackedFloat.Sign) :
    ofPattern? (.ofUnpacked (.zero s)) = some (.integer 0) := by
  exact ofPattern?_integer.mpr ⟨_, rfl, Binary.isInt_zero _ _⟩

/-- Every number has a key. -/
theorem unpacked_isSome {u : Float.Model.UnpackedFloat} (h : u ≠ .notANumber) :
    ∃ k, ofPattern? (.ofUnpacked u) = some k := by
  cases u with
  | notANumber => exact absurd rfl h
  | zero s => exact ⟨_, zero_integer s⟩
  | infinity s => exact ⟨_, rfl⟩
  | finite s m e hm =>
      rw [Pattern.ofUnpacked, ofPattern?]
      split
      · exact ⟨_, rfl⟩
      · exact ⟨_, rfl⟩

/-- Two floating-point numbers compare equal just in case they are the same key. -/
theorem float_beq_iff {x y : Float} :
    (x == y) = true ↔ ∃ k, ofPattern? (.ofFloat x) = some k ∧ ofPattern? (.ofFloat y) = some k := by
  show x.toModel.unpack.beq y.toModel.unpack = true ↔ _
  rw [Float.Model.UnpackedFloat.beq_iff_ne_notANumber_and_eq]
  have hnormal : ∀ z : Float, ∀ b, Pattern.ofUnpacked z.toModel.unpack = .finite b → b.Normal :=
    fun z b hb => Pattern.normal ((Pattern.ofFloat_eq z).trans hb)
  have hx := hnormal x
  have hy := hnormal y
  rw [Pattern.ofFloat_eq, Pattern.ofFloat_eq]
  generalize x.toModel.unpack = u at *
  generalize y.toModel.unpack = v at *
  constructor
  · rintro ⟨hu, -, rfl | ⟨rfl, rfl⟩ | ⟨rfl, rfl⟩⟩
    · obtain ⟨k, hk⟩ := unpacked_isSome hu
      exact ⟨k, hk, hk⟩
    · exact ⟨.integer 0, zero_integer .positive, zero_integer .negative⟩
    · exact ⟨.integer 0, zero_integer .negative, zero_integer .positive⟩
  · rintro ⟨k, hu, hv⟩
    refine ⟨?_, ?_, ?_⟩
    · rintro rfl
      cases hu
    · rintro rfl
      cases hv
    · rcases eq_or_zero_of_ofPattern? hx hy hu hv with h | ⟨s, t, e, hus, hvt⟩
      · exact .inl (ofUnpacked_injective h)
      · obtain ⟨s, rfl⟩ := zero_of_ofUnpacked hus
        obtain ⟨t, rfl⟩ := zero_of_ofUnpacked hvt
        cases s with
        | positive =>
            cases t with
            | positive => exact .inl rfl
            | negative => exact .inr (.inl ⟨rfl, rfl⟩)
        | negative =>
            cases t with
            | positive => exact .inr (.inr ⟨rfl, rfl⟩)
            | negative => exact .inl rfl

/-- The key of a number is a number. -/
@[simp] theorem ofPattern?_ne {p : Pattern} :
    ofPattern? p ≠ some .null ∧ (∀ s, ofPattern? p ≠ some (.text s)) ∧
      (∀ ks, ofPattern? p ≠ some (.tuple ks)) ∧ ∀ i, ofPattern? p ≠ some (.identifier i) := by
  unfold ofPattern?
  grind

theorem ofBit_inj {a b : Bool} : Value.ofBit a = Value.ofBit b ↔ a = b := by
  cases a <;> cases b <;> decide

mutual

/-- Values that can be keys compare equal just in case they are the same key. -/
theorem same_iff (v w : Value) (hv : v.hashable = true) (hw : w.hashable = true) :
    Value.same v w = true ↔ ∃ k, ofValue? w = some k ∧ ofValue? v = some k := by
  cases v with
  | list vs => cases hv
  | mapping es => cases hv
  | float x =>
      cases w with
      | list ws => cases hw
      | mapping es => cases hw
      | float y =>
          rw [Value.same, float_beq_iff]
          exact exists_congr fun k => and_comm
      | _ => simp [Value.same, ofValue?, floatIs_iff, ofPattern?_ne]
  | tuple vs =>
      cases w with
      | list ws => cases hw
      | mapping es => cases hw
      | tuple ws =>
          rw [Value.same, sameAll_iff vs ws hv hw]
          simp [ofValue?]
      | _ => simp [Value.same, ofValue?, ofPattern?_ne]
  | _ =>
      cases w with
      | list ws => cases hw
      | mapping es => cases hw
      | _ => simp [Value.same, ofValue?, floatIs_iff, ofPattern?_ne, ofBit_inj]

/-- Lists that can be keys are the same just if their keys are. -/
theorem sameAll_iff (vs ws : List Value) (hv : Value.hashableAll vs = true)
    (hw : Value.hashableAll ws = true) :
    Value.sameAll vs ws = true ↔ ∃ ks, ofValues? ws = some ks ∧ ofValues? vs = some ks := by
  match vs, ws with
  | [], [] => simp [Value.sameAll, ofValues?]
  | [], w :: ws =>
      simp only [Value.sameAll, ofValues?]
      grind
  | v :: vs, [] =>
      simp only [Value.sameAll, ofValues?]
      grind
  | v :: vs, w :: ws =>
      obtain ⟨hv, hvs⟩ := Bool.and_eq_true_iff.mp hv
      obtain ⟨hw, hws⟩ := Bool.and_eq_true_iff.mp hw
      rw [Value.sameAll, Bool.and_eq_true, same_iff v w hv hw, sameAll_iff vs ws hvs hws]
      simp only [ofValues?]
      grind

end

end Key

/-! ## Maps from values -/

namespace Value

variable {x k v w : Value}

/-- Among values that can be keys, sameness is symmetric. -/
theorem beq_symm (hv : v.hashable = true) (hw : w.hashable = true) (h : (v == w) = true) :
    (w == v) = true := by
  obtain ⟨key, hkw, hkv⟩ := (Key.same_iff v w hv hw).mp h
  exact (Key.same_iff w v hw hv).mpr ⟨key, hkv, hkw⟩

/-- Among values that can be keys, sameness is transitive. -/
theorem beq_trans (hx : x.hashable = true) (hv : v.hashable = true) (hw : w.hashable = true)
    (hxv : (x == v) = true) (hvw : (v == w) = true) : (x == w) = true := by
  obtain ⟨key, hkv, hkx⟩ := (Key.same_iff x v hx hv).mp hxv
  obtain ⟨key', hkw, hkv'⟩ := (Key.same_iff v w hv hw).mp hvw
  cases hkv.symm.trans hkv'
  exact (Key.same_iff x w hx hw).mpr ⟨key, hkw, hkx⟩

/-- Every key of a map can be one. -/
def Keyed {α : Type} (m : List (Value × α)) : Prop := ∀ e ∈ m, e.1.hashable = true

/-- A map stays keyed with a value put under what can be a key. -/
theorem Keyed.put {α : Type} {m : List (Value × α)} (hm : Keyed m) (hk : k.hashable = true)
    (a : α) : Keyed (Assoc.put k a m) := by
  induction m with
  | nil =>
      intro e he
      cases List.mem_singleton.mp he
      exact hk
  | cons e rest ih =>
      obtain ⟨k', a'⟩ := e
      obtain ⟨hk', hrest⟩ := List.forall_mem_cons.mp hm
      rw [Assoc.put]
      split
      · exact List.forall_mem_cons.mpr ⟨hk', hrest⟩
      · exact List.forall_mem_cons.mpr ⟨hk', ih hrest⟩

/-- What is written is found under every value that is the same key, and nothing else changes. -/
theorem lookup_put {α : Type} {m : List (Value × α)} (hx : x.hashable = true)
    (hk : k.hashable = true) (hm : Keyed m) (a : α) :
    (Assoc.put k a m).lookup x = if (x == k) = true then some a else m.lookup x := by
  induction m with
  | nil =>
      rw [Assoc.put, List.lookup_cons, List.lookup_nil]
      cases x == k with
      | true => rfl
      | false => rfl
  | cons e rest ih =>
      obtain ⟨k', a'⟩ := e
      obtain ⟨hk', hrest⟩ := List.forall_mem_cons.mp hm
      rw [Assoc.put]
      split
      · -- the known key is the one that is written: what equals one equals the other
        rename_i hsame
        rw [List.lookup_cons, List.lookup_cons]
        cases hxk' : x == k' with
        | true => rw [if_pos (beq_trans hx hk' hk hxk' (beq_symm hk hk' hsame))]
        | false =>
            rw [if_neg]
            intro hxk
            rw [beq_trans hx hk hk' hxk hsame] at hxk'
            cases hxk'
      · rename_i hother
        rw [List.lookup_cons, List.lookup_cons, ih hrest]
        cases hxk' : x == k' with
        | false => rfl
        | true =>
            have hne : ¬(x == k) = true := fun hxk =>
              hother (beq_trans hk hx hk' (beq_symm hx hk hxk) hxk')
            exact (if_neg hne).symm

/-- Of all that is written under a key the last is found. -/
theorem lookup_putAll {α : Type} {entries m : List (Value × α)} (hx : x.hashable = true)
    (hentries : Keyed entries) (hm : Keyed m) :
    (Assoc.putAll entries m).lookup x = (entries.reverse.lookup x).or (m.lookup x) := by
  induction entries generalizing m with
  | nil => rfl
  | cons e rest ih =>
      obtain ⟨k, a⟩ := e
      obtain ⟨hk, hrest⟩ := List.forall_mem_cons.mp hentries
      show (Assoc.putAll rest (Assoc.put k a m)).lookup x = _
      rw [ih hrest (hm.put hk a), lookup_put hx hk hm, List.reverse_cons, List.lookup_append,
        Option.or_assoc, List.lookup_cons]
      cases x == k with
      | true => rfl
      | false => rfl

/-- A map written from the left holds under every key what was written there last. -/
theorem lookup_ofList {α : Type} {entries : List (Value × α)} (hx : x.hashable = true)
    (hentries : Keyed entries) : (Assoc.ofList entries).lookup x = entries.reverse.lookup x := by
  rw [Assoc.ofList, lookup_putAll hx hentries (List.forall_mem_nil _), List.lookup_nil,
    Option.or_none]

/-- No two keys of a map are the same. -/
def Apart {α : Type} (m : List (Value × α)) : Prop := m.Pairwise fun a b => (a.1 == b.1) = false

theorem mem_keys_put {α : Type} {m : List (Value × α)} {a : α} {e : Value × α}
    (h : e ∈ Assoc.put k a m) : e.1 = k ∨ ∃ e' ∈ m, e.1 = e'.1 := by
  induction m with
  | nil =>
      cases List.mem_singleton.mp h
      exact .inl rfl
  | cons first rest ih =>
      obtain ⟨k', a'⟩ := first
      rw [Assoc.put] at h
      split at h
      · rcases List.mem_cons.mp h with rfl | h
        · exact .inr ⟨_, List.mem_cons_self, rfl⟩
        · exact .inr ⟨e, List.mem_cons_of_mem _ h, rfl⟩
      · rcases List.mem_cons.mp h with rfl | h
        · exact .inr ⟨_, List.mem_cons_self, rfl⟩
        · rcases ih h with hk | ⟨e', he', hk⟩
          · exact .inl hk
          · exact .inr ⟨e', List.mem_cons_of_mem _ he', hk⟩

/-- The keys of a map stay apart with a value put under what can be a key. -/
theorem Apart.put {α : Type} {m : List (Value × α)} (h : Apart m) (hm : Keyed m)
    (hk : k.hashable = true) (a : α) : Apart (Assoc.put k a m) := by
  induction m with
  | nil => exact List.pairwise_singleton _ _
  | cons first rest ih =>
      obtain ⟨k', a'⟩ := first
      obtain ⟨hfirst, hrest⟩ := List.pairwise_cons.mp h
      obtain ⟨hk', hm'⟩ := List.forall_mem_cons.mp hm
      rw [Assoc.put]
      split
      · exact List.pairwise_cons.mpr ⟨hfirst, hrest⟩
      · rename_i hne
        refine List.pairwise_cons.mpr ⟨?_, ih hrest hm'⟩
        intro e he
        rcases mem_keys_put he with hek | ⟨e', he', hek⟩
        · rw [hek, Bool.eq_false_iff]
          exact fun hsame => hne (beq_symm hk' hk hsame)
        · rw [hek]
          exact hfirst e' he'

/-- The keys of a map that is made of entries are apart. -/
theorem apart_ofList {α : Type} {entries : List (Value × α)} (hentries : Keyed entries) :
    Apart (Assoc.ofList entries) := by
  have hall : ∀ m : List (Value × α), Apart m → Keyed m → Apart (Assoc.putAll entries m) := by
    induction entries with
    | nil => exact fun m h _ => h
    | cons e rest ih =>
        obtain ⟨hk, hrest⟩ := List.forall_mem_cons.mp hentries
        exact fun m h hm => ih hrest _ (h.put hm hk e.2) (hm.put hk e.2)
  exact hall [] List.Pairwise.nil (List.forall_mem_nil _)

end Value

end ModelQuery
