import Mathlib
import PixelTurtle.Proofs.Evaluation
import PixelTurtle.Proofs.Heading

/-!
# Angles and percentages

A hue is wrapped into a full turn by taking a remainder, adding a full turn and taking a remainder
once more. The first sum may be rounded up to a full turn, and then the second remainder is zero; so
every finite number is wrapped to an angle. A number that is not finite has no remainder.

* `IsAngle` and `IsPercent` are the two ranges, in the order of the doubles.
* `le_of_not_lt` says that this order is total on numbers.
* `round_of_lt` says that a mantissa of 53 bits is not rounded, and `unpack_pack` that it is packed
  without a loss; so a remainder is exact. `within_remainder` compares it with the full turn.
* `Signed` is the sign of a finite number, which rounding keeps.
* `isAngle_wrapHue`, `wrapHue_of_not_finite` and `isPercent_clamp` are the results.
-/

namespace PixelTurtle

/-- An angle of less than a full turn. -/
def IsAngle (x : Float) : Prop :=
  0 ≤ x ∧ x < 360

/-- A percentage. -/
def IsPercent (x : Float) : Prop :=
  0 ≤ x ∧ x ≤ 100

instance (x : Float) : Decidable (IsAngle x) :=
  inferInstanceAs (Decidable (_ ∧ _))

instance (x : Float) : Decidable (IsPercent x) :=
  inferInstanceAs (Decidable (_ ∧ _))

namespace Number

open Float.Model Float.Model.UnpackedFloat

variable {x y : Float} {s : Sign}

/-! ## The order -/

theorem lt_iff : x < y ↔ UnpackedFloat.lt x.toModel.unpack y.toModel.unpack = true :=
  decide_eq_true_iff

theorem le_iff : x ≤ y ↔ UnpackedFloat.le x.toModel.unpack y.toModel.unpack = true :=
  decide_eq_true_iff

theorem compare_swap (a b : UnpackedFloat) :
    b.compare a = (a.compare b).map Ordering.swap := by
  rcases a with (_ | _) | _ | (_ | _) | ⟨_ | _, m, e, hm⟩ <;>
    rcases b with (_ | _) | _ | (_ | _) | ⟨_ | _, n, f, hn⟩ <;>
    first
    | rfl
    | simp only [UnpackedFloat.compare, Option.map_some, Ordering.swap_then, Int.compare_swap,
        Nat.compare_swap]

/-- Numbers can be compared. -/
theorem exists_compare {a b : UnpackedFloat} (ha : a.isNaN = false) (hb : b.isNaN = false) :
    ∃ o, a.compare b = some o := by
  rcases a with (_ | _) | _ | (_ | _) | ⟨_ | _, m, e, hm⟩ <;>
    rcases b with (_ | _) | _ | (_ | _) | ⟨_ | _, n, f, hn⟩ <;>
    first
    | exact ⟨_, rfl⟩
    | exact absurd ha (by decide)
    | exact absurd hb (by decide)

theorem le_of_not_lt (hx : x.isNaN = false) (hy : y.isNaN = false) (h : ¬ x < y) : y ≤ x := by
  obtain ⟨o, ho⟩ := exists_compare (a := x.toModel.unpack) (b := y.toModel.unpack) hx hy
  rw [lt_iff, UnpackedFloat.lt, ho] at h
  rw [le_iff, UnpackedFloat.le, compare_swap, ho]
  cases o with
  | lt => exact absurd rfl h
  | eq => rfl
  | gt => rfl

/-! ## Packing -/

/-- The mantissa and the exponent of a double. Only the smallest ones have fewer than 53 bits. -/
structure Canonical (m : Nat) (e : Int) : Prop where
  mantissa : m < 2 ^ 53
  low : -1074 ≤ e
  high : e ≤ 971
  full : 2 ^ 52 ≤ m ∨ e = -1074

theorem ofBitVec_unpackSign (s : Sign) (b : BitVec 11) (m : BitVec 52) :
    Sign.ofBitVec (@unpackSign .binary64 (packComponents .binary64 s b m)) = s := by
  rw [unpackSign_packComponents, Sign.ofBitVec_toBitVec]

/-- A double whose exponent field is that of a number has an implicit bit. -/
theorem unpack_normal (s : Sign) {b : BitVec 11} (m : BitVec 52) (hones : b ≠ -1#11)
    (hzero : b ≠ 0#11) : ∃ h, UnpackedFloat.unpack .binary64 (packComponents .binary64 s b m) =
      .finite s (2 ^ 52 + m.toNat) (b.toNat - 1075) h := by
  have hmantissa : (1#1 ++ m).toNat = 2 ^ 52 + m.toNat := by
    rw [BitVec.toNat_append, ← Nat.shiftLeft_add_eq_or_of_lt m.isLt]
    rfl
  refine ⟨by omega, ?_⟩
  unfold UnpackedFloat.unpack
  simp only [unpackExponent_packComponents, unpackMantissa_packComponents, ofBitVec_unpackSign]
  rw [if_neg hones, if_neg hzero]
  simp only [hmantissa]
  rfl

/-- A double whose exponent field is zero has none. -/
theorem unpack_subnormal (s : Sign) {m : BitVec 52} (hm : m ≠ 0#52) :
    ∃ h, UnpackedFloat.unpack .binary64 (packComponents .binary64 s 0#11 m) =
      .finite s m.toNat (-1074) h := by
  have hpos : 0 < m.toNat := Nat.pos_of_ne_zero fun h => hm (BitVec.eq_of_toNat_eq h)
  have hones : (0#11 : BitVec 11) ≠ -1#11 := by decide
  refine ⟨hpos, ?_⟩
  unfold UnpackedFloat.unpack
  simp only [unpackExponent_packComponents, unpackMantissa_packComponents, ofBitVec_unpackSign,
    if_neg hones, if_true, dif_neg hm]
  rfl

theorem unpack_pack_normal (s : Sign) {m : Nat} {e : Int} (hm : 0 < m) (h : Canonical m e)
    (hnormal : 2 ^ 52 ≤ m) :
    UnpackedFloat.unpack .binary64 (UnpackedFloat.pack .binary64 (.finite s m e hm)) =
      .finite s m e hm := by
  obtain ⟨hmlt, hlow, hhigh, -⟩ := h
  have hlt : m.log2 < 53 := (Nat.log2_lt hm.ne').2 hmlt
  have hle : 52 ≤ m.log2 := (Nat.le_log2 hm.ne').2 hnormal
  have hfield : (BitVec.ofNat 11 (e + 1023 + 52).toNat).toNat = (e + 1023 + 52).toNat := by
    rw [BitVec.toNat_ofNat]
    exact Nat.mod_eq_of_lt (by omega)
  have hmantissa : (BitVec.ofNat 52 m).toNat = m - 2 ^ 52 := by
    rw [BitVec.toNat_ofNat]
    omega
  have hpack : UnpackedFloat.pack .binary64 (.finite s m e hm) =
      packComponents .binary64 s (BitVec.ofNat 11 (e + 1023 + 52).toNat) (BitVec.ofNat 52 m) := by
    delta UnpackedFloat.pack
    dsimp only
    exact (if_neg (show ¬ 2 ^ 11 ≤ (e + 1023 + 52).toNat + 1 by omega)).trans
      (if_pos (show m.log2 + 1 = 53 by omega))
  have hones : BitVec.ofNat 11 (e + 1023 + 52).toNat ≠ -1#11 := by
    intro h
    have hall : (e + 1023 + 52).toNat = 2047 := hfield.symm.trans (congrArg BitVec.toNat h)
    omega
  have hzero : BitVec.ofNat 11 (e + 1023 + 52).toNat ≠ 0#11 := by
    intro h
    have hnone : (e + 1023 + 52).toNat = 0 := hfield.symm.trans (congrArg BitVec.toNat h)
    omega
  obtain ⟨_, hunpack⟩ := unpack_normal s (BitVec.ofNat 52 m) hones hzero
  rw [hpack, hunpack, finite.injEq, hfield, hmantissa]
  exact ⟨rfl, by omega, by omega⟩

theorem unpack_pack_subnormal (s : Sign) {m : Nat} (hm : 0 < m) (h : m < 2 ^ 52) :
    UnpackedFloat.unpack .binary64 (UnpackedFloat.pack .binary64 (.finite s m (-1074) hm)) =
      .finite s m (-1074) hm := by
  have hlt : m.log2 < 52 := (Nat.log2_lt hm.ne').2 h
  have hmantissa : (BitVec.ofNat 52 m).toNat = m := by
    rw [BitVec.toNat_ofNat]
    exact Nat.mod_eq_of_lt h
  have hpack : UnpackedFloat.pack .binary64 (.finite s m (-1074) hm) =
      packComponents .binary64 s 0#11 (BitVec.ofNat 52 m) := by
    delta UnpackedFloat.pack
    dsimp only
    exact if_neg (show ¬ m.log2 + 1 = 53 by omega)
  have hne : BitVec.ofNat 52 m ≠ 0#52 :=
    fun h => hm.ne' (hmantissa.symm.trans (congrArg BitVec.toNat h))
  obtain ⟨_, hunpack⟩ := unpack_subnormal s hne
  rw [hpack, hunpack, finite.injEq, hmantissa]
  exact ⟨rfl, rfl, rfl⟩

/-- **A canonical number is packed without a loss.** -/
theorem unpack_pack {m : Nat} {e : Int} (h : Canonical m e) (hm : 0 < m) :
    (Float.ofModel (.pack (.finite s m e hm))).toModel.unpack = .finite s m e hm := by
  by_cases hnormal : 2 ^ 52 ≤ m
  · exact unpack_pack_normal s hm h hnormal
  · obtain rfl : e = -1074 := h.full.resolve_left hnormal
    exact unpack_pack_subnormal s hm (Nat.lt_of_not_le hnormal)

/-! ## Rounding -/

/-- A mantissa that has its exponent is not rounded. -/
theorem roundWithAccuracy_of_target {m : Nat} {e : Int} (hm : 0 < m)
    (h : Format.binary64.targetExponent (totalExponent m e) = e) :
    roundWithAccuracy .binary64 s m e .exact = .finite s m e hm := by
  have hshift : shiftToTargetExponent .binary64 m e .exact = (⟨m, false, false⟩, e) := by
    unfold shiftToTargetExponent shiftToExponent
    rw [h]
    dsimp only
    rw [Int.sub_self]
    exact congrArg _ (Int.add_zero e)
  unfold roundWithAccuracy
  rw [hshift]
  dsimp only
  have hrounded : (ExtendedMantissa.mk m false false).roundedMantissa = m := rfl
  rw [hrounded, hshift]
  exact dif_neg hm.ne'

/-- **A mantissa of 53 bits is not rounded**, only shifted. -/
theorem round_of_lt (s : Sign) {m : Nat} {e : Int} (hm : 0 < m) (h : m < 2 ^ 53) (hlow : -1074 ≤ e)
    (hhigh : e ≤ 971) : ∃ a hpos, UnpackedFloat.round .binary64 s m e =
      .finite s (m <<< a) (e - a) hpos ∧ Canonical (m <<< a) (e - a) := by
  obtain ⟨t, ht⟩ : ∃ t, t = max ((m.log2 : Int) + 1 + e - 53) (-1074) := ⟨_, rfl⟩
  obtain ⟨a, ha⟩ : ∃ a, a = (e - t).toNat := ⟨_, rfl⟩
  have hlt : m.log2 < 53 := (Nat.log2_lt hm.ne').2 h
  have hlog := log2_shiftLeft hm.ne' a
  have hpos : 0 < m <<< a := by
    rw [Nat.shiftLeft_eq]
    exact Nat.mul_pos hm (Nat.two_pow_pos a)
  have htarget : Format.binary64.targetExponent (totalExponent (m <<< a) (e - a)) = e - a := by
    rw [targetExponent_binary64, totalExponent, hlog]
    omega
  refine ⟨a, hpos, ?_, ?_, by omega, by omega, ?_⟩
  · rw [← roundWithAccuracy_of_target hpos htarget, UnpackedFloat.round, decreaseExponent,
      targetExponent_binary64, totalExponent, ← ht, ← ha]
  · exact (Nat.log2_lt hpos.ne').1 (by omega)
  · by_cases hmin : t = -1074
    · exact .inr (by omega)
    · exact .inl ((Nat.le_log2 hpos.ne').1 (by omega))

/-! ## Signs -/

/-- A finite number with the sign `s`. -/
inductive Signed (s : Sign) : UnpackedFloat → Prop
  | zero : Signed s (.zero s)
  | finite (m : Nat) (e : Int) (hm : 0 < m) : Signed s (.finite s m e hm)

theorem exists_signed (h : x.isFinite = true) : ∃ s, Signed s x.toModel.unpack := by
  change x.toModel.unpack.isFinite = true at h
  cases hx : x.toModel.unpack with
  | notANumber =>
    rw [hx] at h
    cases h
  | infinity s =>
    rw [hx] at h
    cases h
  | zero s => exact ⟨s, .zero⟩
  | finite s m e hm => exact ⟨s, .finite m e hm⟩

theorem unpack_pack_zero (s : Sign) :
    (Float.ofModel (.pack (.zero s))).toModel.unpack = .zero s := by
  cases s <;> rfl

theorem signed_round (s : Sign) (m : Nat) (e : Int) :
    Signed s (UnpackedFloat.round .binary64 s m e) :=
  holds_dite (P := Signed s) (fun _ => .zero) fun _ => .finite _ _ _

/-- The sign of a double is that of its sign field. -/
theorem eq_ofBitVec_of_signed {b : BitVec 64} (h : Signed s (UnpackedFloat.unpack .binary64 b)) :
    s = Sign.ofBitVec (@unpackSign .binary64 b) := by
  generalize hu : UnpackedFloat.unpack .binary64 b = u at h
  unfold UnpackedFloat.unpack at hu
  dsimp only at hu
  split_ifs at hu
  · subst hu
    cases h
  · subst hu
    cases h
  · subst hu
    cases h
    rfl
  · subst hu
    cases h
    rfl
  · subst hu
    cases h
    rfl

/-- Packing keeps the sign of a number, unless it is too large for a double. -/
theorem Signed.unpack_pack {u : UnpackedFloat} (h : Signed s u)
    (hfinite : (Float.ofModel (.pack u)).isFinite = true) :
    Signed s (Float.ofModel (.pack u)).toModel.unpack := by
  obtain ⟨t, ht⟩ := exists_signed hfinite
  have hfield := eq_ofBitVec_of_signed ht
  have hpack : Sign.ofBitVec (@unpackSign .binary64 (UnpackedFloat.pack .binary64 u)) = s := by
    cases h with
    | zero => exact ofBitVec_unpackSign s _ _
    | finite m e hm =>
      delta UnpackedFloat.pack
      dsimp only
      split_ifs
      · exact ofBitVec_unpackSign s _ _
      · exact ofBitVec_unpackSign s _ _
      · exact ofBitVec_unpackSign s _ _
  rw [← hpack]
  exact hfield ▸ ht

/-! ## Remainders of a full turn -/

/-- A number with the sign `s` that is smaller than a full turn. -/
inductive Within (s : Sign) : UnpackedFloat → Prop
  | zero : Within s (.zero s)
  | finite (m : Nat) (e : Int) (hm : 0 < m) : e < -44 ∨ e = -44 ∧ m < 6333186975989760 →
    Within s (.finite s m e hm)

theorem Within.signed {u : UnpackedFloat} (h : Within s u) : Signed s u := by
  cases h with
  | zero => exact .zero
  | finite m e hm => exact .finite m e hm

/-- A remainder has no more bits than a double if one of the two mantissas is not shifted. -/
theorem shiftLeft_mod_lt {m n a b : Nat} (hm : m < 2 ^ 53) (hn : n < 2 ^ 53) (hpos : 0 < n)
    (h : a = 0 ∨ b = 0) : (m <<< a) % (n <<< b) < 2 ^ 53 := by
  rcases h with rfl | rfl
  · exact (Nat.mod_le _ _).trans_lt hm
  · exact (Nat.mod_lt _ hpos).trans hn

/-- **A remainder is exact**, and smaller than the divisor. -/
theorem within_remainder (h : Signed s x.toModel.unpack) :
    Within s (remainder x 360).toModel.unpack := by
  obtain ⟨hn, hturn⟩ := unpack_fullTurn
  unfold remainder
  rw [hturn]
  generalize hx : x.toModel.unpack = u at h
  cases h with
  | zero =>
    rw [hx]
    exact .zero
  | finite m e hm =>
    obtain ⟨hmlt, hhigh, hlow⟩ := bounds_of_unpack hx
    obtain ⟨k, hk⟩ : ∃ k, k = min e (-44) := ⟨_, rfl⟩
    obtain ⟨r, hr⟩ : ∃ r, r = (m <<< (e - k).toNat) % (6333186975989760 <<< (-44 - k).toNat) :=
      ⟨_, rfl⟩
    have hbits : r < 2 ^ 53 := by
      rw [hr]
      exact shiftLeft_mod_lt hmlt (by decide) hn (by omega)
    dsimp only
    rw [← hk, ← hr, ofDyadic]
    by_cases hzero : r = 0
    · rw [if_pos hzero, unpack_pack_zero]
      exact .zero
    · obtain ⟨a, hpos, hround, hcanonical⟩ :=
        round_of_lt s (Nat.pos_of_ne_zero hzero) hbits (e := k) (by omega) (by omega)
      rw [if_neg hzero, hround, unpack_pack hcanonical hpos]
      refine .finite _ _ _ ?_
      by_cases hlast : k - a = -44
      · -- the divisor is not shifted then
        refine .inr ⟨hlast, ?_⟩
        rw [hr, show a = 0 by omega, show (-44 - k).toNat = 0 by omega, Nat.shiftLeft_zero,
          Nat.shiftLeft_zero]
        exact Nat.mod_lt _ hn
      · exact .inl (by omega)

/-! ## Wrapping -/

theorem unpack_zero : (0 : Float).toModel.unpack = .zero .positive := rfl

/-- A positive number that is smaller than a full turn is an angle. -/
theorem isAngle_of_within (h : Within .positive x.toModel.unpack) : IsAngle x := by
  obtain ⟨hn, hturn⟩ := unpack_fullTurn
  rw [IsAngle, le_iff, lt_iff, unpack_zero, hturn]
  generalize x.toModel.unpack = u at h
  cases h with
  | zero => exact ⟨rfl, rfl⟩
  | finite m e hm hless =>
    refine ⟨rfl, ?_⟩
    have hcompare : (compare e (-44)).then (compare m 6333186975989760) = .lt := by
      rcases hless with he | ⟨rfl, hlt⟩
      · rw [Int.compare_eq_lt.2 he]
        rfl
      · rw [Nat.compare_eq_lt.2 hlt]
        rfl
    show (some ((compare e (-44)).then (compare m 6333186975989760)) == some .lt) = true
    rw [hcompare]
    rfl

/-- A number that is smaller than a full turn is below zero just if it is negative and not zero. -/
theorem lt_zero_of_within (h : Within s x.toModel.unpack) (hzero : (x == 0) = false) :
    (x < 0 : Bool) = (s == .negative) := by
  change UnpackedFloat.beq x.toModel.unpack (.zero .positive) = false at hzero
  have hlt : (x < 0 : Bool) = UnpackedFloat.lt x.toModel.unpack (.zero .positive) := by
    rw [Bool.eq_iff_iff, decide_eq_true_iff, lt_iff, unpack_zero]
  rw [hlt]
  generalize x.toModel.unpack = u at h hzero
  cases h with
  | zero => cases hzero
  | finite m e hm hless => cases s <;> rfl

/-- The remainder with the sign of the divisor is zero, or the remainder, or a full turn more. -/
theorem modulo_fullTurn (h : Signed s x.toModel.unpack) :
    modulo x 360 = 0.0 ∨ s = .positive ∧ modulo x 360 = remainder x 360 ∨
      s = .negative ∧ modulo x 360 = remainder x 360 + 360 := by
  have hturn : (360 < (0 : Float) : Bool) = false := by decide
  unfold modulo
  dsimp only
  cases hzero : remainder x 360 == 0 with
  | true => exact .inl rfl
  | false =>
    rw [lt_zero_of_within (within_remainder h) hzero, hturn]
    cases s with
    | negative => exact .inr (.inr ⟨rfl, rfl⟩)
    | positive => exact .inr (.inl ⟨rfl, rfl⟩)

theorem within_modulo (h : Signed .positive x.toModel.unpack) :
    Within .positive (modulo x 360).toModel.unpack := by
  rcases modulo_fullTurn h with hmodulo | ⟨-, hmodulo⟩ | ⟨⟨⟩, -⟩
  · rw [hmodulo]
    exact .zero
  · rw [hmodulo]
    exact within_remainder h

theorem isFinite_of_signed (h : Signed s x.toModel.unpack) : x.isFinite = true := by
  show x.toModel.unpack.isFinite = true
  generalize x.toModel.unpack = u at h
  cases h <;> rfl

theorem signed_normalize {z : Int} (hz : 0 < z) (e : Int) (s : Sign) :
    Signed .positive (UnpackedFloat.normalize .binary64 z e s) := by
  unfold UnpackedFloat.normalize
  rw [Int.compare_eq_gt.2 hz]
  exact signed_round _ _ _

/-- A number that is more than the negative of a full turn is positive a full turn later. -/
theorem signed_add_fullTurn
    (h : Signed .positive x.toModel.unpack ∨ Within .negative x.toModel.unpack) :
    Signed .positive (x + 360).toModel.unpack := by
  obtain ⟨hn, hturn⟩ := unpack_fullTurn
  have hx : x.isFinite = true := h.elim isFinite_of_signed fun h => isFinite_of_signed h.signed
  have hfinite : (x + 360).isFinite = true := isFinite_add_of_small hx hturn (by decide)
  have hadd : x + 360 = Float.ofModel (.pack
      (UnpackedFloat.add .binary64 x.toModel.unpack (360 : Float).toModel.unpack)) := rfl
  rw [hadd] at hfinite ⊢
  refine Signed.unpack_pack ?_ hfinite
  rw [hturn]
  generalize hu : x.toModel.unpack = u at h
  rcases h with h | h
  · cases h with
    | zero => exact .finite _ _ hn
    | finite m e hm =>
      refine signed_normalize ?_ _ _
      have hpos : 0 < m <<< (e - min e (-44)).toNat := by
        rw [Nat.shiftLeft_eq]
        exact Nat.mul_pos hm (Nat.two_pow_pos _)
      exact Int.add_pos_of_pos_of_nonneg (Int.natCast_pos.2 hpos) (Int.natCast_nonneg _)
  · cases h with
    | zero => exact .finite _ _ hn
    | finite m e hm hless =>
      obtain ⟨hmlt, -⟩ := bounds_of_unpack hu
      have hlt :
          m <<< (e - min e (-44)).toNat < 6333186975989760 <<< (-44 - min e (-44)).toNat := by
        rw [Nat.shiftLeft_eq, Nat.shiftLeft_eq, show (e - min e (-44)).toNat = 0 by omega]
        rcases hless with he | ⟨rfl, hlt⟩
        · have hpow : 2 ^ 1 ≤ 2 ^ (-44 - min e (-44)).toNat :=
            Nat.pow_le_pow_right (by decide) (by omega)
          omega
        · simpa using hlt
      refine signed_normalize ?_ _ _
      show (0 : Int) < -(m <<< _ : Nat) + (6333186975989760 <<< _ : Nat)
      omega

/-! ## What is not finite -/

theorem remainder_of_not_finite (h : x.isFinite = false) : remainder x 360 = nan := by
  obtain ⟨hn, hturn⟩ := unpack_fullTurn
  change x.toModel.unpack.isFinite = false at h
  unfold remainder
  rw [hturn]
  cases hx : x.toModel.unpack with
  | notANumber => rfl
  | infinity s => rfl
  | zero s =>
    rw [hx] at h
    cases h
  | finite s m e hm =>
    rw [hx] at h
    cases h

theorem modulo_of_not_finite (h : x.isFinite = false) : modulo x 360 = nan := by
  have hzero : (nan == 0) = false := by decide
  have hsign : ((360 : Float) < 0 : Bool) = (nan < 0 : Bool) := by decide
  unfold modulo
  dsimp only
  rw [remainder_of_not_finite h, hzero, hsign, bne_self_eq_false]
  rfl

/-! ## Sums -/

theorem exponentLe_unpack (h : x.isFinite = true) : ExponentLe 971 x.toModel.unpack := by
  obtain ⟨s, hs⟩ := exists_signed h
  cases hx : x.toModel.unpack with
  | finite s m e hm => exact (bounds_of_unpack hx).2.1
  | _ =>
    rw [hx] at hs
    cases hs <;> trivial

theorem isFinite_neg (h : x.isFinite = true) : (-x).isFinite = true := by
  have hle := exponentLe_unpack h
  have hneg : -x = Float.ofModel (.pack x.toModel.unpack.neg) := rfl
  rw [hneg]
  refine isFinite_pack ?_
  cases hx : x.toModel.unpack with
  | _ =>
    rw [hx] at hle
    exact hle

theorem isNaN_of_isFinite (h : x.isFinite = true) : x.isNaN = false := by
  obtain ⟨s, hs⟩ := exists_signed h
  show x.toModel.unpack.isNaN = false
  generalize x.toModel.unpack = u at hs
  cases hs <;> rfl

/-- A number that is too large for a double is packed as an infinity. -/
theorem isNaN_pack {u : UnpackedFloat} (h : Signed s u) :
    (Float.ofModel (.pack u)).isNaN = false := by
  cases h with
  | zero => exact isNaN_of_isFinite (isFinite_pack (x := .zero s) trivial)
  | finite m e hm =>
    by_cases he : e ≤ 971
    · exact isNaN_of_isFinite (isFinite_pack (x := .finite s m e hm) he)
    · have hbias : Format.binary64.exponentBias = 1023 := rfl
      have hpack :
          UnpackedFloat.pack .binary64 (.finite s m e hm) = packedInfinity .binary64 s := by
        delta UnpackedFloat.pack
        dsimp only
        exact if_pos (show 2 ^ 11 ≤ (e + 1023 + 52).toNat + 1 by omega)
      show (UnpackedFloat.unpack .binary64
        (UnpackedFloat.pack .binary64 (.finite s m e hm))).isNaN = false
      rw [hpack]
      cases s <;> rfl

theorem exists_signed_add {t : Sign} {u v : UnpackedFloat} (hu : Signed s u) (hv : Signed t v) :
    ∃ r, Signed r (UnpackedFloat.add .binary64 u v) := by
  cases hu with
  | zero =>
    cases hv with
    | zero =>
      unfold UnpackedFloat.add
      dsimp only
      split_ifs
      · exact ⟨_, .zero⟩
      · exact ⟨_, .zero⟩
    | finite n f hn => exact ⟨_, .finite n f hn⟩
  | finite m e hm =>
    cases hv with
    | zero => exact ⟨_, .finite m e hm⟩
    | finite n f hn =>
      unfold UnpackedFloat.add UnpackedFloat.normalize
      dsimp only
      split
      · exact ⟨_, signed_round _ _ _⟩
      · exact ⟨_, .zero⟩
      · exact ⟨_, signed_round _ _ _⟩

/-- Two finite numbers have a sum, be it infinite. -/
theorem isNaN_add (hx : x.isFinite = true) (hy : y.isFinite = true) : (x + y).isNaN = false := by
  obtain ⟨s, hs⟩ := exists_signed hx
  obtain ⟨t, ht⟩ := exists_signed hy
  obtain ⟨r, hr⟩ := exists_signed_add hs ht
  exact isNaN_pack hr

protected theorem add_comm (x y : Float) : x + y = y + x := by
  have hadd (x y : Float) : x + y = Float.ofModel (.pack
      (UnpackedFloat.add .binary64 x.toModel.unpack y.toModel.unpack)) := rfl
  have hcomm (a b : UnpackedFloat) : UnpackedFloat.add .binary64 a b = .add .binary64 b a := by
    rcases a with (_ | _) | _ | (_ | _) | ⟨s, m, e, hm⟩ <;>
      rcases b with (_ | _) | _ | (_ | _) | ⟨t, n, f, hn⟩ <;>
      first
      | rfl
      | simp only [UnpackedFloat.add, Int.min_comm, Int.add_comm]
  rw [hadd, hadd, hcomm]

theorem unpack_of_nonneg (h : 0 ≤ x) : x.toModel.unpack = .infinity .positive ∨
    (∃ s, x.toModel.unpack = .zero s) ∨ ∃ m e hm, x.toModel.unpack = .finite .positive m e hm := by
  rw [le_iff, unpack_zero] at h
  generalize x.toModel.unpack = u at h
  rcases u with (_ | _) | _ | s | ⟨_ | _, m, e, hm⟩
  · cases h
  · exact .inl rfl
  · cases h
  · exact .inr (.inl ⟨s, rfl⟩)
  · cases h
  · exact .inr (.inr ⟨m, e, hm, rfl⟩)

/-- Angles are zeros and positive numbers that are far from the largest ones. -/
theorem unpack_of_isAngle (h : IsAngle x) : (∃ s, x.toModel.unpack = .zero s) ∨
    ∃ m e hm, x.toModel.unpack = .finite .positive m e hm ∧ e ≤ -44 := by
  obtain ⟨hn, hturn⟩ := unpack_fullTurn
  obtain ⟨hlow, hhigh⟩ := h
  rw [lt_iff, hturn] at hhigh
  rcases unpack_of_nonneg hlow with hx | hx | ⟨m, e, hm, hx⟩
  · rw [hx] at hhigh
    cases hhigh
  · exact .inl hx
  · refine .inr ⟨m, e, hm, hx, ?_⟩
    by_contra he
    rw [hx] at hhigh
    change (some ((compare e (-44)).then (compare m 6333186975989760)) == some .lt) = true
      at hhigh
    rw [Int.compare_eq_gt.2 (Int.not_le.1 he)] at hhigh
    cases hhigh

theorem isFinite_of_isAngle (h : IsAngle x) : x.isFinite = true := by
  show x.toModel.unpack.isFinite = true
  rcases unpack_of_isAngle h with ⟨s, hx⟩ | ⟨m, e, hm, hx, -⟩
  · rw [hx]
    rfl
  · rw [hx]
    rfl

theorem isFinite_of_isPercent (h : IsPercent x) : x.isFinite = true := by
  obtain ⟨n, f, hn, hbound⟩ : ∃ n f hn, (100 : Float).toModel.unpack = .finite .positive n f hn :=
    ⟨7036874417766400, -46, by decide, rfl⟩
  obtain ⟨hlow, hhigh⟩ := h
  rw [le_iff, hbound] at hhigh
  show x.toModel.unpack.isFinite = true
  rcases unpack_of_nonneg hlow with hx | ⟨s, hx⟩ | ⟨m, e, hm, hx⟩
  · rw [hx] at hhigh
    cases hhigh
  · rw [hx]
    rfl
  · rw [hx]
    rfl

/-- An angle may be added to any finite number. -/
theorem isFinite_add_of_isAngle (hx : IsAngle x) (hy : y.isFinite = true) :
    (x + y).isFinite = true := by
  rcases unpack_of_isAngle hx with ⟨s, hzero⟩ | ⟨m, e, hm, hfinite, he⟩
  · have hadd : x + y = Float.ofModel (.pack
        (UnpackedFloat.add .binary64 x.toModel.unpack y.toModel.unpack)) := rfl
    have hle := exponentLe_unpack hy
    rw [hadd, hzero]
    refine isFinite_pack ?_
    cases h : y.toModel.unpack with
    | zero t =>
      unfold UnpackedFloat.add
      dsimp only
      split_ifs
      · trivial
      · trivial
    | _ =>
      rw [h] at hle
      exact hle
  · rw [Number.add_comm]
    exact isFinite_add_of_small hy hfinite (by omega)

end Number

/-- **Every finite number is wrapped to an angle.** -/
theorem isAngle_wrapHue {x : Float} (h : x.isFinite = true) : IsAngle (wrapHue x) := by
  obtain ⟨s, hs⟩ := Number.exists_signed h
  refine Number.isAngle_of_within (Number.within_modulo (Number.signed_add_fullTurn ?_))
  rcases Number.modulo_fullTurn hs with hmodulo | ⟨rfl, hmodulo⟩ | ⟨rfl, hmodulo⟩
  · rw [hmodulo]
    exact .inl .zero
  · rw [hmodulo]
    exact .inl (Number.within_remainder hs).signed
  · rw [hmodulo]
    exact .inl (Number.signed_add_fullTurn (.inr (Number.within_remainder hs)))

/-- What is not finite is wrapped to what is not a number. -/
theorem wrapHue_of_not_finite {x : Float} (h : x.isFinite = false) : wrapHue x = Number.nan := by
  have hnan : Number.nan.isFinite = false := by decide
  rw [wrapHue, Number.modulo_of_not_finite h]
  exact Number.modulo_of_not_finite (Number.isFinite_add 360 hnan)

/-- **Every number is brought to a percentage.** -/
theorem isPercent_clamp {x : Float} (h : x.isNaN = false) : IsPercent (clamp x 0 100) := by
  unfold clamp
  split_ifs with hlow hhigh
  · decide
  · decide
  · exact ⟨Number.le_of_not_lt h (by decide) hlow, Number.le_of_not_lt (by decide) h hhigh⟩

end PixelTurtle
