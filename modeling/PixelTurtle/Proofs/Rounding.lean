import Mathlib.Tactic.Ring
import PixelTurtle.Canvas.Walk

/-!
# The points that have a cell

A coordinate is rounded by adding one half and taking the integer below. The sum is rounded to a
double itself, and could be too large for one; it is not, because one half is far less than half of
the distance between the largest doubles. So every finite point has a cell. No other point has one,
because nothing that is added to an infinity or to not-a-number makes it finite.

* `roundedMantissa_le` bounds the mantissa after the bits below the last one are rounded away.
* `exponentLe_round` and `isFinite_pack` say that a number that is less than half a unit above the
  largest double is rounded to a finite one.
* `isFinite_add_of_small` says that a number which is small enough may be added to any finite one.
* `isFinite_add` says that no sum with a number that is not finite is finite.
* `Cell.exists_ofPoint` and `Cell.isFinite_of_ofPoint` are the consequences for points.
-/

namespace PixelTurtle.Number

open Float.Model Float.Model.UnpackedFloat

/-! ## Rounding a mantissa -/

theorem mantissa_shiftRight (em : ExtendedMantissa) (n : Nat) :
    (em >>> n).mantissa = em.mantissa / 2 ^ n := by
  induction n with
  | zero => exact (Nat.div_one _).symm
  | succ n ih =>
    show (em >>> n).mantissa / 2 = em.mantissa / 2 ^ (n + 1)
    rw [ih, Nat.div_div_eq_div_mul, Nat.pow_succ]

theorem roundedMantissa_le_succ (em : ExtendedMantissa) :
    em.roundedMantissa ≤ em.mantissa + 1 := by
  obtain ⟨m, roundBit, stickyBit⟩ := em
  cases roundBit <;> cases stickyBit <;>
    simp only [ExtendedMantissa.roundedMantissa, ExtendedMantissa.accuracy,
      Accuracy.roundToNearestEven] <;>
    omega

theorem roundedMantissa_of_roundBit {em : ExtendedMantissa} (h : em.roundBit = false) :
    em.roundedMantissa = em.mantissa := by
  obtain ⟨m, roundBit, stickyBit⟩ := em
  subst h
  cases stickyBit <;> rfl

/-- A mantissa that is less than half a unit above `b` is rounded to `b` at most. -/
theorem roundedMantissa_le {m n b : Nat} (h : 2 * m < (2 * b + 1) * 2 ^ n) :
    (ExtendedMantissa.ofMantissaAndAccuracy m .exact >>> n).roundedMantissa ≤ b := by
  have hle := roundedMantissa_le_succ (ExtendedMantissa.ofMantissaAndAccuracy m .exact >>> n)
  have hmantissa := mantissa_shiftRight (ExtendedMantissa.ofMantissaAndAccuracy m .exact) n
  change _ = m / 2 ^ n at hmantissa
  cases n with
  | zero =>
    show m ≤ b
    omega
  | succ n =>
    have hhalf : m / 2 ^ n < 2 * b + 1 := by
      refine (Nat.div_lt_iff_lt_mul (Nat.two_pow_pos n)).2 ?_
      rw [Nat.pow_succ, ← Nat.mul_assoc] at h
      omega
    rw [Nat.pow_succ, ← Nat.div_div_eq_div_mul] at hmantissa
    by_cases hb : m / 2 ^ n / 2 < b
    · omega
    · -- the bit below the last one is not set, so that nothing is carried
      have hbit :
          (ExtendedMantissa.ofMantissaAndAccuracy m .exact >>> (n + 1)).roundBit = false := by
        show ((ExtendedMantissa.ofMantissaAndAccuracy m .exact >>> n).mantissa % 2 != 0) = false
        rw [mantissa_shiftRight]
        show (m / 2 ^ n % 2 != 0) = false
        have : m / 2 ^ n % 2 = 0 := by omega
        rw [this]
        rfl
      rw [roundedMantissa_of_roundBit hbit]
      omega

/-! ## Rounding a dyadic number -/

theorem targetExponent_binary64 (t : Int) :
    Format.binary64.targetExponent t = max (t - 53) (-1074) := rfl

/-- The double that a dyadic number is rounded to has an exponent of at most `e`. -/
def ExponentLe (e : Int) : UnpackedFloat → Prop
  | .finite _ _ e' _ => e' ≤ e
  | .zero _ => True
  | _ => False

theorem ExponentLe.mono {e e' : Int} (he : e ≤ e') : ∀ {x : UnpackedFloat},
    ExponentLe e x → ExponentLe e' x
  | .finite .., h => Int.le_trans h he
  | .zero _, _ => trivial

/-- What holds of both branches holds of a number that is one of them. -/
theorem holds_dite {P : UnpackedFloat → Prop} {c : Prop} [Decidable c] {x : c → UnpackedFloat}
    {y : ¬ c → UnpackedFloat} (hx : ∀ h, P (x h)) (hy : ∀ h, P (y h)) :
    P (if h : c then x h else y h) := by
  split
  · exact hx _
  · exact hy _

theorem log2_le_of_lt {m n : Nat} (h : m < 2 ^ (n + 1)) : m.log2 ≤ n := by
  by_cases hm : m = 0
  · rw [hm, Nat.log2_zero]
    exact Nat.zero_le n
  · exact Nat.lt_succ_iff.1 ((Nat.log2_lt hm).2 h)

theorem log2_shiftLeft {m : Nat} (hm : m ≠ 0) (n : Nat) : (m <<< n).log2 = m.log2 + n := by
  induction n with
  | zero => rfl
  | succ n ih =>
    have hne : m <<< n ≠ 0 := by
      rw [Nat.shiftLeft_eq]
      exact Nat.mul_ne_zero hm (Nat.two_pow_pos n).ne'
    rw [Nat.shiftLeft_succ, Nat.log2_two_mul hne, ih, Nat.add_assoc]

/-- What is left to do once the bits of a mantissa have been rounded away. -/
theorem exponentLe_of_rounded {s : Sign} {m : Nat} {e t : Int}
    (ht : Format.binary64.targetExponent (totalExponent m e) = t) (het : e ≤ t) (ht' : -1074 ≤ t)
    {l : Nat} (hl : (ExtendedMantissa.ofMantissaAndAccuracy m .exact >>>
      (t - e).toNat).roundedMantissa.log2 ≤ l) :
    ExponentLe (max (t + l - 52) t) (roundWithAccuracy .binary64 s m e .exact) := by
  have hfirst : e + ((t - e).toNat : Int) = t := by omega
  unfold roundWithAccuracy shiftToTargetExponent shiftToExponent
  rw [ht]
  dsimp only
  rw [hfirst]
  refine holds_dite (P := ExponentLe _) (fun _ => trivial) fun _ => ?_
  show t + ((Format.binary64.targetExponent (totalExponent _ t) - t).toNat : Int) ≤ _
  rw [targetExponent_binary64, totalExponent]
  omega

/-- A rounded mantissa may get one more bit. -/
theorem exponentLe_of_target {s : Sign} {m : Nat} {e t : Int}
    (ht : Format.binary64.targetExponent (totalExponent m e) = t) (het : e ≤ t) :
    ExponentLe (t + 1) (roundWithAccuracy .binary64 s m e .exact) := by
  have htotal := ht
  rw [targetExponent_binary64, totalExponent] at htotal
  have hl := exponentLe_of_rounded (s := s) ht het (by omega) (l := 53) ?_
  · exact hl.mono (by omega)
  · refine log2_le_of_lt (Nat.lt_of_le_of_lt (roundedMantissa_le (b := 2 ^ 53) ?_) (by decide))
    have hself := Nat.lt_log2_self (n := m)
    have hpow : 2 ^ (m.log2 + 1) ≤ 2 ^ (53 + (t - e).toNat) :=
      Nat.pow_le_pow_right (by decide) (by omega)
    rw [Nat.pow_add 2 53] at hpow
    omega

/-- A dyadic number that is less than half a unit above the largest double is rounded to one that
does not have a larger exponent. -/
theorem exponentLe_round (s : Sign) {m : Nat} {e : Int} (hm : m ≠ 0) (he : e ≤ 971)
    (h : 2 * m < (2 * (2 ^ 53 - 1) + 1) * 2 ^ (971 - e).toNat) :
    ExponentLe 971 (UnpackedFloat.round .binary64 s m e) := by
  obtain ⟨t, ht⟩ : ∃ t, t = max ((m.log2 : Int) + 1 + e - 53) (-1074) := ⟨_, rfl⟩
  obtain ⟨a, ha⟩ : ∃ a, a = (e - t).toNat := ⟨_, rfl⟩
  have hlog := log2_shiftLeft hm a
  have hround : UnpackedFloat.round .binary64 s m e =
      roundWithAccuracy .binary64 s (m <<< a) (e - a) .exact := by
    rw [UnpackedFloat.round, decreaseExponent, targetExponent_binary64, totalExponent, ← ht, ← ha]
  have htarget : Format.binary64.targetExponent (totalExponent (m <<< a) (e - a)) = t := by
    rw [targetExponent_binary64, totalExponent, hlog]
    omega
  have hlt : m.log2 < 53 + (971 - e).toNat := by
    refine (Nat.log2_lt hm).2 ?_
    rw [Nat.pow_add]
    omega
  rw [hround]
  by_cases hmax : t = 971
  · have hl := exponentLe_of_rounded (s := s) htarget (by omega) (by omega) (l := 52) ?_
    · rw [hmax] at hl
      exact hl
    · have ha0 : a = 0 := by omega
      refine log2_le_of_lt (Nat.lt_of_le_of_lt (roundedMantissa_le ?_) (Nat.pred_lt (by decide)))
      rw [hmax, ha0]
      simpa using h
  · exact (exponentLe_of_target htarget (by omega)).mono (by omega)

/-! ## Packing and unpacking -/

theorem isFinite_unpack {b : BitVec 64} (h : @unpackExponent .binary64 b ≠ -1#11) :
    (UnpackedFloat.unpack .binary64 b).isFinite = true := by
  unfold UnpackedFloat.unpack
  dsimp only
  rw [if_neg h]
  by_cases hsub : @unpackExponent .binary64 b = 0#11
  · rw [if_pos hsub]
    exact holds_dite (P := fun x => x.isFinite = true) (fun _ => rfl) fun _ => rfl
  · rw [if_neg hsub]
    rfl

/-- A double with an exponent of at most 971 is finite. -/
theorem isFinite_pack {x : UnpackedFloat} (h : ExponentLe 971 x) :
    (Float.ofModel (.pack x)).isFinite = true := by
  refine isFinite_unpack ?_
  show @unpackExponent .binary64 (UnpackedFloat.pack .binary64 x) ≠ _
  cases x with
  | infinity s => exact h.elim
  | notANumber => exact h.elim
  | zero s =>
    show @unpackExponent .binary64 (packedZero .binary64 s) ≠ _
    rw [packedZero, unpackExponent_packComponents]
    decide
  | finite s m e hm =>
    replace h : e ≤ 971 := h
    have hbias : (e + (Format.binary64.exponentBias : Nat) + (52 : Nat)).toNat < 2047 := by
      have : Format.binary64.exponentBias = 1023 := rfl
      omega
    delta UnpackedFloat.pack
    dsimp only
    split_ifs with hlarge hnormal
    · omega
    · rw [unpackExponent_packComponents]
      intro heq
      have htoNat := congrArg BitVec.toNat heq
      rw [BitVec.toNat_ofNat, Nat.mod_eq_of_lt (Nat.lt_succ_of_lt hbias)] at htoNat
      exact absurd htoNat (Nat.ne_of_lt hbias)
    · rw [unpackExponent_packComponents]
      decide

/-- The mantissa and the exponent of a finite double. -/
theorem bounds_of_unpack {x : Float} {s : Sign} {m : Nat} {e : Int} {hm : 0 < m}
    (h : x.toModel.unpack = .finite s m e hm) : m < 2 ^ 53 ∧ e ≤ 971 ∧ -1074 ≤ e := by
  unfold Float.Model.unpack UnpackedFloat.unpack at h
  have hbias : Format.binary64.exponentBias = 1023 := rfl
  dsimp only at h
  -- an exponent field of ones is not that of a number, and one of zeros that of a small number
  by_cases hinf : @unpackExponent .binary64 x.toModel.toBits.toBitVec = -1#11
  · rw [if_pos hinf] at h
    by_cases hnan : @unpackMantissa .binary64 x.toModel.toBits.toBitVec = 0#52
    · rw [if_pos hnan] at h
      cases h
    · rw [if_neg hnan] at h
      cases h
  rw [if_neg hinf] at h
  by_cases hsub : @unpackExponent .binary64 x.toModel.toBits.toBitVec = 0#11
  · rw [if_pos hsub] at h
    by_cases hzero : @unpackMantissa .binary64 x.toModel.toBits.toBitVec = 0#52
    · rw [dif_pos hzero] at h
      cases h
    · rw [dif_neg hzero] at h
      cases h
      refine ⟨Nat.lt_of_lt_of_le (BitVec.isLt _) (by decide), ?_⟩
      rw [hsub]
      exact ⟨by decide, by decide⟩
  · rw [if_neg hsub] at h
    cases h
    refine ⟨BitVec.isLt _, ?_⟩
    have hlt : (@unpackExponent .binary64 x.toModel.toBits.toBitVec).toNat < 2 ^ 11 :=
      BitVec.isLt _
    have hne : (@unpackExponent .binary64 x.toModel.toBits.toBitVec).toNat ≠ 2047 :=
      fun heq => hinf (BitVec.eq_of_toNat_eq heq)
    have hpos : (@unpackExponent .binary64 x.toModel.toBits.toBitVec).toNat ≠ 0 :=
      fun heq => hsub (BitVec.eq_of_toNat_eq heq)
    rw [hbias]
    exact ⟨by omega, by omega⟩

/-! ## Adding a small number -/

theorem natAbs_apply (s : Sign) (n : Nat) : (s.apply n).natAbs = n := by
  cases s with
  | negative => exact Int.natAbs_neg n
  | positive => rfl

theorem exponentLe_normalize {z e : Int} (s : Sign) (he : e ≤ 971)
    (h : 2 * z.natAbs < (2 * (2 ^ 53 - 1) + 1) * 2 ^ (971 - e).toNat) :
    ExponentLe 971 (UnpackedFloat.normalize .binary64 z e s) := by
  unfold UnpackedFloat.normalize
  split
  · rename_i hlt
    rw [Int.compare_eq_lt] at hlt
    refine exponentLe_round _ (by omega) he ?_
    rwa [show (-z).toNat = z.natAbs by omega]
  · trivial
  · rename_i hgt
    rw [Int.compare_eq_gt] at hgt
    refine exponentLe_round _ (by omega) he ?_
    rwa [show z.toNat = z.natAbs by omega]

/-- The mantissas of a double and of a small one, both shifted to one exponent, are less than half a
unit above the largest double. -/
theorem add_small_lt {m k p q n : Nat} (hm : m < 2 ^ 53) (hk : k < 2 ^ 53) (hp : p ≤ n)
    (hq : 54 + q ≤ n) : 2 * (m <<< p + k <<< q) < (2 * (2 ^ 53 - 1) + 1) * 2 ^ n := by
  have hfirst : m * 2 ^ p ≤ (2 ^ 53 - 1) * 2 ^ n :=
    Nat.mul_le_mul (by omega) (Nat.pow_le_pow_right (by decide) hp)
  have hsecond : 2 * (k * 2 ^ q) < 2 ^ n := by
    refine Nat.lt_of_lt_of_le ?_ (Nat.pow_le_pow_right (by decide) hq)
    rw [Nat.pow_add, ← Nat.mul_assoc]
    exact Nat.mul_lt_mul_of_pos_right (by omega) (Nat.two_pow_pos q)
  rw [Nat.shiftLeft_eq, Nat.shiftLeft_eq]
  omega

/-- A double that is far smaller than the distance of the largest ones may be added to any. -/
theorem isFinite_add_of_small {x y : Float} (hx : x.isFinite = true) {s : Sign} {k : Nat} {f : Int}
    {hk : 0 < k} (hy : y.toModel.unpack = .finite s k f hk) (hf : f ≤ 917) :
    (x + y).isFinite = true := by
  have hadd : x + y = Float.ofModel (.pack
      (UnpackedFloat.add .binary64 x.toModel.unpack y.toModel.unpack)) := rfl
  rw [hadd, hy]
  refine isFinite_pack ?_
  change x.toModel.unpack.isFinite = true at hx
  cases h : x.toModel.unpack with
  | notANumber =>
    rw [h] at hx
    cases hx
  | infinity s' =>
    rw [h] at hx
    cases hx
  | zero s' =>
    show f ≤ 971
    omega
  | finite s' m e hm =>
    obtain ⟨hmlt, he, -⟩ := bounds_of_unpack h
    refine exponentLe_normalize _ (by omega) ?_
    have hlt := add_small_lt (p := (e - min e f).toNat) (q := (f - min e f).toNat)
      (n := (971 - min e f).toNat) hmlt (bounds_of_unpack hy).1 (by omega) (by omega)
    refine Nat.lt_of_le_of_lt (Nat.mul_le_mul_left 2 ?_) hlt
    refine (Int.natAbs_add_le _ _).trans (Nat.le_of_eq ?_)
    rw [natAbs_apply, natAbs_apply]

theorem isFinite_add_half {x : Float} (h : x.isFinite = true) : (x + 0.5).isFinite = true := by
  obtain ⟨hpos, hhalf⟩ : ∃ h, (0.5 : Float).toModel.unpack = .finite .positive (2 ^ 52) (-53) h :=
    ⟨by decide, rfl⟩
  exact isFinite_add_of_small h hhalf (by decide)

theorem exists_floor {x : Float} (h : x.isFinite = true) : ∃ n, floor x = .ok n := by
  change x.toModel.unpack.isFinite = true at h
  unfold floor
  cases hx : x.toModel.unpack with
  | notANumber =>
    rw [hx] at h
    cases h
  | infinity s =>
    rw [hx] at h
    cases h
  | zero s => exact ⟨0, rfl⟩
  | finite s m e hm => exact ⟨_, rfl⟩

/-- **Every finite coordinate can be rounded.** -/
theorem exists_roundHalfUp {x : Float} (h : x.isFinite = true) : ∃ n, roundHalfUp x = .ok n :=
  exists_floor (isFinite_add_half h)

/-! ## Numbers that are not finite -/

theorem isFinite_pack_infinity (s : Sign) :
    (Float.ofModel (.pack (.infinity s))).isFinite = false := by
  cases s with
  | negative => decide
  | positive => decide

theorem isFinite_pack_notANumber : (Float.ofModel (.pack .notANumber)).isFinite = false := by
  decide

/-- Nothing that is added to a number that is not finite makes it finite. -/
theorem isFinite_add {x : Float} (y : Float) (h : x.isFinite = false) :
    (x + y).isFinite = false := by
  have hadd : x + y = Float.ofModel (.pack
      (UnpackedFloat.add .binary64 x.toModel.unpack y.toModel.unpack)) := rfl
  change x.toModel.unpack.isFinite = false at h
  rw [hadd]
  cases hx : x.toModel.unpack with
  | notANumber => exact isFinite_pack_notANumber
  | infinity s =>
    cases y.toModel.unpack with
    | notANumber => exact isFinite_pack_notANumber
    | infinity s' =>
      unfold UnpackedFloat.add
      dsimp only
      split_ifs
      · exact isFinite_pack_infinity s
      · exact isFinite_pack_notANumber
    | zero s' => exact isFinite_pack_infinity s
    | finite s' m e hm => exact isFinite_pack_infinity s
  | zero s =>
    rw [hx] at h
    cases h
  | finite s m e hm =>
    rw [hx] at h
    cases h

theorem isFinite_of_floor {x : Float} {n : Int} (h : floor x = .ok n) : x.isFinite = true := by
  show x.toModel.unpack.isFinite = true
  unfold floor at h
  cases hx : x.toModel.unpack with
  | notANumber =>
    rw [hx] at h
    cases h
  | infinity s =>
    rw [hx] at h
    cases h
  | zero s => rfl
  | finite s m e hm => rfl

theorem isFinite_of_roundHalfUp {x : Float} {n : Int} (h : roundHalfUp x = .ok n) :
    x.isFinite = true := by
  have hsum : (x + 0.5).isFinite = true := isFinite_of_floor h
  by_contra hx
  rw [isFinite_add 0.5 (Bool.not_eq_true _ ▸ hx)] at hsum
  cases hsum

end PixelTurtle.Number

namespace PixelTurtle

/-! ## Points -/

/-- **Every finite point has a cell.** -/
theorem Cell.exists_ofPoint {x y : Float} (hx : x.isFinite = true) (hy : y.isFinite = true) :
    ∃ cell, Cell.ofPoint x y = .ok cell := by
  obtain ⟨cx, hcx⟩ := Number.exists_roundHalfUp hx
  obtain ⟨cy, hcy⟩ := Number.exists_roundHalfUp hy
  refine ⟨⟨cx, cy⟩, ?_⟩
  rw [Cell.ofPoint, hcx, hcy]
  rfl

/-- A point that has a cell is finite. -/
theorem Cell.isFinite_of_ofPoint {x y : Float} {cell : Cell} (h : Cell.ofPoint x y = .ok cell) :
    x.isFinite = true ∧ y.isFinite = true := by
  unfold Cell.ofPoint at h
  cases hx : Number.roundHalfUp x with
  | error reason =>
    rw [hx] at h
    cases h
  | ok cx =>
    cases hy : Number.roundHalfUp y with
    | error reason =>
      rw [hx, hy] at h
      cases h
    | ok cy => exact ⟨Number.isFinite_of_roundHalfUp hx, Number.isFinite_of_roundHalfUp hy⟩

end PixelTurtle
