import PixelTurtle.Proofs.Wrapping

/-!
# Rounding integers

A coordinate is rounded by adding one half and taking the integer below. If it is an integer, this
should leave it as it is; but the sum is rounded to a double first. Beyond `2 ^ 52` there is no
double halfway between two integers, so that the sum is rounded to the even one of its neighbours,
and an odd integer is one off. Beyond `2 ^ 53` one half is too small to change a double, and there
are no odd ones.

The sum of `n` and one half is half of `2 * n + 1`, whose bits decide which of the three cases it
is.

* `IsNearest` says which mantissa is nearest to a longer one, and `roundedMantissa_of_isNearest`
  that it is the one that rounding finds.
* `floor_round` is the integer below a rounded number, in terms of the nearest mantissa.
* `IsInteger` are the doubles that are integers, and `Kept` the integers that rounding keeps.
* `roundHalfUp_of_isInteger` says what every integer is rounded to.
-/

namespace PixelTurtle.Number

open Float.Model Float.Model.UnpackedFloat

/-! ## The nearest mantissa -/

/-- The bits that a shift drops: the first of them is kept apart from the others. -/
theorem shiftRight_succ (m k : Nat) :
    ExtendedMantissa.ofMantissaAndAccuracy m .exact >>> (k + 1) =
      ⟨m / 2 ^ (k + 1), m / 2 ^ k % 2 != 0, m % 2 ^ k != 0⟩ := by
  induction k with
  | zero =>
    show ExtendedMantissa.mk (m / 2) (m % 2 != 0) (false || false) = _
    rw [Nat.pow_zero, Nat.div_one, Nat.mod_one]
    rfl
  | succ k ih =>
    show ExtendedMantissa.shiftRightOne
      (ExtendedMantissa.ofMantissaAndAccuracy m .exact >>> (k + 1)) = _
    have hmod : m % 2 ^ (k + 1) = m % 2 ^ k + 2 ^ k * (m / 2 ^ k % 2) := by
      rw [Nat.pow_succ, Nat.mod_mul]
    have hpos := Nat.two_pow_pos k
    rw [ih, ExtendedMantissa.shiftRightOne, Nat.div_div_eq_div_mul, ← Nat.pow_succ,
      ExtendedMantissa.mk.injEq]
    refine ⟨rfl, rfl, ?_⟩
    rw [hmod]
    rcases Nat.mod_two_eq_zero_or_one (m / 2 ^ k) with hbit | hbit
    · rw [hbit, Nat.mul_zero, Nat.add_zero]
      rfl
    · rw [hbit, Nat.mul_one]
      exact (bne_iff_ne.2 (by omega)).symm

/-- The number `q` is the one nearest to `m / 2 ^ k`, and the even one if there are two. -/
structure IsNearest (m k q : Nat) : Prop where
  low : 2 * q * 2 ^ k ≤ 2 * m + 2 ^ k
  high : 2 * m ≤ (2 * q + 1) * 2 ^ k
  even : 2 * q * 2 ^ k = 2 * m + 2 ^ k ∨ 2 * m = (2 * q + 1) * 2 ^ k → q % 2 = 0

/-- A mantissa that loses bits is rounded to the nearest one. -/
theorem roundedMantissa_of_isNearest {m k q : Nat} (h : IsNearest m k q) :
    (ExtendedMantissa.ofMantissaAndAccuracy m .exact >>> k).roundedMantissa = q := by
  obtain ⟨hlow, hhigh, heven⟩ := h
  cases k with
  | zero =>
    show m = q
    omega
  | succ k =>
    have hdiv := Nat.div_add_mod m (2 ^ k)
    have hlt := Nat.mod_lt m (Nat.two_pow_pos k)
    rw [shiftRight_succ, Nat.pow_succ, ← Nat.div_div_eq_div_mul]
    rw [Nat.pow_succ] at hlow hhigh heven
    generalize m % 2 ^ k = b at hdiv hlt ⊢
    generalize m / 2 ^ k = a at hdiv ⊢
    generalize 2 ^ k = p at hdiv hlt hlow hhigh heven
    subst hdiv
    -- with one more bit, the mantissa is at most one unit away from twice the nearest one
    have habove : a ≤ 2 * q + 1 := by
      by_contra hfar
      have := Nat.mul_le_mul_left p (show 2 * q + 2 ≤ a by omega)
      grind
    have hbelow : 2 * q ≤ a + 1 := by
      by_contra hfar
      have := Nat.mul_le_mul_left p (show a + 2 ≤ 2 * q by omega)
      grind
    obtain rfl | rfl | hc : a = 2 * q ∨ a = 2 * q + 1 ∨ a + 1 = 2 * q := by omega
    · have hbit : (2 * q % 2 != 0) = false := by simp
      rw [roundedMantissa_of_roundBit hbit]
      show 2 * q / 2 = q
      omega
    · obtain rfl : b = 0 := by grind
      have hq := heven (by grind)
      have hbit : ((2 * q + 1) % 2 != 0) = true := bne_iff_ne.2 (by omega)
      rw [hbit]
      show (2 * q + 1) / 2 + (2 * q + 1) / 2 % 2 = q
      omega
    · have hbit : (a % 2 != 0) = true := bne_iff_ne.2 (by omega)
      rw [hbit]
      by_cases hb : b = 0
      · have hq := heven (by grind)
        subst hb
        show a / 2 + a / 2 % 2 = q
        omega
      · rw [bne_iff_ne.2 hb]
        show a / 2 + 1 = q
        omega

/-- A mantissa that only loses zeros is nearest to itself. -/
theorem isNearest_of_eq {m k q : Nat} (h : m = q * 2 ^ k) : IsNearest m k q := by
  have hpos := Nat.two_pow_pos k
  constructor <;> grind

/-- Zeros at the end of a mantissa make no difference. -/
theorem IsNearest.mul_two_pow {m k q : Nat} (h : IsNearest m k q) (j : Nat) :
    IsNearest (m * 2 ^ j) (k + j) q := by
  obtain ⟨hlow, hhigh, heven⟩ := h
  have hpos := Nat.two_pow_pos j
  have hleft : 2 * q * 2 ^ (k + j) = 2 * q * 2 ^ k * 2 ^ j := by
    rw [pow_add]
    ring
  have hright : (2 * q + 1) * 2 ^ (k + j) = (2 * q + 1) * 2 ^ k * 2 ^ j := by
    rw [pow_add]
    ring
  have hsum : 2 * (m * 2 ^ j) + 2 ^ (k + j) = (2 * m + 2 ^ k) * 2 ^ j := by
    rw [pow_add]
    ring
  refine ⟨?_, ?_, ?_⟩
  · rw [hleft, hsum]
    exact Nat.mul_le_mul_right _ hlow
  · rw [hright, ← mul_assoc]
    exact Nat.mul_le_mul_right _ hhigh
  · rw [hleft, hsum, hright, ← mul_assoc, Nat.mul_left_inj hpos.ne', Nat.mul_left_inj hpos.ne']
    exact heven

/-! ## The nearest double -/

/-- The sign of an integer. -/
def signOf (z : Int) : Sign :=
  if z < 0 then .negative else .positive

theorem signOf_apply_natAbs (z : Int) : (signOf z).apply z.natAbs = z := by
  unfold signOf
  split_ifs with h
  · show -(z.natAbs : Int) = z
    omega
  · show (z.natAbs : Int) = z
    omega

theorem normalize_of_ne_zero {z : Int} (hz : z ≠ 0) (e : Int) (s : Sign) :
    UnpackedFloat.normalize .binary64 z e s =
      UnpackedFloat.round .binary64 (signOf z) z.natAbs e := by
  unfold UnpackedFloat.normalize signOf
  rcases Int.lt_or_gt_of_ne hz with h | h
  · rw [Int.compare_eq_lt.2 h, if_pos h]
    dsimp only
    rw [show (-z).toNat = z.natAbs by omega]
  · rw [Int.compare_eq_gt.2 h, if_neg (by omega)]
    dsimp only
    rw [show z.toNat = z.natAbs by omega]

/-- The shift that brings a mantissa to its exponent. -/
theorem shiftToTargetExponent_of_target {m k : Nat} {e : Int}
    (h : Format.binary64.targetExponent (totalExponent m e) = e + k) :
    shiftToTargetExponent .binary64 m e .exact =
      (ExtendedMantissa.ofMantissaAndAccuracy m .exact >>> k, e + k) := by
  unfold shiftToTargetExponent shiftToExponent
  rw [h]
  dsimp only
  rw [show (e + k - e).toNat = k by omega]

/-- A mantissa of at least 53 bits is rounded to the nearest one of 53 bits, where a carry into one
more bit is shifted out again. -/
theorem round_of_isNearest (s : Sign) {m k q : Nat} {e : Int} (hm : m.log2 = 52 + k)
    (he : -1074 ≤ e + k) (h : IsNearest m k q) :
    2 ^ 52 ≤ q ∧ q ≤ 2 ^ 53 ∧ ∃ q' t hq, UnpackedFloat.round .binary64 s m e = .finite s q' t hq ∧
      (q' = q ∧ q < 2 ^ 53 ∧ t = e + k ∨ q' = 2 ^ 52 ∧ q = 2 ^ 53 ∧ t = e + k + 1) := by
  have hpos := Nat.two_pow_pos k
  have hlow : 2 ^ 52 ≤ q := by
    have hne : m ≠ 0 := by
      rintro rfl
      rw [Nat.log2_zero] at hm
      omega
    have hself := Nat.log2_self_le hne
    rw [hm, Nat.pow_add] at hself
    have hhigh := h.high
    by_contra hlt
    have := Nat.mul_le_mul_right (2 ^ k) (show 2 * q + 2 ≤ 2 * 2 ^ 52 by omega)
    grind
  have hhigh : q ≤ 2 ^ 53 := by
    have hself := Nat.lt_log2_self (n := m)
    rw [hm, show 52 + k + 1 = 53 + k by omega, Nat.pow_add] at hself
    have hlow := h.low
    by_contra hlt
    have := Nat.mul_le_mul_right (2 ^ k) (show 2 * 2 ^ 53 + 2 ≤ 2 * q by omega)
    grind
  have htarget : Format.binary64.targetExponent (totalExponent m e) = e + k := by
    rw [targetExponent_binary64, totalExponent, hm]
    omega
  have hround : UnpackedFloat.round .binary64 s m e = roundWithAccuracy .binary64 s m e .exact := by
    rw [UnpackedFloat.round, htarget, decreaseExponent, show (e - (e + k)).toNat = 0 by omega]
    dsimp only
    rw [Nat.shiftLeft_zero, Nat.cast_zero, Int.sub_zero]
  refine ⟨hlow, hhigh, ?_⟩
  rw [hround, roundWithAccuracy, shiftToTargetExponent_of_target htarget]
  dsimp only
  rw [roundedMantissa_of_isNearest h]
  rcases Nat.lt_or_eq_of_le hhigh with hlt | rfl
  · have hlog : q.log2 = 52 := (Nat.log2_eq_iff (by omega)).2 ⟨hlow, hlt⟩
    have hsame : Format.binary64.targetExponent (totalExponent q (e + k)) = e + k + (0 : Nat) := by
      rw [targetExponent_binary64, totalExponent, hlog]
      omega
    rw [shiftToTargetExponent_of_target hsame]
    exact ⟨q, _, by omega, dif_neg (show ¬ q = 0 by omega), .inl ⟨rfl, hlt, Int.add_zero _⟩⟩
  · have hnext : Format.binary64.targetExponent (totalExponent (2 ^ 53) (e + k)) =
        e + k + (1 : Nat) := by
      rw [targetExponent_binary64, totalExponent, Nat.log2_two_pow]
      omega
    rw [shiftToTargetExponent_of_target hnext]
    have hhalf : (ExtendedMantissa.ofMantissaAndAccuracy (2 ^ 53) .exact >>> 1).mantissa = 2 ^ 52 :=
      (mantissa_shiftRight _ 1).trans (by decide)
    exact ⟨_, _, _, dif_neg (hhalf ▸ by decide), .inr ⟨hhalf, rfl, rfl⟩⟩

theorem dyadicFloor_two_mul (z e : Int) : dyadicFloor (2 * z) e = dyadicFloor z (e + 1) := by
  unfold dyadicFloor
  split_ifs with h h' h'
  · rw [Int.shiftLeft_eq, Int.shiftLeft_eq, show (e + 1).toNat = e.toNat + 1 by omega, pow_succ]
    ring
  · omega
  · rw [show e = -1 by omega, Int.shiftLeft_eq, Int.shiftRight_eq_div_pow]
    show 2 * z / 2 = z * 1
    omega
  · rw [Int.shiftRight_eq_div_pow, Int.shiftRight_eq_div_pow,
      show (-e).toNat = (-(e + 1)).toNat + 1 by omega, pow_succ, Nat.mul_comm]
    push_cast
    exact Int.mul_ediv_mul_of_pos z _ (by decide)

/-- The integer below a rounded number, told by the nearest mantissa. -/
theorem floor_round (s : Sign) {m k q : Nat} {e : Int} (hm : m.log2 = 52 + k)
    (he : -1074 ≤ e + k) (h : IsNearest m k q)
    (hle : ExponentLe 971 (UnpackedFloat.round .binary64 s m e)) :
    floor (.ofModel (.pack (UnpackedFloat.round .binary64 s m e))) =
      .ok (dyadicFloor (s.apply q) (e + k)) := by
  obtain ⟨hlow, -, q', t, hq, hround, hcase⟩ := round_of_isNearest s hm he h
  rw [hround] at hle ⊢
  have hcanonical : Canonical q' t := by
    rcases hcase with ⟨rfl, hlt, rfl⟩ | ⟨rfl, -, rfl⟩
    · exact ⟨hlt, he, hle, .inl hlow⟩
    · exact ⟨by decide, by omega, hle, .inl (Nat.le_refl _)⟩
  have hfloor : dyadicFloor (s.apply q') t = dyadicFloor (s.apply q) (e + k) := by
    rcases hcase with ⟨rfl, -, rfl⟩ | ⟨rfl, rfl, rfl⟩
    · rfl
    · rw [← dyadicFloor_two_mul]
      cases s <;> rfl
  unfold floor
  rw [unpack_pack hcanonical hq]
  exact congrArg Except.ok hfloor

/-! ## Doubles that are integers -/

/-- The double `x` is the integer `n`. -/
def IsInteger (x : Float) (n : Int) : Prop :=
  match x.toModel.unpack with
  | .zero _ => n = 0
  | .finite s m e _ => s.apply m * 2 ^ e.toNat = n * 2 ^ (-e).toNat
  | _ => False

instance (x : Float) (n : Int) : Decidable (IsInteger x n) :=
  match hx : x.toModel.unpack with
  | .zero _ => decidable_of_iff (n = 0) (by rw [IsInteger, hx])
  | .finite s m e _ =>
    decidable_of_iff (s.apply m * 2 ^ e.toNat = n * 2 ^ (-e).toNat) (by rw [IsInteger, hx])
  | .infinity _ => decidable_of_iff False (by rw [IsInteger, hx])
  | .notANumber => decidable_of_iff False (by rw [IsInteger, hx])

variable {x : Float} {n : Int}

/-- An integer other than zero has the mantissa and the exponent of its double. -/
theorem exists_mantissa (h : IsInteger x n) (hn : n ≠ 0) : ∃ (m : Nat) (e : Int),
    m < 2 ^ 53 ∧ e ≤ 971 ∧ m * 2 ^ e.toNat = n.natAbs * 2 ^ (-e).toNat := by
  unfold IsInteger at h
  cases hx : x.toModel.unpack with
  | finite s m e hm =>
    rw [hx] at h
    obtain ⟨hlt, he, -⟩ := bounds_of_unpack hx
    have habs := congrArg Int.natAbs h
    rw [Int.natAbs_mul, Int.natAbs_mul, natAbs_apply, Int.natAbs_pow, Int.natAbs_pow] at habs
    exact ⟨m, e, hlt, he, habs⟩
  | zero s =>
    rw [hx] at h
    exact absurd h hn
  | _ =>
    rw [hx] at h
    exact h.elim

theorem apply_mul (s : Sign) (a b : Int) : s.apply (a * b) = s.apply a * b := by
  cases s with
  | negative => exact (neg_mul a b).symm
  | positive => rfl

/-- The sum of an integer and one half, before it is rounded. -/
theorem add_half {s : Sign} {m : Nat} {e : Int} {hm : 0 < m}
    (hx : x.toModel.unpack = .finite s m e hm) (h : IsInteger x n) :
    ∃ j : Nat, 52 ≤ j ∧ x + 0.5 = .ofModel (.pack
      (UnpackedFloat.normalize .binary64 ((2 * n + 1) * 2 ^ j) (-1 - j) .positive)) := by
  obtain ⟨hpos, hhalf⟩ : ∃ h, (0.5 : Float).toModel.unpack = .finite .positive (2 ^ 52) (-53) h :=
    ⟨by decide, rfl⟩
  have hadd : x + 0.5 = Float.ofModel (.pack
      (UnpackedFloat.add .binary64 x.toModel.unpack (0.5 : Float).toModel.unpack)) := rfl
  unfold IsInteger at h
  rw [hx] at h
  dsimp only at h
  obtain ⟨j, hj⟩ : ∃ j, j = (-1 - min e (-53)).toNat := ⟨_, rfl⟩
  refine ⟨j, by omega, ?_⟩
  rw [hadd, hx, hhalf]
  unfold UnpackedFloat.add decreaseExponent
  dsimp only
  have hfirst : s.apply ((m <<< (e - min e (-53)).toNat : Nat) : Int) = 2 * n * 2 ^ j := by
    refine mul_right_cancel₀ (b := (2 : Int) ^ (-e).toNat) (pow_ne_zero _ (by decide)) ?_
    calc s.apply ((m <<< (e - min e (-53)).toNat : Nat) : Int) * 2 ^ (-e).toNat
        = s.apply m * 2 ^ ((e - min e (-53)).toNat + (-e).toNat) := by
          rw [Nat.shiftLeft_eq, Nat.cast_mul, apply_mul, pow_add]
          push_cast
          ring
      _ = s.apply m * 2 ^ e.toNat * 2 ^ (j + 1) := by
          rw [mul_assoc, ← pow_add,
            show (e - min e (-53)).toNat + (-e).toNat = e.toNat + (j + 1) by omega]
      _ = 2 * n * 2 ^ j * 2 ^ (-e).toNat := by
          rw [h, pow_succ]
          ring
  have hsecond :
      Sign.positive.apply ((2 ^ 52 <<< (-53 - min e (-53)).toNat : Nat) : Int) = 2 ^ j := by
    show ((2 ^ 52 <<< (-53 - min e (-53)).toNat : Nat) : Int) = 2 ^ j
    rw [Nat.shiftLeft_eq, ← Nat.pow_add, show 52 + (-53 - min e (-53)).toNat = j by omega]
    push_cast
    rfl
  rw [hfirst, hsecond, add_mul, one_mul, show min e (-53) = -1 - (j : Int) by omega]

theorem roundHalfUp_zero (s : Sign) (h : x.toModel.unpack = .zero s) : roundHalfUp x = .ok 0 := by
  have hadd : x + 0.5 = Float.ofModel (.pack
      (UnpackedFloat.add .binary64 x.toModel.unpack (0.5 : Float).toModel.unpack)) := rfl
  rw [roundHalfUp, hadd, h]
  cases s <;> rfl

/-! ## One half more -/

/-- Rounding keeps an integer that is even or not larger than `2 ^ 52`. -/
def Kept (n : Int) : Prop :=
  n.natAbs ≤ 2 ^ 52 ∨ n % 2 = 0

instance (n : Int) : Decidable (Kept n) :=
  inferInstanceAs (Decidable (_ ∨ _))

/-- The integer that `n` is rounded to. -/
def rounded (n : Int) : Int :=
  if Kept n then n else n + 1

/-- The mantissa of `n` and one half is rounded to `q`, and the integer below is the one that `n` is
rounded to. The mantissa has `j` zeros at its end. -/
structure RoundsTo (n : Int) (q : Nat) : Prop where
  nearest : ∀ j, 52 ≤ j →
    IsNearest ((2 * n + 1).natAbs * 2 ^ j) ((2 * n + 1).natAbs.log2 + j - 52) q
  floor_eq : dyadicFloor ((signOf (2 * n + 1)).apply q) ((2 * n + 1).natAbs.log2 - 53) = rounded n

/-- Up to `2 ^ 52` there is a double halfway between two integers. -/
theorem exists_roundsTo_small (h : (2 * n + 1).natAbs.log2 ≤ 52) : ∃ q, RoundsTo n q := by
  have hlt : (2 * n + 1).natAbs < 2 ^ 53 := (Nat.log2_lt (by omega)).1 (by omega)
  have hrounded : rounded n = n := if_pos (.inl (by omega))
  have hself := signOf_apply_natAbs (2 * n + 1)
  obtain ⟨d, hd⟩ : ∃ d, d = 52 - (2 * n + 1).natAbs.log2 := ⟨_, rfl⟩
  refine ⟨(2 * n + 1).natAbs * 2 ^ d, fun j hj => isNearest_of_eq ?_, ?_⟩
  · rw [mul_assoc, ← pow_add, show d + ((2 * n + 1).natAbs.log2 + j - 52) = j by omega]
  · have hshift : (-(((2 * n + 1).natAbs.log2 : Int) - 53)).toNat = d + 1 := by omega
    rw [hrounded, dyadicFloor, if_neg (by omega), hshift, Nat.cast_mul, apply_mul, hself,
      Int.shiftRight_eq_div_pow, pow_succ, Nat.mul_comm]
    push_cast
    rw [Int.mul_ediv_mul_of_pos_left _ _ (Int.pow_pos (by decide))]
    omega

/-- From `2 ^ 52` to `2 ^ 53`, the sum lies halfway between two integers, one of which is even. -/
theorem exists_roundsTo_medium (h : (2 * n + 1).natAbs.log2 = 53) : ∃ q, RoundsTo n q := by
  obtain ⟨hlow, hhigh⟩ := (Nat.log2_eq_iff (by omega)).1 h
  refine ⟨(rounded n).natAbs, fun j hj => ?_, ?_⟩
  · have hnearest : IsNearest (2 * n + 1).natAbs 1 (rounded n).natAbs := by
      unfold rounded Kept
      constructor <;> split_ifs <;> omega
    rw [h, show 53 + j - 52 = 1 + j by omega]
    exact hnearest.mul_two_pow j
  · have hneg : 2 * n + 1 < 0 ↔ rounded n < 0 := by
      unfold rounded
      split_ifs <;> omega
    have hsign : signOf (2 * n + 1) = signOf (rounded n) := by
      simp only [signOf, hneg]
    rw [h, hsign, signOf_apply_natAbs]
    exact Int.shiftLeft_zero _

/-- Beyond `2 ^ 53` the last bits of an integer that has a double are zeros, and one half does not
change the others. -/
theorem exists_roundsTo_large (hx : IsInteger x n) (h : 54 ≤ (2 * n + 1).natAbs.log2) :
    ∃ q, RoundsTo n q := by
  obtain ⟨l, hl⟩ : ∃ l, (2 * n + 1).natAbs.log2 = l + 54 := Nat.exists_eq_add_of_le' h
  have hne : n ≠ 0 := by
    rintro rfl
    exact absurd h (by decide)
  obtain ⟨m, e, hm, -, hmantissa⟩ := exists_mantissa hx hne
  have hlow : 2 ^ (l + 53) ≤ n.natAbs := by
    have hself := Nat.log2_self_le (n := (2 * n + 1).natAbs) (by omega)
    rw [hl, pow_succ] at hself
    omega
  have hexp : (l + 1 : Int) ≤ e := by
    have hbits : 2 ^ (l + 53 + (-e).toNat) < 2 ^ (53 + e.toNat) := by
      rw [pow_add _ _ (-e).toNat, pow_add 2 53]
      calc 2 ^ (l + 53) * 2 ^ (-e).toNat
          ≤ n.natAbs * 2 ^ (-e).toNat := Nat.mul_le_mul_right _ hlow
        _ = m * 2 ^ e.toNat := hmantissa.symm
        _ < 2 ^ 53 * 2 ^ e.toNat := Nat.mul_lt_mul_of_pos_right hm (Nat.two_pow_pos _)
    have := (Nat.pow_lt_pow_iff_right (by decide)).1 hbits
    omega
  obtain ⟨c, hc⟩ : ∃ c, e.toNat = c + (l + 1) := Nat.exists_eq_add_of_le' (by omega)
  obtain ⟨q, hq⟩ : ∃ q, q = m * 2 ^ c := ⟨_, rfl⟩
  have hfactor : n.natAbs = q * 2 ^ l * 2 := by
    rw [show (-e).toNat = 0 by omega, pow_zero, mul_one, hc, pow_add, ← mul_assoc, ← hq, pow_succ,
      ← mul_assoc] at hmantissa
    exact hmantissa.symm
  have hpos := Nat.two_pow_pos l
  refine ⟨q, fun j hj => ?_, ?_⟩
  · have hnearest : IsNearest (2 * n + 1).natAbs (l + 2) q := by
      have hpow : 2 ^ (l + 2) = 4 * 2 ^ l := by
        rw [pow_add, mul_comm]
        rfl
      constructor <;> rw [hpow] <;> grind
    rw [hl, show l + 54 + j - 52 = l + 2 + j by omega]
    exact hnearest.mul_two_pow j
  · have hrounded : rounded n = n := by
      refine if_pos (.inr ?_)
      generalize q * 2 ^ l = z at hfactor
      omega
    have hneg : 2 * n + 1 < 0 ↔ n < 0 := by omega
    have hsign : (signOf (2 * n + 1)).apply n.natAbs = n := by
      simp only [signOf, hneg]
      exact signOf_apply_natAbs n
    rw [hrounded, hl, dyadicFloor, if_pos (by omega), Int.shiftLeft_eq, ← apply_mul,
      show (((l + 54 : Nat) : Int) - 53).toNat = l + 1 by omega]
    refine Eq.trans (congrArg _ ?_) hsign
    rw [hfactor, pow_succ]
    push_cast
    ring

/-- The sum of an integer and one half is not too large for a double. -/
theorem exponentLe_half (h : IsInteger x n) (s : Sign) (j : Nat) :
    ExponentLe 971 (UnpackedFloat.round .binary64 s ((2 * n + 1).natAbs * 2 ^ j) (-1 - j)) := by
  -- the largest exponent gets a name, so that the power is not evaluated
  obtain ⟨top, htop⟩ : ∃ top : Nat, top = 971 := ⟨_, rfl⟩
  have hbound : n.natAbs ≤ (2 ^ 53 - 1) * 2 ^ top := by
    by_cases hn : n = 0
    · rw [hn]
      exact Nat.zero_le _
    · obtain ⟨m, e, hm, he, hmantissa⟩ := exists_mantissa h hn
      calc n.natAbs ≤ n.natAbs * 2 ^ (-e).toNat := Nat.le_mul_of_pos_right _ (Nat.two_pow_pos _)
        _ = m * 2 ^ e.toNat := hmantissa.symm
        _ ≤ (2 ^ 53 - 1) * 2 ^ top :=
          Nat.mul_le_mul (by omega) (Nat.pow_le_pow_right (by decide) (by omega))
  have hpos := Nat.two_pow_pos j
  have hlarge : 2 ^ 2 ≤ 2 ^ top := Nat.pow_le_pow_right (by decide) (by omega)
  refine exponentLe_round s (Nat.mul_ne_zero (by omega) hpos.ne') (by omega) ?_
  rw [show (971 - (-1 - (j : Int))).toNat = top + 1 + j by omega, pow_add, pow_succ, ← mul_assoc,
    ← mul_assoc]
  refine Nat.mul_lt_mul_of_pos_right ?_ hpos
  omega

/-- **An integer is rounded to itself**, unless it is odd and so large that there is no double
between it and the next one; then it is rounded to the next one. -/
theorem roundHalfUp_of_isInteger (h : IsInteger x n) : roundHalfUp x = .ok (rounded n) := by
  obtain ⟨q, hnearest, hfloor⟩ : ∃ q, RoundsTo n q := by
    rcases Nat.lt_trichotomy (2 * n + 1).natAbs.log2 53 with hlt | heq | hgt
    · exact exists_roundsTo_small (Nat.le_of_lt_succ hlt)
    · exact exists_roundsTo_medium heq
    · exact exists_roundsTo_large h hgt
  cases hx : x.toModel.unpack with
  | finite s m e hm =>
    obtain ⟨j, hj, hsum⟩ := add_half hx h
    have hpow : (0 : Int) < 2 ^ j := Int.pow_pos (by decide)
    have hne : (2 * n + 1) * 2 ^ j ≠ 0 := mul_ne_zero (by omega) hpow.ne'
    have hsign : signOf ((2 * n + 1) * 2 ^ j) = signOf (2 * n + 1) := by
      unfold signOf
      simp only [mul_neg_iff, hpow, not_lt_of_gt, and_true, and_false, false_or]
    have habs : ((2 * n + 1) * 2 ^ j).natAbs = (2 * n + 1).natAbs * 2 ^ j := by
      rw [Int.natAbs_mul, Int.natAbs_pow]
      rfl
    have hlog : ((2 * n + 1).natAbs * 2 ^ j).log2 = 52 + ((2 * n + 1).natAbs.log2 + j - 52) := by
      rw [← Nat.shiftLeft_eq, log2_shiftLeft (by omega)]
      omega
    rw [roundHalfUp, hsum, normalize_of_ne_zero hne, hsign, habs,
      floor_round _ hlog (by omega) (hnearest j hj) (exponentLe_half h _ j), ← hfloor]
    rw [show (-1 - (j : Int)) + ((2 * n + 1).natAbs.log2 + j - 52 : Nat) =
      ((2 * n + 1).natAbs.log2 : Int) - 53 by omega]
  | zero s =>
    have hn : n = 0 := by
      unfold IsInteger at h
      rwa [hx] at h
    rw [hn]
    exact roundHalfUp_zero s hx
  | _ =>
    unfold IsInteger at h
    rw [hx] at h
    exact h.elim

end PixelTurtle.Number
