import PixelTurtle.Proofs.Position

/-!
# Which way the turtle faces

A heading has a direction unless its angle in radians is infinite, and a finite one is not, because
a degree is less than one. A turn never leads to an infinite heading, whatever the heading was
before. So a turtle that starts with a cell and a direction always has both, and nothing it does is
aborted for the lack of them.

* `isInf_wrapHue` and `isInf_mul_degree` are the two facts about doubles.
* `Abort.Justified` says what an abort tells about the turtle, `justified_of_aborted` that this is
  so.
* `Reaches.isInf_heading_eq_false` says that a direction is kept, and `Reaches.settled` that it is
  together with a cell.
-/

namespace PixelTurtle

/-! ## Finite results -/

namespace Number

open Float.Model Float.Model.UnpackedFloat

theorem isInf_of_isFinite {x : Float} (h : x.isFinite = true) : x.isInf = false := by
  change x.toModel.unpack.isFinite = true at h
  show x.toModel.unpack.isInf = false
  cases hx : x.toModel.unpack with
  | infinity s =>
    rw [hx] at h
    cases h
  | _ => rfl

theorem isInf_pack_notANumber : (Float.ofModel (.pack .notANumber)).isInf = false := by
  decide

/-- A dyadic number that is less than half a unit above the largest double is a finite double. -/
theorem isInf_ofDyadic (s : Sign) {m : Nat} {e : Int} (he : e ≤ 971)
    (h : 2 * m < (2 * (2 ^ 53 - 1) + 1) * 2 ^ (971 - e).toNat) : (ofDyadic s m e).isInf = false := by
  refine isInf_of_isFinite (isFinite_pack ?_)
  split_ifs with hm
  · trivial
  · exact exponentLe_round s hm he h

section

variable {x y : Float} {s : Sign} {n : Nat} {f : Int} {hn : 0 < n}

theorem isInf_add_of_small (hx : x.isInf = false) (hy : y.toModel.unpack = .finite s n f hn)
    (hf : f ≤ 917) : (x + y).isInf = false := by
  change x.toModel.unpack.isInf = false at hx
  have hfinite (h : x.isFinite = true) : (x + y).isInf = false :=
    isInf_of_isFinite (isFinite_add_of_small h hy hf)
  cases h : x.toModel.unpack with
  | notANumber =>
    have hadd : x + y = Float.ofModel (.pack
        (UnpackedFloat.add .binary64 x.toModel.unpack y.toModel.unpack)) := rfl
    rw [hadd, h]
    exact isInf_pack_notANumber
  | infinity s' =>
    rw [h] at hx
    cases hx
  | zero s' => exact hfinite (congrArg UnpackedFloat.isFinite h)
  | finite s' m e hm => exact hfinite (congrArg UnpackedFloat.isFinite h)

/-- A remainder is less than the divisor. -/
theorem isInf_remainder (x : Float) (hy : y.toModel.unpack = .finite s n f hn) :
    (remainder x y).isInf = false := by
  unfold remainder
  rw [hy]
  cases hx : x.toModel.unpack with
  | notANumber => exact isInf_pack_notANumber
  | infinity s' => exact isInf_pack_notANumber
  | zero s' => exact isInf_of_isFinite (congrArg UnpackedFloat.isFinite hx)
  | finite s' m e hm =>
    obtain ⟨hnlt, hf, -⟩ := bounds_of_unpack hy
    refine isInf_ofDyadic s' (by omega) ?_
    have hmod : (m <<< (e - min e f).toNat) % (n <<< (f - min e f).toNat) <
        n * 2 ^ (f - min e f).toNat := by
      rw [← Nat.shiftLeft_eq]
      refine Nat.mod_lt _ ?_
      rw [Nat.shiftLeft_eq]
      exact Nat.mul_pos hn (Nat.two_pow_pos _)
    have hpow : n * 2 ^ (f - min e f).toNat ≤ (2 ^ 53 - 1) * 2 ^ (971 - min e f).toNat :=
      Nat.mul_le_mul (by omega) (Nat.pow_le_pow_right (by decide) (by omega))
    omega

/-- A factor that is less than one makes no number infinite. -/
theorem isInf_mul_of_small (hx : x.isInf = false) (hy : y.toModel.unpack = .finite s n f hn)
    (hlarge : 2 ^ 52 ≤ n) (hf : f ≤ -54) : (x * y).isInf = false := by
  have hmul : x * y = Float.ofModel (.pack
      (UnpackedFloat.mul .binary64 x.toModel.unpack y.toModel.unpack)) := rfl
  change x.toModel.unpack.isInf = false at hx
  rw [hmul, hy]
  cases h : x.toModel.unpack with
  | notANumber => exact isInf_pack_notANumber
  | infinity s' =>
    rw [h] at hx
    cases hx
  | zero s' => exact isInf_of_isFinite (isFinite_pack (x := .zero _) trivial)
  | finite s' m e hm =>
    obtain ⟨hmlt, he, -⟩ := bounds_of_unpack h
    obtain ⟨hnlt, -⟩ := bounds_of_unpack hy
    refine isInf_of_isFinite (isFinite_pack ?_)
    have hlow : 52 ≤ (m * n).log2 :=
      (Nat.le_log2 (Nat.mul_pos hm hn).ne').2 (Nat.le_trans hlarge (Nat.le_mul_of_pos_left n hm))
    have hhigh : (m * n).log2 ≤ 105 := by
      refine log2_le_of_lt (Nat.lt_of_lt_of_le (Nat.mul_lt_mul'' hmlt hnlt) ?_)
      rw [← Nat.pow_add]
    obtain ⟨t, ht⟩ : ∃ t, Format.binary64.targetExponent (totalExponent (m * n) (e + f)) = t :=
      ⟨_, rfl⟩
    have htotal := ht
    rw [targetExponent_binary64, totalExponent] at htotal
    exact (exponentLe_of_target ht (by omega)).mono (by omega)

end

/-- A full turn, taken apart. -/
theorem unpack_fullTurn :
    ∃ h, (360 : Float).toModel.unpack = .finite .positive 6333186975989760 (-44) h :=
  ⟨by decide, rfl⟩

/-- A degree, taken apart. -/
theorem unpack_degree :
    ∃ h, degree.toModel.unpack = .finite .positive 5030569068109113 (-58) h :=
  ⟨by decide, rfl⟩

/-- An angle that is not infinite in degrees is not so in radians. -/
theorem isInf_mul_degree {x : Float} (h : x.isInf = false) : (x * degree).isInf = false := by
  obtain ⟨hpos, hdegree⟩ := unpack_degree
  exact isInf_mul_of_small h hdegree (by decide) (by decide)

theorem isInf_modulo_fullTurn (x : Float) : (modulo x 360).isInf = false := by
  obtain ⟨hpos, hturn⟩ := unpack_fullTurn
  have hremainder := isInf_remainder x hturn
  unfold modulo
  dsimp only
  split_ifs
  · decide
  · decide
  · exact isInf_add_of_small hremainder hturn (by decide)
  · exact hremainder

end Number

/-- **No turn leads to an infinite heading.** -/
theorem isInf_wrapHue (h : Float) : (wrapHue h).isInf = false :=
  Number.isInf_modulo_fullTurn _

/-! ## Aborts and the turtle -/

/-- What an abort tells about the turtle: it is only for the lack of a direction or of a cell if the
turtle has none, and for the lack of a cell only if there is a renderer to be told. -/
def Abort.Justified (o : Options) (s : RunState) : Abort → Prop
  | .noDirection => s.heading.isInf = true
  | .noCell _ => ¬ s.Placed ∧ o.renderer.isSome = true
  | _ => True

section Aborts

variable {o : Options} {s s' : RunState} {i : Instr} {a : Abort} {m m' : Machine}

theorem Unread.justified {env : Env} {q : Quantity} {line : Option Int} {e : Option Expr}
    (h : Unread env q line e a) : a.Justified o s := by
  cases h with
  | _ => trivial

theorem Instr.Stops.justified (h : i.Stops o s a s') : a.Justified o s := by
  cases h with
  | unread _ hunread => exact hunread.justified
  | noDirection hinf =>
    by_contra hfinite
    cases hinf.symm.trans (Number.isInf_mul_degree (Bool.eq_false_iff.2 hfinite))
  | brokenLine _ _ _ hbroken =>
    cases hbroken with
    | _ => trivial
  | untoldPen hcell hrenderer _ =>
    refine ⟨?_, hrenderer⟩
    rintro ⟨cell, hcell'⟩
    cases hcell.symm.trans hcell'
  | _ => trivial

theorem Instr.Aborts.justified (h : i.Aborts o s a s') : a.Justified o s := by
  cases h with
  | stopped _ hstops =>
    have hjustified := hstops.justified
    cases a with
    | _ => exact hjustified
  | _ => trivial

theorem Machine.Aborts.justified (h : m.Aborts o a s') : a.Justified o m.state := by
  cases h with
  | instr _ haborts => exact haborts.justified
  | unread _ hunread => exact hunread.justified
  | _ => trivial

/-- **An abort tells how the turtle is.** -/
theorem justified_of_aborted (h : m.step o = (m', .aborted a)) : a.Justified o m.state :=
  (aborts_step h).1.justified

end Aborts

/-! ## A turtle that keeps its way -/

/-- The turtle has a cell and a direction. -/
structure RunState.Settled (s : RunState) : Prop where
  placed : s.Placed
  heading : s.heading.isInf = false

theorem settled_of_finite {s : RunState} (hx : s.x.isFinite = true) (hy : s.y.isFinite = true)
    (hheading : s.heading.isInf = false) : s.Settled :=
  ⟨placed_iff.2 ⟨hx, hy⟩, hheading⟩

section Runs

variable {o : Options} {s s' : RunState} {m m₀ : Machine} {past : List Machine}

theorem isInf_heading_change (h : Change o s s') (hs : s.heading.isInf = false) :
    s'.heading.isInf = false := by
  cases h with
  | turn delta _ => exact isInf_wrapHue _
  | _ => exact hs

theorem isInf_heading_cut (h : Cut o s s') (hs : s.heading.isInf = false) :
    s'.heading.isInf = false := by
  cases h with
  | turn delta _ => exact isInf_wrapHue _
  | _ => exact hs

/-- A turtle that starts with a direction always has one. -/
theorem Reaches.isInf_heading_eq_false (h : Reaches o m₀ past m)
    (h₀ : m₀.state.heading.isInf = false) : m.state.heading.isInf = false :=
  h.invariant_of_cut (I := fun s => s.heading.isInf = false)
    (fun _ _ hchange => isInf_heading_change hchange) (fun _ _ hcut => isInf_heading_cut hcut) h₀

/-- **A turtle that is settled at the start is settled wherever a host arrives.** -/
theorem Reaches.settled (h : Reaches o m₀ past m) (h₀ : m₀.state.Settled) : m.state.Settled :=
  ⟨h.placed h₀.placed, h.isInf_heading_eq_false h₀.heading⟩

/-- A turtle starts with a cell and a direction. -/
def Options.Settled (o : Options) : Prop :=
  (RunState.start o).Settled

theorem settled_start (ho : o.Settled) (program : List Instr) :
    ∃ m₀, Machine.start o program = .ok m₀ ∧ m₀.state.Settled := by
  obtain ⟨cell, hcell⟩ := ho.placed
  have hstart := start_of_cell hcell program
  obtain ⟨calls, hstate⟩ := exists_calls_of_start hstart
  refine ⟨_, hstart, ?_⟩
  rw [hstate]
  exact ⟨ho.placed, ho.heading⟩

end Runs

end PixelTurtle
