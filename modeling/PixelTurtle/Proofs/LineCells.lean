import Mathlib.Algebra.Order.Ring.Int
import Mathlib.Data.List.Nodup
import Mathlib.Data.List.Range
import Mathlib.Tactic.Linarith
import Mathlib.Tactic.Ring
import PixelTurtle.Canvas.Walk

/-!
# The cells of a line

The walk between two cells takes one step for each unit of the longer extent, and never leaves the
cells that are nearest to the ideal line.

A walk that went `u` columns and `v` rows on is off the line by `v * dx + u * dy`, where `dy` counts
downwards, and its error term is this number at the cell diagonally ahead. The invariant is that
twice this number never exceeds the longer extent. Hence each step goes on along the longer extent,
and at the end of it the walk is at the end of the shorter one, too.

* `Walk.moved` is a walk that went some columns and rows on, `Walk.Near` the invariant.
* `near_step` is what one step comes to, and `exists_near` what `n` steps do.
* `height_of_near` and `Near.extents` say that the walk does not leave its extents, and ends at the
  end of both.
* `Traces` is what a list of cells has to do with a line, and `cellsBetween_traces` the theorem about
  the walk.
-/

namespace PixelTurtle

namespace Walk

/-! ## Steps -/

/-- The walk after `u` steps along the columns and `v` steps along the rows. -/
def moved (w : Walk) (u v : Int) : Walk :=
  { w with
    cell := ⟨w.cell.x + u * w.stepX, w.cell.y + v * w.stepY⟩
    err := w.err + (v * w.dx + u * w.dy) }

/-- One step if the test holds, and none otherwise. -/
def stride (p : Prop) [Decidable p] : Int :=
  if p then 1 else 0

theorem stride_mul (p : Prop) [Decidable p] (n : Int) : stride p * n = if p then n else 0 := by
  unfold stride
  split_ifs
  · exact one_mul n
  · exact zero_mul n

theorem next_eq_moved (w : Walk) :
    w.next = w.moved (stride (w.dy ≤ 2 * w.err)) (stride (2 * w.err ≤ w.dx)) := by
  have hadd (p : Prop) [Decidable p] (a n : Int) :
      (if p then a + n else a) = a + if p then n else 0 := by
    split_ifs
    · rfl
    · exact (add_zero a).symm
  simp only [next, moved, stride_mul, hadd, add_assoc, add_comm]

theorem moved_zero (w : Walk) : w.moved 0 0 = w := by
  simp only [moved, zero_mul, add_zero]

theorem moved_moved (w : Walk) (u v u' v' : Int) :
    (w.moved u v).moved u' v' = w.moved (u + u') (v + v') := by
  simp only [moved, add_mul, Walk.mk.injEq, Cell.mk.injEq, true_and]
  refine ⟨⟨?_, ?_⟩, ?_⟩ <;> ring

/-! ## Nearness -/

/-- A walk at its first cell. -/
structure Fresh (w : Walk) : Prop where
  dx_nonneg : 0 ≤ w.dx
  dy_nonpos : w.dy ≤ 0
  err_eq : w.err = w.dx + w.dy

/-- The longer of the two extents of a walk. -/
def length (w : Walk) : Int :=
  max w.dx (-w.dy)

/-- How far the walk is off the line after `u` columns and `v` rows. -/
def off (w : Walk) (u v : Int) : Int :=
  v * w.dx + u * w.dy

/-- `w.Near n u v`: after `n` steps, all of which went on along the longer extent, the walk `w` is
`u` columns and `v` rows from its first cell, and no cell is nearer to the line. -/
structure Near (w : Walk) (n u v : Int) : Prop where
  nonneg : 0 ≤ u ∧ 0 ≤ v
  le : u ≤ n ∧ v ≤ n
  along : (-w.dy ≤ w.dx → u = n) ∧ (w.dx ≤ -w.dy → v = n)
  near : |2 * w.off u v| ≤ w.length

variable {w : Walk} {n u v : Int}

theorem off_add (w : Walk) (u v a b : Int) :
    w.off (u + a) (v + b) = w.off u v + (b * w.dx + a * w.dy) := by
  unfold off
  ring

/-- The tests of a step, in terms of how far the walk is off the line. -/
theorem next_moved (hw : w.Fresh) (u v : Int) :
    (w.moved u v).next = w.moved (u + stride (w.dy ≤ 2 * (w.dx + w.dy + w.off u v)))
      (v + stride (2 * (w.dx + w.dy + w.off u v) ≤ w.dx)) := by
  have herr : (w.moved u v).err = w.dx + w.dy + w.off u v := by
    rw [moved, hw.err_eq, off]
  rw [next_eq_moved, moved_moved, herr]
  rfl

theorem near_zero (hw : w.Fresh) : w.Near 0 0 0 := by
  refine ⟨⟨le_refl 0, le_refl 0⟩, ⟨le_refl 0, le_refl 0⟩, ⟨fun _ => rfl, fun _ => rfl⟩, ?_⟩
  simp only [off, zero_mul, add_zero, mul_zero, abs_zero]
  exact le_max_of_le_left hw.dx_nonneg

/-- The next cell is one column or one row on, or both, and it is near the line again. -/
theorem near_step (hw : w.Fresh) (h : w.Near n u v) :
    ∃ a b, (w.moved u v).next = w.moved (u + a) (v + b) ∧ w.Near (n + 1) (u + a) (v + b) ∧
      (0 ≤ a ∧ a ≤ 1) ∧ (0 ≤ b ∧ b ≤ 1) := by
  obtain ⟨hnonneg, hle, halong, hnear⟩ := h
  refine ⟨_, _, next_moved hw u v, ?_⟩
  obtain ⟨hx, hy, -⟩ := hw
  have hadd := w.off_add u v
  rw [length, abs_le] at hnear
  generalize w.off u v = d at hnear hadd ⊢
  -- the test for the longer extent always holds
  have hlong : (-w.dy ≤ w.dx → w.dy ≤ 2 * (w.dx + w.dy + d)) ∧
      (w.dx ≤ -w.dy → 2 * (w.dx + w.dy + d) ≤ w.dx) := by
    omega
  unfold stride
  split_ifs <;> refine ⟨⟨by omega, by omega, by omega, ?_⟩, by omega, by omega⟩ <;>
    rw [hadd, length, abs_le] <;> omega

/-- **Wherever a walk is, it is near the line.** -/
theorem exists_near (hw : w.Fresh) (n : Nat) :
    ∃ u v, next^[n] w = w.moved u v ∧ w.Near n u v := by
  induction n with
  | zero => exact ⟨0, 0, w.moved_zero.symm, near_zero hw⟩
  | succ n ih =>
    obtain ⟨u, v, hn, hnear⟩ := ih
    obtain ⟨a, b, hstep, hnext, -⟩ := near_step hw hnear
    rw [Function.iterate_succ_apply', hn]
    exact ⟨u + a, v + b, hstep, hnext⟩

/-! ## Extents -/

/-- On a line that is `D` long and `E` high, with `E` at most `D`, the cell that is nearest to the
line after `n` columns is within the height, and at the top of it after all `D` columns. -/
theorem height_of_near {D E : Int} (hE : 0 ≤ E) (hED : E ≤ D) (hn : n ≤ D) (hv : 0 ≤ v ∧ v ≤ n)
    (hnear : |2 * (v * D - n * E)| ≤ D) : v ≤ E ∧ (n = D → v = E) := by
  rw [abs_le] at hnear
  have hle : v ≤ E := by
    by_contra hlt
    have hv' : (E + 1) * D ≤ v * D := mul_le_mul_of_nonneg_right (by omega) (by omega)
    have hn' : n * E ≤ D * E := mul_le_mul_of_nonneg_right hn hE
    linarith [add_one_mul E D, mul_comm D E]
  refine ⟨hle, fun hend => le_antisymm hle ?_⟩
  by_contra hlt
  have hv' : (v + 1) * D ≤ E * D := mul_le_mul_of_nonneg_right (by omega) (by omega)
  rw [hend] at hnear
  linarith [add_one_mul v D, mul_comm D E]

/-- A walk that is not beyond its length is not beyond its extents, and if it is at the end of its
length, then it is at the end of both. -/
theorem Near.extents (hw : w.Fresh) (h : w.Near n u v) (hn : n ≤ w.length) :
    (u ≤ w.dx ∧ v ≤ -w.dy) ∧ (n = w.length → u = w.dx ∧ v = -w.dy) := by
  obtain ⟨hx, hy, -⟩ := hw
  obtain ⟨⟨hu, hv⟩, ⟨hun, hvn⟩, ⟨hflat, hsteep⟩, hnear⟩ := h
  unfold length at hn hnear ⊢
  unfold off at hnear
  rcases le_total (-w.dy) w.dx with hlong | hlong
  · obtain rfl := hflat hlong
    rw [max_eq_left hlong] at hn hnear ⊢
    have hoff : v * w.dx + u * w.dy = v * w.dx - u * -w.dy := by ring
    rw [hoff] at hnear
    have hheight := height_of_near (by omega) hlong hn ⟨hv, hvn⟩ hnear
    exact ⟨⟨hn, hheight.1⟩, fun hend => ⟨hend, hheight.2 hend⟩⟩
  · obtain rfl := hsteep hlong
    rw [max_eq_right hlong] at hn hnear ⊢
    have hoff : v * w.dx + u * w.dy = -(u * -w.dy - v * w.dx) := by ring
    rw [hoff, mul_neg, abs_neg] at hnear
    have hwidth := height_of_near hx hlong hn ⟨hu, hun⟩ hnear
    exact ⟨⟨hwidth.1, hn⟩, fun hend => ⟨hwidth.2 hend, hend⟩⟩

/-! ## Lists of cells -/

theorem take_eq_map (n : Nat) (w : Walk) :
    w.take n = (List.range n).map fun i => (next^[i] w).cell := by
  induction n generalizing w with
  | zero => rfl
  | succ n ih =>
    rw [take, ih, List.range_succ_eq_map, List.map_cons, List.map_map]
    rfl

/-- The cells of a walk up to the first one that is `b`, and at most `n` of them. -/
def takeTo (b : Cell) : Nat → Walk → List Cell
  | 0, _ => []
  | n + 1, w => if w.cell = b then [w.cell] else w.cell :: takeTo b n w.next

/-- A walk that arrives after `n` steps stops by itself. -/
theorem takeTo_eq_take {b : Cell} {n m : Nat} {w : Walk} (hnot : ∀ i < n, (next^[i] w).cell ≠ b)
    (hend : (next^[n] w).cell = b) (hm : n < m) : w.takeTo b m = w.take (n + 1) := by
  induction n generalizing w m with
  | zero =>
    obtain ⟨m, rfl⟩ := Nat.exists_eq_succ_of_ne_zero (Nat.ne_of_gt hm)
    exact if_pos hend
  | succ n ih =>
    obtain ⟨m, rfl⟩ := Nat.exists_eq_succ_of_ne_zero (Nat.ne_of_gt (Nat.zero_lt_of_lt hm))
    have hfirst : w.cell ≠ b := hnot 0 (Nat.succ_pos n)
    rw [takeTo, if_neg hfirst, take,
      ih (fun i hi => hnot (i + 1) (Nat.succ_lt_succ hi)) hend (Nat.lt_of_succ_lt_succ hm)]

/-! ## From one cell to another -/

variable (a b : Cell)

theorem fresh_start : (start a b).Fresh where
  dx_nonneg := Int.natCast_nonneg _
  dy_nonpos := Int.neg_nonpos_of_nonneg (Int.natCast_nonneg _)
  err_eq := rfl

theorem length_start : (start a b).length = stepsBetween a b := by
  simp only [length, start, neg_neg, stepsBetween, Nat.cast_max]

/-- A step is one unit long and leads towards the end of the walk. -/
theorem stepX_start : ((start a b).stepX = 1 ∨ (start a b).stepX = -1) ∧
    (start a b).dx * (start a b).stepX = b.x - a.x := by
  dsimp only [start]
  split_ifs <;> omega

theorem stepY_start : ((start a b).stepY = 1 ∨ (start a b).stepY = -1) ∧
    -(start a b).dy * (start a b).stepY = b.y - a.y := by
  dsimp only [start]
  split_ifs <;> omega

variable {a b} {u v : Int}

/-- A coordinate that is `u` of `d` steps from `p` towards `q` lies between the two. -/
theorem between_of_steps {p q d s u : Int} (hs : s = 1 ∨ s = -1) (hd : d * s = q - p)
    (hu : 0 ≤ u ∧ u ≤ d) : min p q ≤ p + u * s ∧ p + u * s ≤ max p q := by
  rcases hs with rfl | rfl
  · omega
  · omega

/-- How far a cell of the walk is off the line, in terms of the ends of the line. -/
theorem abs_off_start (u v : Int) :
    |2 * ((b.x - a.x) * (((start a b).moved u v).cell.y - a.y) -
      (b.y - a.y) * (((start a b).moved u v).cell.x - a.x))| = |2 * (start a b).off u v| := by
  obtain ⟨hsx, hx⟩ := stepX_start a b
  obtain ⟨hsy, hy⟩ := stepY_start a b
  have hoff : (b.x - a.x) * (((start a b).moved u v).cell.y - a.y) -
      (b.y - a.y) * (((start a b).moved u v).cell.x - a.x) =
      (start a b).stepX * (start a b).stepY * (start a b).off u v := by
    rw [← hx, ← hy]
    show (start a b).dx * (start a b).stepX * (a.y + v * (start a b).stepY - a.y) -
      -(start a b).dy * (start a b).stepY * (a.x + u * (start a b).stepX - a.x) = _
    unfold off
    ring
  rw [hoff]
  rcases hsx with hsx | hsx <;> rcases hsy with hsy | hsy <;> rw [hsx, hsy] <;>
    simp only [mul_one, mul_neg, neg_neg, neg_mul, one_mul, abs_neg]

/-- A step leads to a neighbouring cell. -/
theorem stepsBetween_next (a b : Cell) (i : Nat) :
    stepsBetween (next^[i] (start a b)).cell (next^[i + 1] (start a b)).cell = 1 := by
  obtain ⟨u, v, hiter, hnear⟩ := exists_near (fresh_start a b) i
  obtain ⟨d, e, hstep, hnext, hd, he⟩ := near_step (fresh_start a b) hnear
  have hone : d = 1 ∨ e = 1 := by
    have hle := hnear.le
    rcases le_total (-(start a b).dy) (start a b).dx with hlong | hlong
    · have := hnext.along.1 hlong
      omega
    · have := hnext.along.2 hlong
      omega
  rw [Function.iterate_succ_apply', hiter, hstep]
  simp only [stepsBetween, moved, add_mul]
  obtain ⟨hsx, -⟩ := stepX_start a b
  obtain ⟨hsy, -⟩ := stepY_start a b
  rcases hsx with hsx | hsx <;> rcases hsy with hsy | hsy <;> rw [hsx, hsy] <;> omega

/-- After different numbers of steps, a walk is in different cells. -/
theorem cell_injective (a b : Cell) :
    Function.Injective fun i => (next^[i] (start a b)).cell := by
  intro i j hij
  obtain ⟨u, v, hi, hnear⟩ := exists_near (fresh_start a b) i
  obtain ⟨u', v', hj, hnear'⟩ := exists_near (fresh_start a b) j
  dsimp only at hij
  rw [hi, hj] at hij
  obtain ⟨hx, hy⟩ := Cell.mk.inj hij
  obtain ⟨hsx, -⟩ := stepX_start a b
  obtain ⟨hsy, -⟩ := stepY_start a b
  rcases le_total (-(start a b).dy) (start a b).dx with hlong | hlong
  · have hu := hnear.along.1 hlong
    have hu' := hnear'.along.1 hlong
    rcases hsx with hsx | hsx <;> rw [hsx] at hx <;> omega
  · have hv := hnear.along.2 hlong
    have hv' := hnear'.along.2 hlong
    rcases hsy with hsy | hsy <;> rw [hsy] at hy <;> omega

/-- After as many steps as there are, a walk is at its end. -/
theorem cell_end (a b : Cell) : (next^[stepsBetween a b] (start a b)).cell = b := by
  obtain ⟨u, v, hend, hnear⟩ := exists_near (fresh_start a b) (stepsBetween a b)
  obtain ⟨hu, hv⟩ := (hnear.extents (fresh_start a b) (length_start a b).ge).2 (length_start a b).symm
  obtain ⟨-, hx⟩ := stepX_start a b
  obtain ⟨-, hy⟩ := stepY_start a b
  rw [hend, hu, hv]
  show Cell.mk (a.x + (start a b).dx * (start a b).stepX)
    (a.y + -(start a b).dy * (start a b).stepY) = b
  rw [hx, hy, add_sub_cancel, add_sub_cancel]

end Walk

section Between

variable (a b : Cell)

theorem cellsBetween_eq_cons : cellsBetween a b = a :: (cellsBetween a b).tail :=
  rfl

/-- The cells of a line without the first one are as many as there are steps. -/
theorem length_tail_cellsBetween : (cellsBetween a b).tail.length = stepsBetween a b := by
  rw [List.length_tail, cellsBetween, Walk.take_eq_map, List.length_map, List.length_range,
    Nat.add_sub_cancel]

/-- From each cell of a line it is one step to the next one. -/
theorem isChain_cellsBetween :
    (cellsBetween a b).IsChain fun c d => stepsBetween c d = 1 := by
  rw [cellsBetween, Walk.take_eq_map, List.isChain_map, List.isChain_range_succ]
  exact fun i _ => Walk.stepsBetween_next a b i

theorem getLast?_cellsBetween : (cellsBetween a b).getLast? = some b := by
  rw [cellsBetween, Walk.take_eq_map, List.range_succ, List.map_append, List.map_singleton,
    List.getLast?_concat, Walk.cell_end]

end Between

/-- The cells trace the line from `a` to `b`. -/
structure Traces (a b : Cell) (cells : List Cell) : Prop where
  length : cells.length = max (b.x - a.x).natAbs (b.y - a.y).natAbs + 1
  nodup : cells.Nodup
  head : cells.head? = some a
  last : cells.getLast? = some b
  /-- A cell and the next one are neighbours, in a row, in a column or diagonally. -/
  adjacent : cells.IsChain fun c d => max (d.x - c.x).natAbs (d.y - c.y).natAbs = 1
  inBox : ∀ c ∈ cells, (min a.x b.x ≤ c.x ∧ c.x ≤ max a.x b.x) ∧
    (min a.y b.y ≤ c.y ∧ c.y ≤ max a.y b.y)
  /-- No cell in the same column of a flat line, or in the same row of a steep one, is nearer. -/
  nearest : ∀ c ∈ cells, |2 * ((b.x - a.x) * (c.y - a.y) - (b.y - a.y) * (c.x - a.x))| ≤
    max |b.x - a.x| |b.y - a.y|

open Walk in
/-- **The cells between two cells trace the line from one to the other.** The walk arrives at the
end exactly when its steps are used up, so that it would stop there by itself. -/
theorem cellsBetween_traces (a b : Cell) :
    Traces a b (cellsBetween a b) ∧
      ∀ n, stepsBetween a b < n → (start a b).takeTo b n = cellsBetween a b := by
  have hcells : cellsBetween a b =
      (List.range (stepsBetween a b + 1)).map fun i => (next^[i] (start a b)).cell :=
    take_eq_map _ _
  have hinj := cell_injective a b
  have hend := cell_end a b
  have hplace : ∀ c ∈ cellsBetween a b, ∃ i : Nat, ∃ u v, (i : Int) ≤ (start a b).length ∧
      (start a b).Near i u v ∧ c = ((start a b).moved u v).cell := by
    intro c hc
    rw [hcells] at hc
    obtain ⟨i, hi, rfl⟩ := List.mem_map.1 hc
    obtain ⟨u, v, hiter, hnear⟩ := exists_near (fresh_start a b) i
    refine ⟨i, u, v, ?_, hnear, congrArg Walk.cell hiter⟩
    rw [length_start]
    exact_mod_cast Nat.lt_succ_iff.1 (List.mem_range.1 hi)
  refine ⟨⟨?_, ?_, rfl, ?_, ?_, ?_, ?_⟩, fun n hn => ?_⟩
  · rw [hcells, List.length_map, List.length_range]
    rfl
  · rw [hcells]
    exact List.Nodup.map hinj List.nodup_range
  · rw [hcells, List.range_succ, List.map_append, List.map_singleton, List.getLast?_concat, hend]
  · rw [hcells, List.isChain_map, List.isChain_range_succ]
    exact fun i _ => stepsBetween_next a b i
  · intro c hc
    obtain ⟨i, u, v, hi, hnear, rfl⟩ := hplace c hc
    obtain ⟨hu, hv⟩ := (hnear.extents (fresh_start a b) hi).1
    obtain ⟨hsx, hx⟩ := stepX_start a b
    obtain ⟨hsy, hy⟩ := stepY_start a b
    exact ⟨between_of_steps hsx hx ⟨hnear.nonneg.1, hu⟩,
      between_of_steps hsy hy ⟨hnear.nonneg.2, hv⟩⟩
  · intro c hc
    obtain ⟨i, u, v, -, hnear, rfl⟩ := hplace c hc
    rw [abs_off_start, ← Int.natCast_natAbs (b.x - a.x), ← Int.natCast_natAbs (b.y - a.y),
      ← Nat.cast_max]
    exact hnear.near.trans (length_start a b).le
  · refine takeTo_eq_take (fun i hi hb => ?_) hend hn
    exact Nat.ne_of_lt hi (hinj (hb.trans hend.symm))

/-- Halfway between two rows, the walk goes on to the next one, and it stops at its end. -/
theorem cellsBetween_traces_halfway :
    Traces ⟨0, 0⟩ ⟨2, -1⟩ [⟨0, 0⟩, ⟨1, -1⟩, ⟨2, -1⟩] ∧ stepsBetween ⟨0, 0⟩ ⟨2, -1⟩ < 9 ∧
      (Walk.start ⟨0, 0⟩ ⟨2, -1⟩).takeTo ⟨2, -1⟩ 9 = [⟨0, 0⟩, ⟨1, -1⟩, ⟨2, -1⟩] := by
  have hsteps : stepsBetween ⟨0, 0⟩ ⟨2, -1⟩ < 9 := by decide
  have hcells : cellsBetween ⟨0, 0⟩ ⟨2, -1⟩ = [⟨0, 0⟩, ⟨1, -1⟩, ⟨2, -1⟩] := by decide
  obtain ⟨htraces, hstops⟩ := cellsBetween_traces ⟨0, 0⟩ ⟨2, -1⟩
  rw [hcells] at htraces hstops
  exact ⟨htraces, hsteps, hstops 9 hsteps⟩

end PixelTurtle
