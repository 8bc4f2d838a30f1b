import PixelTurtle.Proofs.Integers
import PixelTurtle.Proofs.LineCells

/-!
# Lines under the symmetries of the grid

The grid is moved onto itself by translations, by reflections and by the exchange of columns and
rows. A line that is moved with it goes through the moved cells, also where two cells are equally
near to it: the walk goes the same way in all directions.

A translation does not change anything about a walk but its cell, a reflection turns the direction
of its steps, and the exchange swaps the two tests of a step, where the error changes its sign. The
one thing that is not moved with the walk is the direction along an extent of zero, in which no step
is ever taken.

The ends of a line between two points are rounded to cells first. This breaks the symmetry beyond
`2 ^ 52`, where the cells of odd coordinates are not those of the points there.

* `Symmetry` are the symmetries of the grid, and `Symmetry.apply` says where they take a cell.
* `Walk.Follows` is a map of walks that goes along with a map of cells.
* `cellsBetween_apply` is the theorem about lines between cells, `lines_are_symmetric` the one about
  lines between points.
-/

namespace PixelTurtle

/-- A symmetry of the grid. -/
inductive Symmetry
  | shift (dx dy : Int)
  /-- Each column becomes the one opposite to it. -/
  | flipX
  /-- Each row becomes the one opposite to it. -/
  | flipY
  /-- The columns become the rows. -/
  | exchange
  /-- The second symmetry, and then the first. -/
  | comp (g h : Symmetry)
  deriving DecidableEq, Repr

/-- Where a symmetry takes a cell. -/
def Symmetry.apply : Symmetry → Cell → Cell
  | .shift dx dy, c => ⟨c.x + dx, c.y + dy⟩
  | .flipX, c => ⟨-c.x, c.y⟩
  | .flipY, c => ⟨c.x, -c.y⟩
  | .exchange, c => ⟨c.y, c.x⟩
  | .comp g h, c => g.apply (h.apply c)

namespace Walk

/-- A map of walks that goes along with a map of cells, step by step. -/
structure Follows (f : Walk → Walk) (g : Cell → Cell) : Prop where
  cell : ∀ w, (f w).cell = g w.cell
  next : ∀ w, (f w).next = f w.next

theorem Follows.take {f : Walk → Walk} {g : Cell → Cell} (h : Follows f g) (n : Nat) (w : Walk) :
    (f w).take n = (w.take n).map g := by
  induction n generalizing w with
  | zero => rfl
  | succ n ih => rw [Walk.take, Walk.take, List.map_cons, h.cell, h.next, ih]

/-- A walk that starts elsewhere. -/
def shifted (dx dy : Int) (w : Walk) : Walk :=
  { w with cell := ⟨w.cell.x + dx, w.cell.y + dy⟩ }

theorem follows_shifted (dx dy : Int) : Follows (shifted dx dy) (Symmetry.shift dx dy).apply where
  cell _ := rfl
  next w := by
    simp only [next, shifted]
    congr 2
    · split_ifs <;> omega
    · split_ifs <;> omega

/-- A walk in the opposite direction along the columns. -/
def flipped (w : Walk) : Walk :=
  { w with cell := ⟨-w.cell.x, w.cell.y⟩, stepX := -w.stepX }

theorem follows_flipped : Follows flipped Symmetry.flipX.apply where
  cell _ := rfl
  next w := by
    simp only [next, flipped]
    congr 2
    split_ifs <;> omega

/-- A walk whose columns and rows are exchanged. The error changes its sign, because the rows are
counted downwards. -/
def exchanged (w : Walk) : Walk :=
  { cell := ⟨w.cell.y, w.cell.x⟩
    stepX := w.stepY
    stepY := w.stepX
    dx := -w.dy
    dy := -w.dx
    err := -w.err }

theorem follows_exchanged : Follows exchanged Symmetry.exchange.apply where
  cell _ := rfl
  next w := by
    simp only [next, exchanged, Walk.mk.injEq, Cell.mk.injEq, true_and]
    split_ifs <;> omega

end Walk

variable (a b : Cell)

theorem cellsBetween_shift (dx dy : Int) :
    cellsBetween ((Symmetry.shift dx dy).apply a) ((Symmetry.shift dx dy).apply b) =
      (cellsBetween a b).map (Symmetry.shift dx dy).apply := by
  have hstart : Walk.start ((Symmetry.shift dx dy).apply a) ((Symmetry.shift dx dy).apply b) =
      (Walk.start a b).shifted dx dy := by
    simp only [Symmetry.apply, Walk.start, Walk.shifted, add_sub_add_right_eq_sub,
      add_lt_add_iff_right]
  have hsteps : stepsBetween ((Symmetry.shift dx dy).apply a) ((Symmetry.shift dx dy).apply b) =
      stepsBetween a b := by
    simp only [stepsBetween, Symmetry.apply, add_sub_add_right_eq_sub]
  rw [cellsBetween, hstart, hsteps, (Walk.follows_shifted dx dy).take, cellsBetween]

theorem cellsBetween_exchange :
    cellsBetween (Symmetry.exchange.apply a) (Symmetry.exchange.apply b) =
      (cellsBetween a b).map Symmetry.exchange.apply := by
  have hstart : Walk.start (Symmetry.exchange.apply a) (Symmetry.exchange.apply b) =
      (Walk.start a b).exchanged := by
    simp only [Symmetry.apply, Walk.start, Walk.exchanged, Walk.mk.injEq, true_and, neg_neg]
    omega
  have hsteps : stepsBetween (Symmetry.exchange.apply a) (Symmetry.exchange.apply b) =
      stepsBetween a b := Nat.max_comm _ _
  rw [cellsBetween, hstart, hsteps, Walk.follows_exchanged.take, cellsBetween]

/-- A line within a column does not depend on the direction along the columns. -/
theorem cellsBetween_upright (h : a.x = b.x) : cellsBetween a b =
    (List.range (stepsBetween a b + 1)).map fun i => ⟨a.x, a.y + i * (Walk.start a b).stepY⟩ := by
  rw [cellsBetween, Walk.take_eq_map]
  refine List.map_congr_left fun i hi => ?_
  have hle : (i : Int) ≤ (Walk.start a b).length := by
    rw [Walk.length_start]
    exact_mod_cast Nat.lt_succ_iff.1 (List.mem_range.1 hi)
  have hdx : (Walk.start a b).dx = 0 := by
    show (((b.x - a.x).natAbs : Nat) : Int) = 0
    omega
  obtain ⟨u, v, hiter, hnear⟩ := Walk.exists_near (Walk.fresh_start a b) i
  have hwide := (hnear.extents (Walk.fresh_start a b) hle).1.1
  have hdy := (Walk.fresh_start a b).dy_nonpos
  obtain rfl : u = 0 := by
    have := hnear.nonneg.1
    omega
  obtain rfl : v = i := hnear.along.2 (by omega)
  rw [hiter]
  show Cell.mk (a.x + 0 * _) _ = _
  rw [zero_mul, add_zero]
  rfl

theorem cellsBetween_flipX :
    cellsBetween (Symmetry.flipX.apply a) (Symmetry.flipX.apply b) =
      (cellsBetween a b).map Symmetry.flipX.apply := by
  have hsteps : stepsBetween (Symmetry.flipX.apply a) (Symmetry.flipX.apply b) =
      stepsBetween a b := by
    simp only [stepsBetween, Symmetry.apply]
    omega
  by_cases h : a.x = b.x
  · -- without columns to cross, the direction along them does not change its sign
    have hflip : (Symmetry.flipX.apply a).x = (Symmetry.flipX.apply b).x := congrArg Neg.neg h
    rw [cellsBetween_upright _ _ hflip, cellsBetween_upright _ _ h, hsteps, List.map_map]
    rfl
  · have hstart : Walk.start (Symmetry.flipX.apply a) (Symmetry.flipX.apply b) =
        (Walk.start a b).flipped := by
      simp only [Symmetry.apply, Walk.start, Walk.flipped]
      congr 1
      · split_ifs <;> omega
      · omega
      · omega
    rw [cellsBetween, hstart, hsteps, Walk.follows_flipped.take, cellsBetween]

/-- The rows are reflected like the columns, once they are exchanged. -/
theorem cellsBetween_flipY :
    cellsBetween (Symmetry.flipY.apply a) (Symmetry.flipY.apply b) =
      (cellsBetween a b).map Symmetry.flipY.apply := by
  calc cellsBetween (Symmetry.flipY.apply a) (Symmetry.flipY.apply b)
      = (cellsBetween (Symmetry.flipX.apply (Symmetry.exchange.apply a))
          (Symmetry.flipX.apply (Symmetry.exchange.apply b))).map Symmetry.exchange.apply :=
        cellsBetween_exchange (Symmetry.flipX.apply (Symmetry.exchange.apply a))
          (Symmetry.flipX.apply (Symmetry.exchange.apply b))
    _ = (cellsBetween a b).map Symmetry.flipY.apply := by
        rw [cellsBetween_flipX, cellsBetween_exchange, List.map_map, List.map_map]
        rfl

/-- **A symmetry takes a line to the line between the ends that it takes its ends to.** -/
theorem cellsBetween_apply (g : Symmetry) (a b : Cell) :
    cellsBetween (g.apply a) (g.apply b) = (cellsBetween a b).map g.apply := by
  induction g generalizing a b with
  | shift dx dy => exact cellsBetween_shift a b dx dy
  | flipX => exact cellsBetween_flipX a b
  | flipY => exact cellsBetween_flipY a b
  | exchange => exact cellsBetween_exchange a b
  | comp g h ihg ihh =>
    rw [Symmetry.apply, Symmetry.apply, ihg, ihh, List.map_map]
    rfl

/-! ## Lines between points -/

/-- The point with the coordinates `x` and `y` is where the cell is. -/
def Cell.IsAt (c : Cell) (x y : Float) : Prop :=
  Number.IsInteger x c.x ∧ Number.IsInteger y c.y

instance (c : Cell) (x y : Float) : Decidable (c.IsAt x y) :=
  inferInstanceAs (Decidable (_ ∧ _))

/-- Rounding keeps both coordinates of the cell. -/
def Cell.Kept (c : Cell) : Prop :=
  Number.Kept c.x ∧ Number.Kept c.y

instance (c : Cell) : Decidable c.Kept :=
  inferInstanceAs (Decidable (_ ∧ _))

/-- The cell that the point where the cell `c` is belongs to. -/
def Cell.rounded (c : Cell) : Cell :=
  ⟨Number.rounded c.x, Number.rounded c.y⟩

theorem Cell.Kept.rounded_eq {c : Cell} (h : c.Kept) : c.rounded = c := by
  rw [Cell.rounded, Number.rounded, Number.rounded, if_pos h.1, if_pos h.2]

theorem Cell.IsAt.ofPoint_eq {c : Cell} {x y : Float} (h : c.IsAt x y) :
    Cell.ofPoint x y = .ok c.rounded := by
  rw [Cell.ofPoint, Number.roundHalfUp_of_isInteger h.1, Number.roundHalfUp_of_isInteger h.2]
  rfl

/-- The cells of a line between two points where cells are. -/
theorem lineCells_of_isAt {a b : Cell} {x₀ y₀ x₁ y₁ : Float} (ha : a.IsAt x₀ y₀)
    (hb : b.IsAt x₁ y₁) : lineCells x₀ y₀ x₁ y₁ = .ok (cellsBetween a.rounded b.rounded) := by
  rw [lineCells, ha.ofPoint_eq, hb.ofPoint_eq]
  rfl

/-- **Lines are symmetric.** Where a symmetry takes two cells, it takes the line between them. The
same holds of the line between the two points where these cells are, as long as rounding keeps the
coordinates of the four ends; in any case, it is the line between the cells that the ends are
rounded to. -/
theorem lines_are_symmetric (g : Symmetry) (a b : Cell) :
    cellsBetween (g.apply a) (g.apply b) = (cellsBetween a b).map g.apply ∧
    ∀ x₀ y₀ x₁ y₁, a.IsAt x₀ y₀ → b.IsAt x₁ y₁ →
      lineCells x₀ y₀ x₁ y₁ = .ok (cellsBetween a.rounded b.rounded) ∧
      ∀ x₀' y₀' x₁' y₁', (g.apply a).IsAt x₀' y₀' → (g.apply b).IsAt x₁' y₁' →
        a.Kept → b.Kept → (g.apply a).Kept → (g.apply b).Kept →
        lineCells x₀ y₀ x₁ y₁ = .ok (cellsBetween a b) ∧
          lineCells x₀' y₀' x₁' y₁' = .ok ((cellsBetween a b).map g.apply) := by
  have hcells := cellsBetween_apply g a b
  refine ⟨hcells, fun x₀ y₀ x₁ y₁ ha hb => ⟨lineCells_of_isAt ha hb, ?_⟩⟩
  intro x₀' y₀' x₁' y₁' ha' hb' hka hkb hka' hkb'
  rw [lineCells_of_isAt ha hb, lineCells_of_isAt ha' hb', hka.rounded_eq, hkb.rounded_eq,
    hka'.rounded_eq, hkb'.rounded_eq, hcells]
  exact ⟨rfl, rfl⟩

/-- A line that passes right between two cells goes to the corresponding one of them after a quarter
turn. -/
theorem lines_are_symmetric_halfway :
    Cell.IsAt ⟨0, 0⟩ 0 0 ∧ Cell.IsAt ⟨2, 1⟩ 2 1 ∧ Cell.IsAt ⟨1, -2⟩ 1 (-2) ∧
      lineCells 0 0 2 1 = .ok [⟨0, 0⟩, ⟨1, 1⟩, ⟨2, 1⟩] ∧
      lineCells 0 0 1 (-2) = .ok [⟨0, 0⟩, ⟨1, -1⟩, ⟨1, -2⟩] := by
  have hcenter : Cell.IsAt ⟨0, 0⟩ 0 0 := by decide +kernel
  have hend : Cell.IsAt ⟨2, 1⟩ 2 1 := by decide +kernel
  have hturned : Cell.IsAt ⟨1, -2⟩ 1 (-2) := by decide +kernel
  have hcells : cellsBetween ⟨0, 0⟩ ⟨2, 1⟩ = [⟨0, 0⟩, ⟨1, 1⟩, ⟨2, 1⟩] := by decide
  obtain ⟨-, hlines⟩ := lines_are_symmetric (.comp .exchange .flipX) ⟨0, 0⟩ ⟨2, 1⟩
  obtain ⟨hline, hline'⟩ := (hlines 0 0 2 1 hcenter hend).2 0 0 1 (-2) hcenter hturned
    (by decide) (by decide) (by decide) (by decide)
  rw [hcells] at hline hline'
  exact ⟨hcenter, hend, hturned, hline, hline'⟩

/-- Far out, a line that ends in an odd column goes on to the next column, which is even. -/
theorem line_overruns_odd_end :
    Cell.IsAt ⟨0, 0⟩ 0 0 ∧ Cell.IsAt ⟨1, 0⟩ 1 0 ∧
      Cell.IsAt ((Symmetry.shift (2 ^ 52) 0).apply ⟨0, 0⟩) 4503599627370496 0 ∧
      Cell.IsAt ((Symmetry.shift (2 ^ 52) 0).apply ⟨1, 0⟩) 4503599627370497 0 ∧
      lineCells 0 0 1 0 = .ok [⟨0, 0⟩, ⟨1, 0⟩] ∧
      lineCells 4503599627370496 0 4503599627370497 0 =
        .ok [⟨2 ^ 52, 0⟩, ⟨2 ^ 52 + 1, 0⟩, ⟨2 ^ 52 + 2, 0⟩] ∧
      lineCells 4503599627370496 0 4503599627370497 0 ≠
        .ok ([⟨0, 0⟩, ⟨1, 0⟩].map (Symmetry.shift (2 ^ 52) 0).apply) := by
  refine ⟨?_, ?_, ?_, ?_, ?_, ?_, ?_⟩ <;> decide +kernel

end PixelTurtle
