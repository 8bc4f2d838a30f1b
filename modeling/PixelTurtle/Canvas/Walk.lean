import PixelTurtle.Number.Exact

/-!
# Cells and lines of cells

The canvas is a grid of cells. A line between two cells is walked one cell at a time, each next to
the one before, and stays as near to the ideal line as the grid allows.

* `Cell.ofPoint` is the cell of a point.
* `Walk` is a walk in progress: the current cell, the directions, the extents and the error term.
* `cellsBetween` lists the cells of a line, both ends included, and `lineCells` those of the line
  between two points.
-/

namespace PixelTurtle

/-- A cell of the grid. -/
structure Cell where
  x : Int
  y : Int
  deriving DecidableEq, Repr

/-- Cells are ordered by column, then by row. -/
def Cell.order : Cell → Cell → Ordering :=
  compareLex (compareOn Cell.x) (compareOn Cell.y)

/-- The cell of a point: each coordinate is rounded, halves up. -/
def Cell.ofPoint (x y : Float) : Except Number.NoInteger Cell := do
  let cx ← Number.roundHalfUp x
  let cy ← Number.roundHalfUp y
  return ⟨cx, cy⟩

/-- A walk along a line. The rows are counted downwards in `dy`, which is not positive. -/
structure Walk where
  cell : Cell
  stepX : Int
  stepY : Int
  dx : Int
  dy : Int
  err : Int
  deriving DecidableEq, Repr

namespace Walk

/-- The walk from `a` to `b` at its first cell. -/
def start (a b : Cell) : Walk :=
  let dx : Int := (b.x - a.x).natAbs
  let dy : Int := -(b.y - a.y).natAbs
  { cell := a
    stepX := if a.x < b.x then 1 else -1
    stepY := if a.y < b.y then 1 else -1
    dx := dx
    dy := dy
    err := dx + dy }

/-- The walk at its next cell. Both tests look at the error before the step. -/
def next (w : Walk) : Walk :=
  let e := 2 * w.err
  let alongX := w.dy ≤ e
  let alongY := e ≤ w.dx
  { w with
    cell := ⟨if alongX then w.cell.x + w.stepX else w.cell.x,
      if alongY then w.cell.y + w.stepY else w.cell.y⟩
    err := w.err + (if alongX then w.dy else 0) + (if alongY then w.dx else 0) }

/-- The next `n` cells of a walk, the current one first. -/
def take : Nat → Walk → List Cell
  | 0, _ => []
  | n + 1, w => w.cell :: take n w.next

end Walk

/-- The number of steps between two cells. -/
def stepsBetween (a b : Cell) : Nat :=
  max (b.x - a.x).natAbs (b.y - a.y).natAbs

/-- The cells of a line, both ends included. -/
def cellsBetween (a b : Cell) : List Cell :=
  (Walk.start a b).take (stepsBetween a b + 1)

/-- The cells of the line between two points, each of which is rounded to its cell. -/
def lineCells (x₀ y₀ x₁ y₁ : Float) : Except Number.NoInteger (List Cell) := do
  let a ← Cell.ofPoint x₀ y₀
  let b ← Cell.ofPoint x₁ y₁
  return cellsBetween a b

end PixelTurtle
