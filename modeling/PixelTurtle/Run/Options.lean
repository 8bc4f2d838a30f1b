import PixelTurtle.Canvas.Call

/-!
# Options of a run

* `Options` is where a run starts, what it may draw on, who watches it, and its limits.
* `defaultMaxSteps` is the step budget of a run that does not give one.
-/

namespace PixelTurtle

/-- The step budget of a run that does not give one. -/
def defaultMaxSteps : Int := 1000000

/-- How to run a program. A limit or a bound that is missing does not restrict the run. -/
structure Options where
  startX : Float := 0
  startY : Float := 0
  /-- In degrees, clockwise from the direction of the columns. -/
  heading : Float := 0
  color : Hsv := {}
  penDown : Bool := false
  /-- Cells outside the bounds are not drawn. -/
  width : Option Int := none
  height : Option Int := none
  renderer : Option Renderer := none
  /-- Whether every drawn cell is reported. -/
  onPixel : Bool := false
  /-- Whether the operations are logged. -/
  record : Bool := true
  maxSteps : Option Int := some defaultMaxSteps
  maxOperations : Option Int := none
  /-- Whether the renderer is cleared at the start. -/
  clear : Bool := false

namespace Options

/-- Whether a coordinate lies within a bound. -/
def within (bound : Option Int) (n : Int) : Bool :=
  match bound with
  | some b => 0 ≤ n && n < b
  | none => true

/-- Whether a cell is drawn. -/
def inBounds (o : Options) (cell : Cell) : Bool :=
  within o.width cell.x && within o.height cell.y

end Options

end PixelTurtle
