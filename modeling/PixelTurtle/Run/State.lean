import PixelTurtle.Run.Fault
import PixelTurtle.Run.Options

/-!
# The state of a run

The state of a run is the turtle, the variables, the log of operations, and what the renderer and
the watcher of the pixels were told. Actions change it, and keep what they changed when they abort.

* `RunState` is the state, `RunState.start` the state before the first instruction.
* `Action` is the type of actions.
* `tick` counts a step, `record` logs an operation, `call` and `sync` talk to the renderer.
* `draw` draws one cell of a line, `drawLine` the cells of a walk.
-/

namespace PixelTurtle

/-- The entries of the log. -/
inductive Operation
  | plot (cell : Cell) (color : Hsv)
  | move (cell : Cell)
  | turn (heading : Float)
  | pen (down : Bool)
  | hsv (color : Hsv)
  deriving DecidableEq

def Operation.toJson : Operation → Json
  | .plot cell color =>
    .obj [("op", .str "plot"), ("x", .int cell.x), ("y", .int cell.y), ("color", color.toJson)]
  | .move cell => .obj [("op", .str "move"), ("x", .int cell.x), ("y", .int cell.y)]
  | .turn heading => .obj [("op", .str "turn"), ("heading", .real heading)]
  | .pen down => .obj [("op", .str "pen"), ("down", .bool down)]
  | .hsv color => .obj [("op", .str "hsv"), ("color", color.toJson)]

/-- The state of a run. -/
structure RunState where
  x : Float
  y : Float
  heading : Float
  penDown : Bool
  color : Hsv
  vars : Env := []
  log : Array Operation := #[]
  /-- The calls to the renderer. -/
  calls : Array Call := #[]
  /-- The reported pixels. -/
  pixels : Array (Cell × Hsv) := #[]
  steps : Nat := 0

/-- The state before anything happens. -/
def RunState.start (o : Options) : RunState :=
  { x := o.startX, y := o.startY, heading := o.heading, penDown := o.penDown, color := o.color }

/-- A change of the state that may abort. -/
abbrev Action := EStateM Abort RunState

/-- Stops with a fault at a line. -/
def fail {α : Type} (f : Fault) (line : Option Int) : Action α :=
  throw (.fault f line)

/-- The cell of a point. -/
def cellOf (x y : Float) : Action Cell :=
  match Cell.ofPoint x y with
  | .ok cell => pure cell
  | .error reason => throw (.noCell reason)

/-- Counts a step, which must be within the budget. -/
def tick (o : Options) (line : Option Int) : Action Unit := do
  modify fun s => { s with steps := s.steps + 1 }
  match o.maxSteps with
  | none => pure ()
  | some n =>
    let s ← get
    if n < s.steps then fail .stepLimit line

/-- Logs an operation, which must fit into the log. -/
def record (o : Options) (line : Option Int) (op : Operation) : Action Unit := do
  if o.record then
    match o.maxOperations with
    | none => modify fun s => { s with log := s.log.push op }
    | some n =>
      let s ← get
      if n ≤ s.log.size then fail .outputLimit line
      modify fun s => { s with log := s.log.push op }

/-- Calls the renderer, if there is one that takes the call. -/
def call (o : Options) (c : Call) : Action Unit :=
  match o.renderer with
  | none => pure ()
  | some methods =>
    if methods.contains c.method then modify fun s => { s with calls := s.calls.push c }
    else pure ()

/-- Tells the renderer, if there is one, about the pen. -/
def sync (o : Options) : Action Unit := do
  if o.renderer.isSome then
    let s ← get
    let (x, y, down, heading) := (s.x, s.y, s.penDown, s.heading)
    let cell ← cellOf x y
    call o (.penSet cell)
    call o (if down then .penDown else .penUp)
    call o (.setHeading heading)

/-! ## Drawing -/

/-- Visits a cell of a line: it costs a step, and is drawn if it lies within the bounds. -/
def draw (o : Options) (line : Option Int) (cell : Cell) : Action Unit := do
  tick o line
  if o.inBounds cell then
    let s ← get
    let color := s.color
    if o.onPixel then modify fun s => { s with pixels := s.pixels.push (cell, color) }
    call o (.drawPixel cell color)
    record o line (.plot cell color)

/-- Draws the next `n` cells of a walk, without the current one. -/
def drawWalk (o : Options) (line : Option Int) : Nat → Walk → Action Unit
  | 0, _ => pure ()
  | n + 1, w => do
    let w := w.next
    draw o line w.cell
    drawWalk o line n w

/-- Draws a line from the pen, whose own cell is not drawn. -/
def drawLine (o : Options) (line : Option Int) (targetX targetY : Float) : Action Unit := do
  let s ← get
  let (x, y) := (s.x, s.y)
  let a ← cellOf x y
  let b ← cellOf targetX targetY
  drawWalk o line (stepsBetween a b) (Walk.start a b)

end PixelTurtle
