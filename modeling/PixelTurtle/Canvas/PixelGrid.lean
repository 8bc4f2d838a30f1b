import Std.Data.TreeMap
import PixelTurtle.Canvas.Call

/-!
# The pixel grid

The pixel grid is a renderer that keeps the painted cells, so that a host can return the picture.

* `PixelGrid.receive` carries out a call, `PixelGrid.receiveAll` a sequence of calls.
* `PixelGrid.resize` changes the size of a cell on the screen.
* `PixelGrid.toJson` lists the painted cells in order.
-/

namespace PixelTurtle

/-- A grid of painted cells with a pen. -/
structure PixelGrid where
  /-- The width of a cell on the screen. -/
  pixelSize : Int := 10
  pen : Cell := ⟨0, 0⟩
  penDown : Bool := false
  heading : Float := 0
  painted : Std.TreeMap Cell Hsv Cell.order := ∅

namespace PixelGrid

/-- Carries out a call. -/
def receive (g : PixelGrid) : Call → PixelGrid
  | .penSet cell => { g with pen := cell }
  | .penUp => { g with penDown := false }
  | .penDown => { g with penDown := true }
  | .setHeading degrees => { g with heading := wrapHue degrees }
  | .drawPixel cell color =>
    match g with
    | ⟨size, pen, down, heading, painted⟩ => ⟨size, pen, down, heading, painted.insert cell color⟩
  | .clearPixels => { g with painted := ∅ }

/-- Carries out calls in order. -/
def receiveAll (g : PixelGrid) (calls : Array Call) : PixelGrid :=
  calls.foldl receive g

/-- The color of a cell, if it is painted. -/
def pixel? (g : PixelGrid) (cell : Cell) : Option Hsv :=
  g.painted[cell]?

/-- The middle of the pen's cell on the screen, in one direction. -/
def penCenter (g : PixelGrid) (position : Int) : Except ConversionError Float :=
  match Number.half? g.pixelSize, Number.ofInt? (position * g.pixelSize) with
  | some half, some x => .ok (x + half)
  | none, _ => .error .halfTooLarge
  | _, none => .error .tooLarge

/-- The cell of the given size that a place on the screen lies in, in one direction. -/
def cellAt (center : Float) (size : Int) : Except ConversionError Int :=
  match Number.ofInt? size with
  | some s => (Number.truncate (Number.quotient center s)).mapError .noInteger
  | none => .error .tooLarge

/-- Changes the size of a cell, which is at least one, and keeps the pen over the same place on the
screen. The new size stays when the place has no cell. -/
def resize (size : Int) : EStateM ConversionError PixelGrid Unit := fun g =>
  let size := max 1 size
  if size = g.pixelSize then .ok () g
  else
    match g.penCenter g.pen.x, g.penCenter g.pen.y with
    | .ok cx, .ok cy =>
      let g := { g with pixelSize := size }
      match cellAt cx size, cellAt cy size with
      | .ok x, .ok y => .ok () { g with pen := ⟨x, y⟩ }
      | .error e, _ => .error e g
      | _, .error e => .error e g
    | .error e, _ => .error e g
    | _, .error e => .error e g

/-- A painted cell as a document. -/
def pixelJson (cell : Cell) (color : Hsv) : Json :=
  .obj [("x", .int cell.x), ("y", .int cell.y), ("color", color.toJson)]

def toJson (g : PixelGrid) : Json :=
  .obj [("pixel_size", .int g.pixelSize),
    ("pen", .obj [("x", .int g.pen.x), ("y", .int g.pen.y), ("down", .bool g.penDown)]),
    ("heading", .real g.heading),
    ("pixels", .arr (g.painted.toList.map fun (cell, color) => pixelJson cell color))]

end PixelGrid

end PixelTurtle
