import PixelTurtle.Canvas.Walk
import PixelTurtle.Color

/-!
# Calls to a renderer

A run shows what happens by calls to a renderer. A renderer need not take every kind of call, and
the ones that it does not take are not made.

* `Method` are the kinds of calls, `Call` the calls with their arguments.
* `Renderer` is the set of kinds a renderer takes.
-/

namespace PixelTurtle

/-- The kinds of calls. -/
inductive Method
  | penSet
  | penUp
  | penDown
  | setHeading
  | drawPixel
  | clearPixels
  deriving DecidableEq, Repr

/-- A call. -/
inductive Call
  | penSet (cell : Cell)
  | penUp
  | penDown
  | setHeading (degrees : Float)
  | drawPixel (cell : Cell) (color : Hsv)
  | clearPixels
  deriving DecidableEq

def Call.method : Call → Method
  | .penSet _ => .penSet
  | .penUp => .penUp
  | .penDown => .penDown
  | .setHeading _ => .setHeading
  | .drawPixel _ _ => .drawPixel
  | .clearPixels => .clearPixels

/-- The kinds of calls a renderer takes. -/
abbrev Renderer := List Method

/-- A renderer that takes every call. -/
def Renderer.full : Renderer :=
  [.penSet, .penUp, .penDown, .setHeading, .drawPixel, .clearPixels]

end PixelTurtle
