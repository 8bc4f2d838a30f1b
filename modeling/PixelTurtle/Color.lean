import PixelTurtle.Json.Convert

/-!
# Colors

A color is a hue in degrees and two percentages, saturation and value.

* `wrapHue` brings an angle into a full turn, `clamp` a number between two bounds.
* `Component.normalize` brings a component into its range.
* `Hsv.ofJson` reads a color from a document.
-/

namespace PixelTurtle

/-- A color. The default is white. -/
structure Hsv where
  h : Float := 0
  s : Float := 0
  v : Float := 100
  deriving DecidableEq

/-- The angle of less than a full turn that points the same way. -/
def wrapHue (h : Float) : Float :=
  Number.modulo (Number.modulo h 360 + 360) 360

/-- The number between `lo` and `hi` nearest to `v`. What is not a number stays. -/
def clamp (v lo hi : Float) : Float :=
  if v < lo then lo else if v > hi then hi else v

/-- The three components. -/
inductive Component
  | hue
  | saturation
  | value
  deriving DecidableEq, Repr

/-- Brings a component into its range. -/
def Component.normalize : Component → Float → Float
  | .hue, x => wrapHue x
  | .saturation, x => clamp x 0 100
  | .value, x => clamp x 0 100

namespace Hsv

def toJson (c : Hsv) : Json :=
  .obj [("h", .real c.h), ("s", .real c.s), ("v", .real c.v)]

/-- A color of three components, none of which is changed. -/
def ofComponents : List Json → Except ConversionError Hsv
  | [h, s, v] => do
    let h ← h.toFloat
    let s ← s.toFloat
    let v ← v.toFloat
    return ⟨h, s, v⟩
  | items =>
    if items.length < 3 then .error (.tooFew items.length) else .error .tooMany

/-- Reads a color: an object with some of the components, a list of three, or a text of three
characters. Null is the default color. -/
def ofJson : Json → Except ConversionError Hsv
  | .null => .ok {}
  | .obj fields =>
    let field (key : String) (default : Int) : Json := (fields.lookup key).getD (.int default)
    ofComponents [field "h" 0, field "s" 0, field "v" 100]
  | .arr items => ofComponents items
  | .str s => ofComponents (s.toList.map fun c => .str c.toString)
  | j => .error (.notList j.kind)

end Hsv

end PixelTurtle
