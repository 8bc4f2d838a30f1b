import PixelTurtle.Canvas.PixelGrid

/-!
# Driving a pixel grid with documents

A host may work on a grid directly, with arguments that come as documents.

* `GridError` is why a grid refuses a request.
* `Remote` are the actions on a grid; each keeps what it changed when it fails.
* `Remote.paint`, `Remote.place`, `Remote.face` and `Remote.resize` change the grid.
* `Remote.look` and `Remote.center` only look at it.
* `Remote.request` carries out a request by its name.
-/

namespace PixelTurtle

/-- Why a grid refuses a request. -/
inductive GridError
  | conversion (e : ConversionError)
  /-- A cell has no width. -/
  | zeroSize
  /-- A request that does not exist. -/
  | unknown
  /-- A request with too many or too few arguments. -/
  | arity (name : String) (parameters : List String) (given : Nat)

/-- Names in a sentence: quoted, and the last one after an "and". -/
def listed : List String → String
  | [] => ""
  | [a] => "'" ++ a ++ "'"
  | [a, b] => "'" ++ a ++ "' and '" ++ b ++ "'"
  | [a, b, c] => "'" ++ a ++ "', '" ++ b ++ "', and '" ++ c ++ "'"
  | a :: rest => "'" ++ a ++ "', " ++ listed rest

/-- One or several arguments. -/
def plural (n : Nat) : String :=
  if n == 1 then " positional argument" else " positional arguments"

/-- The wording of a wrong number of arguments; the grid itself counts as one. -/
def arityMessage (name : String) (parameters : List String) (given : Nat) : String :=
  let missing := parameters.drop given
  if missing.isEmpty then
    "PixelGrid." ++ name ++ "() takes " ++ toString (parameters.length + 1) ++
      plural (parameters.length + 1) ++ " but " ++ toString (given + 1) ++ " were given"
  else
    "PixelGrid." ++ name ++ "() missing " ++ toString missing.length ++ " required" ++
      plural missing.length ++ ": " ++ listed missing

/-- A request to a grid. -/
abbrev Remote := EStateM GridError PixelGrid

namespace Remote

/-- The outcome of a conversion. -/
def convert {α : Type} : Except ConversionError α → Remote α
  | .ok a => pure a
  | .error e => throw (.conversion e)

/-- Puts the pen over a cell. -/
def place (x y : Json) : Remote Unit := do
  let x ← convert x.toInt
  let y ← convert y.toInt
  modify (·.receive (.penSet ⟨x, y⟩))

/-- Paints a cell. The color is looked at before the place. -/
def paint (x y color : Json) : Remote Unit := do
  let color ← convert (Hsv.ofJson color)
  let x ← convert x.toInt
  let y ← convert y.toInt
  modify (·.receive (.drawPixel ⟨x, y⟩ color))

/-- The direction of a heading; whole numbers of any size are reduced exactly. -/
def angle : Json → Except ConversionError Float
  | .int n => .ok (.ofInt (n % 360))
  | .bool b => .ok (if b then 1 else 0)
  | .real x => .ok (wrapHue x)
  | .str s => .error (.template (Text.templateFlaw s.toList))
  | j => .error (.notAngle j.kind)

/-- Turns the pen. -/
def face (degrees : Json) : Remote Unit := do
  let heading ← convert (angle degrees)
  modify fun g => { g with heading := heading }

/-- Changes the size of a cell. -/
def resize (size : Json) : Remote Unit := do
  let n ← convert size.toInt
  let g ← get
  match PixelGrid.resize n g with
  | .ok _ g => set g
  | .error e g =>
    set g
    throw (.conversion e)

/-- The coordinate that a value equals, if it can be one. -/
def coordinate? : Json → Except ConversionError (Option Int)
  | .int n => .ok (some n)
  | .bool b => .ok (some (if b then 1 else 0))
  | .real x =>
    match Number.floor x with
    | .ok n => .ok (if x == .ofInt n then some n else none)
    | .error _ => .ok none
  | .arr _ => .error (.notKey "list")
  | .obj _ => .error (.notKey "dict")
  | _ => .ok none

/-- The color of a cell, if it is painted. -/
def look (x y : Json) : Remote (Option Hsv) := do
  let x ← convert (coordinate? x)
  let y ← convert (coordinate? y)
  let g ← get
  match x, y with
  | some x, some y => return g.pixel? ⟨x, y⟩
  | _, _ => return none

/-- How many cells of a width fit into an extent. The kind of number stays. -/
def fit (width : Int) (extent : Json) : Remote Json :=
  let whole (n : Int) : Remote Json :=
    if width = 0 then throw .zeroSize else return .int (n.fdiv width)
  match extent with
  | .int n => whole n
  | .bool b => whole (if b then 1 else 0)
  | .real x =>
    match Number.ofInt? width with
    | none => throw (.conversion .tooLarge)
    | some w => if width = 0 then throw .zeroSize else return .real (Number.quotient x w)
  | j => throw (.conversion (.notExtent j.kind))

/-- The cell in the middle of a canvas. -/
def center (width height : Json) : Remote Json := do
  let g ← get
  let x ← fit (2 * g.pixelSize) width
  let y ← fit (2 * g.pixelSize) height
  return .arr [x, y]

/-! ## Requests by name -/

/-- The parameters of a request. -/
def parameters? : String → Option (List String)
  | "pen_set" => some ["x", "y"]
  | "pen_up" => some []
  | "pen_down" => some []
  | "set_heading" => some ["degrees"]
  | "draw_pixel" => some ["x", "y", "color"]
  | "get_pixel_size" => some []
  | "set_pixel_size" => some ["size"]
  | "clear_pixels" => some []
  | "get_pixel" => some ["x", "y"]
  | "start_cell" => some ["width_px", "height_px"]
  | "to_dict" => some []
  | _ => none

/-- Carries out a call and returns nothing. -/
def call (c : Call) : Remote Json := do
  modify (·.receive c)
  return .null

/-- Does something and returns nothing. -/
def silent (action : Remote Unit) : Remote Json := do
  action
  return .null

/-- Carries out a request by its name. -/
def request (name : String) (args : List Json) : Remote Json :=
  match name, args with
  | "pen_set", [x, y] => silent (place x y)
  | "pen_up", [] => call .penUp
  | "pen_down", [] => call .penDown
  | "set_heading", [degrees] => silent (face degrees)
  | "draw_pixel", [x, y, color] => silent (paint x y color)
  | "get_pixel_size", [] => return .int (← get).pixelSize
  | "set_pixel_size", [size] => silent (resize size)
  | "clear_pixels", [] => call .clearPixels
  | "get_pixel", [x, y] => return Json.ofOption Hsv.toJson (← look x y)
  | "start_cell", [width, height] => center width height
  | "to_dict", [] => return .null
  | name, args =>
    match parameters? name with
    | some ps => throw (.arity name ps args.length)
    | none => throw .unknown

end Remote

end PixelTurtle
