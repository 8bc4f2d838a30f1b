import PixelTurtle.Host.Report

/-!
# Settings of a run

Settings are an object of start options and limits. They are converted in a fixed order, and the
first value that cannot be converted is reported.

* `Limits` are the limits of a host; settings may give others.
* `Limits.options` are the options that the settings stand for.
-/

namespace PixelTurtle.Host

/-- The limits of a host. A host may set them to any value: they are converted when a run needs
them. -/
structure Limits where
  maxSteps : Json := .int defaultMaxSteps
  maxOperations : Json := .int 200000
  maxCodeChars : Json := .int 100000

/-- Converts a setting that is present. -/
def setting {α : Type} (settings : Json) (key : String)
    (convert : Json → Except ConversionError α) : Except ConversionError (Option α) :=
  match settings.present? key with
  | some j => (convert j).map some
  | none => .ok none

/-- Converts a limit, which may be missing but not null. -/
def limit (settings : Json) (key : String) (default : Json) : Except ConversionError Int :=
  ((settings.get? key).getD default).toInt

/-- The options that settings stand for. -/
def Limits.options (limits : Limits) (settings : Json) : Except ConversionError Options := do
  let startX ← setting settings "start_x" Json.toFloat
  let startY ← setting settings "start_y" Json.toFloat
  let heading ← setting settings "heading" Json.toFloat
  let width ← setting settings "width" Json.toInt
  let height ← setting settings "height" Json.toInt
  let penDown ← setting settings "initial_pen_down" (Json.toBool "initial_pen_down")
  let record ← setting settings "record" (Json.toBool "record")
  let color ← setting settings "initial_hsv" Hsv.ofJson
  let maxSteps ← limit settings "max_steps" limits.maxSteps
  let maxOperations ← limit settings "max_operations" limits.maxOperations
  return {
    startX := startX.getD 0
    startY := startY.getD 0
    heading := heading.getD 0
    color := color.getD {}
    penDown := penDown.getD false
    width := width
    height := height
    record := record.getD true
    maxSteps := some maxSteps
    maxOperations := some maxOperations }

end PixelTurtle.Host
