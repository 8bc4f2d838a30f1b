import PixelTurtle.Color
import PixelTurtle.Expr.Basic
import PixelTurtle.Expr.Name

/-!
# Changes of a color component

Each component of a color command leaves the component as it is, adds to it, or sets it. The amount
is a number or a variable.

* `HsvParam.parse` reads a parameter.
* `HsvParam.apply` is the new value of the component.
* `Hsv.change` applies three parameters to a color.
-/

namespace PixelTurtle

/-- A number or a variable. -/
inductive Amount
  | lit (value : Float)
  | var (name : String)
  deriving DecidableEq

/-- What happens to a component. -/
inductive HsvParam
  | ignore
  | offset (sign : UnaryOp) (amount : Amount)
  | absolute (amount : Amount)
  /-- A parameter outside the language, with the name of its kind. -/
  | foreign (kind : String)
  deriving DecidableEq

/-- Why a text is no parameter. -/
inductive ParamError
  | empty
  | offset (text : String)
  | absolute (text : String)
  deriving DecidableEq, Repr

def ParamError.message : ParamError → String
  | .empty => ""
  | .offset text => "Invalid HSV offset: " ++ text
  | .absolute text => "Invalid HSV absolute value: " ++ text

/-- Why a parameter has no value. -/
inductive ParamFault
  | undefined (name : String)
  | unknown (kind : String)
  deriving DecidableEq, Repr

def ParamFault.message : ParamFault → String
  | .undefined name => "Undefined variable '" ++ name ++ "' in hsv"
  | .unknown kind => "Unknown hsv parameter: " ++ kind

/-- A variable or an unsigned finite numeral. -/
def Amount.parseUnsigned? (cs : List Char) : Option Amount :=
  if Name.isIdentifier cs then some (.var (Name.canonical cs))
  else if cs.head? == some '+' || cs.head? == some '-' then none
  else (Number.finite? cs).map .lit

/-- The value of an amount; a variable must have a finite one. -/
def Amount.value (env : Env) : Amount → Except ParamFault Float
  | .lit x => .ok x
  | .var name =>
    let x := env.value name
    if x.isFinite then .ok x else .error (.undefined name)

namespace HsvParam

/-- Reads an amount that follows a sign. -/
def parseOffset (sign : UnaryOp) (raw body : List Char) : Except ParamError HsvParam :=
  match Amount.parseUnsigned? body with
  | some a => .ok (.offset sign a)
  | none => .error (.offset (String.ofList raw))

/-- Reads a parameter: an underscore, a signed amount or an amount. -/
def parse : List Char → Except ParamError HsvParam
  | [] => .error .empty
  | ['_'] => .ok .ignore
  | '+' :: body => parseOffset .plus ('+' :: body) body
  | '-' :: body => parseOffset .minus ('-' :: body) body
  | raw =>
    match Amount.parseUnsigned? raw with
    | some a => .ok (.absolute a)
    | none => .error (.absolute (String.ofList raw))

/-- The new value of a component. -/
def apply (env : Env) (c : Component) (current : Float) : HsvParam → Except ParamFault Float
  | .ignore => .ok current
  | .offset sign a => do
    let x ← a.value env
    return c.normalize (current + sign.apply x)
  | .absolute a => do
    let x ← a.value env
    return c.normalize x
  | .foreign kind => .error (.unknown kind)

end HsvParam

/-- The color after a command with three parameters. -/
def Hsv.change (env : Env) (color : Hsv) (h s v : HsvParam) : Except ParamFault Hsv := do
  let h ← h.apply env .hue color.h
  let s ← s.apply env .saturation color.s
  let v ← v.apply env .value color.v
  return ⟨h, s, v⟩

end PixelTurtle
