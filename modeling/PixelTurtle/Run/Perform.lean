import PixelTurtle.Instr
import PixelTurtle.Run.State

/-!
# What the instructions do

* `Frame` is a body in progress.
* `number` evaluates an expression to a finite number.
* `perform` carries out one instruction, up to its effect on the flow of control, which it returns
  as a `Signal`: going on, entering a body, or a jump.
-/

namespace PixelTurtle

/-- Why a body is run: a number of times that are left, until a condition holds, or once. -/
inductive FrameKind
  | count (remaining : Nat)
  | until (condition : Option Expr)
  | branch

/-- A body in progress. -/
structure Frame where
  kind : FrameKind
  body : List Instr
  /-- The instructions of the body that are still to be run. -/
  rest : List Instr
  line : Option Int

/-- The number of instructions of the body that have been started. -/
def Frame.index (f : Frame) : Nat :=
  f.body.length - f.rest.length

def Frame.isLoop (f : Frame) : Bool :=
  match f.kind with
  | .branch => false
  | _ => true

/-- A frame at the start of its body. -/
def Frame.enter (kind : FrameKind) (body : List Instr) (line : Option Int) : Frame :=
  ⟨kind, body, body, line⟩

/-- The effect of an instruction on the flow of control. -/
inductive Signal
  | next
  | moved
  | enter (f : Frame)
  | jump (j : Jump)

/-! ## Values -/

/-- Evaluates an expression, which must be there and have a finite value. -/
def number (q : Quantity) (line : Option Int) (e : Option Expr) : Action Float := do
  let s ← get
  match (e.getD (.foreign "NoneType")).evaluate s.vars with
  | .error err => throw (.expr err)
  | .ok x => if x.isFinite then pure x else fail (.notFinite q) line

/-- Whether the condition of a loop holds. -/
def holds (line : Option Int) (condition : Option Expr) : Action Bool := do
  let x ← number .until line condition
  return x != 0

/-- A degree in radians. -/
def degree : Float := 0.017453292519943295

/-- The direction of a heading: its cosine and its sine. -/
def direction (heading : Float) : Action (Float × Float) :=
  let angle := heading * degree
  if angle.isInf then throw .noDirection else pure (angle.cos, angle.sin)

/-! ## Instructions -/

/-- Moves the turtle, and draws if the pen is down. A way outside the language leads forward. -/
def move (o : Options) (way : Way) (e : Expr) (line : Option Int) : Action Unit := do
  let amount ← number .distance line e
  let distance := match way with
    | .back => -amount
    | _ => amount
  let s ← get
  let (x, y, heading, down) := (s.x, s.y, s.heading, s.penDown)
  let (dx, dy) ← direction heading
  let x := x + distance * dx
  let y := y + distance * dy
  if !(x.isFinite && y.isFinite) then fail (.notFinite .distance) line
  if down then drawLine o line x y
  modify fun s => { s with x := x, y := y }
  sync o
  let cell ← cellOf x y
  record o line (.move cell)

/-- Turns the turtle. A side outside the language is the right one. -/
def turn (o : Options) (side : Side) (e : Expr) (line : Option Int) : Action Unit := do
  let amount ← number .angle line e
  let delta := match side with
    | .left => -amount
    | _ => amount
  modify fun s => { s with heading := wrapHue (s.heading + delta) }
  let s ← get
  let heading := s.heading
  record o line (.turn heading)
  call o (.setHeading heading)

/-- Raises or lowers the pen. -/
def setPen (o : Options) (down : Bool) (line : Option Int) : Action Unit := do
  modify fun s => { s with penDown := down }
  record o line (.pen down)
  sync o

/-- Changes the color. -/
def setColor (o : Options) (h s v : HsvParam) (line : Option Int) : Action Unit := do
  let st ← get
  match Hsv.change st.vars st.color h s v with
  | .error f => fail (.param f) line
  | .ok color =>
    modify fun st => { st with color := color }
    record o line (.hsv color)

/-- Gives a variable a value. -/
def assign (name : String) (e : Expr) (reassign : Bool) (line : Option Int) : Action Unit := do
  let x ← number (.value name) line e
  let s ← get
  if reassign && (s.vars.get? name).isNone then fail (.undeclared name) line
  modify fun s => { s with vars := s.vars.set name x }

/-- Starts a loop. One that counts runs its body as often as the whole part of the count says, and
an empty body not at all. A mode outside the language waits for the condition. -/
def startLoop (mode : LoopMode) (count until? : Option Expr) (body : List Instr)
    (line : Option Int) : Action Signal :=
  match mode with
  | .count => do
    let x ← number .count line count
    match Number.floor x with
    | .error reason => throw (.noCell reason)
    | .ok times =>
      if 0 < times && !body.isEmpty then return .enter (.enter (.count times.toNat) body line)
      else return .next
  | _ => do
    if ← holds line until? then return .next
    else return .enter (.enter (.until until?) body line)

/-- Starts a conditional. -/
def startBranch (test : Expr) (body : List Instr) (line : Option Int) : Action Signal := do
  let x ← number .test line test
  if x != 0 && !body.isEmpty then return .enter (.enter .branch body line)
  else return .next

/-- What an instruction does once its step has been counted. -/
def effect (o : Options) : Instr → Action Signal
  | .move way e line => do
    move o way e line
    return .moved
  | .turn side e line => do
    turn o side e line
    return .moved
  | .pen state line => do
    setPen o (state == .down) line
    return .next
  | .hsv h s v line => do
    setColor o h s v line
    return .next
  | .assign name e reassign line => do
    assign name e reassign line
    return .next
  | .loop mode count until? body line => startLoop mode count until? body line
  | .branch test body line => startBranch test body line
  | .breakLoop _ => return .jump .breakLoop
  | .continueLoop _ => return .jump .continueLoop
  | .foreign kind => fail (.unknownInstr kind) none

/-- Carries out an instruction. One outside the language does not cost a step. -/
def perform (o : Options) (i : Instr) : Action Signal :=
  match i with
  | .foreign kind => fail (.unknownInstr kind) none
  | i => do
    tick o i.line
    effect o i

end PixelTurtle
