import PixelTurtle.Run.Perform

/-!
# The machine

A machine is a run that can be stopped between two instructions: the state of the run, the
instructions that are still to be started, and a stack of frames for the bodies in progress. One
event is an instruction, or the end of a body.

* `Machine.start` sets a program up.
* `Machine.step` runs one event.
* `Machine.advance` runs events until a movement has happened.
* `Machine.result` is what a run has come to.
-/

namespace PixelTurtle

/-- Whether a run goes on. -/
inductive Status
  | running
  | completed
  | failed
  deriving DecidableEq, Repr

/-- A run between two events. The innermost frame comes first. -/
structure Machine where
  rest : List Instr
  frames : List Frame
  state : RunState
  status : Status

/-- What an event came to. -/
inductive Event
  | idle
  | moved
  | ended
  | aborted (a : Abort)

/-- What a run has come to. -/
structure RunResult where
  final : Cell
  heading : Float
  penDown : Bool
  color : Hsv
  vars : Env
  operations : Array Operation
  completed : Bool
  steps : Nat

def varsJson (env : Env) : Json :=
  .obj (env.map fun (name, x) => (name, .real x))

def RunResult.toJson (r : RunResult) : Json :=
  .obj [("final_x", .int r.final.x), ("final_y", .int r.final.y),
    ("final_heading", .real r.heading), ("pen_down", .bool r.penDown), ("color", r.color.toJson),
    ("variables", varsJson r.vars),
    ("operations", .arr (r.operations.toList.map Operation.toJson)),
    ("completed", .bool r.completed), ("steps", .int r.steps)]

/-- The nearest loop around the innermost body, and the frames outside it. -/
def unwind : List Frame → Option (Frame × List Frame)
  | [] => none
  | f :: fs => if f.isLoop then some (f, fs) else unwind fs

namespace Machine

/-! ## Setting up -/

/-- What a renderer is told before the first instruction. -/
def greet (o : Options) : Action Unit := do
  if o.clear then call o .clearPixels
  sync o

/-- A machine before its first event, unless its renderer cannot be told where the pen is. -/
def start (o : Options) (program : List Instr) : Except (Abort × RunState) Machine :=
  match greet o (RunState.start o) with
  | .ok _ state => .ok ⟨program, [], state, .running⟩
  | .error a state => .error (a, state)

/-! ## Events -/

/-- The machine after an abort. A fault ends the run. -/
def abort (rest : List Instr) (frames : List Frame) (state : RunState) (a : Abort) :
    Machine × Event :=
  match a with
  | .fault .. => (⟨rest, frames, state, .failed⟩, .aborted a)
  | _ => (⟨rest, frames, state, .running⟩, .aborted a)

/-- The machine after a jump. -/
def jump (rest : List Instr) (frames : List Frame) (state : RunState) (j : Jump)
    (line : Option Int) : Machine × Event :=
  match unwind frames, j with
  | some (_, outer), .breakLoop => (⟨rest, outer, state, .running⟩, .idle)
  | some (loop, outer), .continueLoop =>
    (⟨rest, { loop with rest := [] } :: outer, state, .running⟩, .idle)
  | none, _ => abort rest frames state (.fault (.outsideLoop j) line)

/-- Runs the instruction `i`, where `rest` and `frames` are what comes after it. -/
def execute (o : Options) (i : Instr) (rest : List Instr) (frames : List Frame)
    (state : RunState) : Machine × Event :=
  match perform o i state with
  | .error a state => abort rest frames state a
  | .ok .next state => (⟨rest, frames, state, .running⟩, .idle)
  | .ok .moved state => (⟨rest, frames, state, .running⟩, .moved)
  | .ok (.enter f) state => (⟨rest, f :: frames, state, .running⟩, .idle)
  | .ok (.jump j) state => jump rest frames state j i.line

/-- Runs a body of a loop once more, which costs a step. -/
def rewind (o : Options) (f : Frame) (rest : List Instr) (frames : List Frame)
    (state : RunState) : Machine × Event :=
  match tick o f.line state with
  | .ok _ state => (⟨rest, { f with rest := f.body } :: frames, state, .running⟩, .idle)
  | .error a state => abort rest (f :: frames) state a

/-- Ends the body of the frame `f`, whose instructions have all been run. -/
def endBody (o : Options) (f : Frame) (rest : List Instr) (frames : List Frame)
    (state : RunState) : Machine × Event :=
  match f.kind with
  | .count (n + 2) => rewind o { f with kind := .count (n + 1) } rest frames state
  | .count _ => (⟨rest, frames, state, .running⟩, .idle)
  | .until condition =>
    match holds f.line condition state with
    | .ok true state => (⟨rest, frames, state, .running⟩, .idle)
    | .ok false state => rewind o f rest frames state
    | .error a state => abort rest (f :: frames) state a
  | .branch => (⟨rest, frames, state, .running⟩, .idle)

/-- Runs one event. A run that is over stays as it is. -/
def step (o : Options) : Machine → Machine × Event
  | ⟨rest, frames, state, .running⟩ =>
    match frames, rest with
    | [], [] => (⟨[], [], state, .completed⟩, .ended)
    | [], i :: rest => execute o i rest [] state
    | f :: frames, rest =>
      match f.rest with
      | [] => endBody o f rest frames state
      | i :: after => execute o i rest ({ f with rest := after } :: frames) state
  | m => (m, .ended)

/-! ## Runs -/

/-- How a part of a run ended. -/
inductive Progress
  | moved
  | ended
  | aborted (a : Abort)
  /-- The events that were allowed did not suffice. -/
  | unfinished

/-- Runs at most `n` events, until a movement has happened. -/
def advance (o : Options) : Nat → Machine → Machine × Progress
  | 0, m => (m, .unfinished)
  | n + 1, m =>
    match step o m with
    | (m, .idle) => advance o n m
    | (m, .moved) => (m, .moved)
    | (m, .ended) => (m, .ended)
    | (m, .aborted a) => (m, .aborted a)

/-- Enough events to run a machine to its end: within a step budget every event but the end of a
last iteration costs a step, and each of these ends a body that cost one. Without a budget no number
is enough for every machine. -/
def patience (o : Options) (m : Machine) : Nat :=
  match o.maxSteps with
  | some n => 2 * n.toNat + m.frames.length + 4
  | none => 1 <<< 62

/-- Ends a run from outside. -/
def cancel : Machine → Machine
  | ⟨rest, frames, state, .running⟩ => ⟨rest, frames, state, .failed⟩
  | m => m

/-! ## Observations -/

/-- Whether a run is over. -/
def isDone (m : Machine) : Bool :=
  m.status != .running

/-- The cell of the turtle. -/
def position (m : Machine) : Except Number.NoInteger Cell :=
  Cell.ofPoint m.state.x m.state.y

/-- What a run has come to so far. -/
def result (m : Machine) : Except Number.NoInteger RunResult := do
  let cell ← m.position
  let s := m.state
  return {
    final := cell
    heading := s.heading
    penDown := s.penDown
    color := s.color
    vars := s.vars
    operations := s.log
    completed := m.status == .completed
    steps := s.steps }

/-- The turtle, the variables and the log. -/
def stateJson (m : Machine) : Except Number.NoInteger Json := do
  let cell ← m.position
  let s := m.state
  return .obj [("x", .int cell.x), ("y", .int cell.y), ("heading", .real s.heading),
    ("pen_down", .bool s.penDown), ("color", s.color.toJson), ("variables", varsJson s.vars),
    ("operations", .arr (s.log.toList.map Operation.toJson))]

end Machine

end PixelTurtle
