import PixelTurtle.Iterate
import PixelTurtle.Run.Machine

/-!
# Engines

Three engines run a program to the same result. They differ in what happens between two movements.
A run without a step budget need not end, and then an engine has no answer to wait for.

* `Machine.proceed` runs a machine up to its next movement, `Machine.finish` to its end.
* `interpret` runs a program in one go.
* `interpretAsync` pauses after every movement, and looks before and after the pause whether the
  host has cancelled the run.
* `Machine.stepOnce` and `Machine.positions` let a host make one movement at a time.
* `Failure` is how a run fails; a fault comes with what the run has come to.
-/

namespace PixelTurtle

/-- How a run fails. -/
inductive Failure
  | runtime (f : Fault) (line : Option Int) (result : RunResult)
  | expr (e : EvalError)
  | noDirection
  | noCell (reason : Number.NoInteger)
  /-- A run without a step budget that never ends. -/
  | unfinished

/-- A run that is over: how it ended, and the state it left behind. -/
structure Run where
  outcome : Except Failure RunResult
  state : RunState

namespace Machine

/-- The failure of a run that was aborted. Without a cell for the turtle there is no result, and
that failure comes in place of the fault. -/
def failure (m : Machine) : Abort → Failure
  | .fault f line =>
    match m.result with
    | .ok r => .runtime f line r
    | .error reason => .noCell reason
  | .expr e => .expr e
  | .noDirection => .noDirection
  | .noCell reason => .noCell reason

/-- What a run has come to, as an outcome. -/
def success (m : Machine) : Except Failure RunResult :=
  match m.result with
  | .ok r => .ok r
  | .error reason => .error (.noCell reason)

/-- How a run ended, given how its last part did. -/
def outcome (m : Machine) : Progress → Except Failure RunResult
  | .aborted a => .error (m.failure a)
  | .unfinished => .error .unfinished
  | _ => m.success

/-- Runs as many events as it takes if there is a budget, and tells whether they sufficed for the
next movement. -/
def proceedStep (o : Options) (m : Machine) : Option (Machine ⊕ (Machine × Progress)) :=
  match m.advance o (m.patience o) with
  | (m, .unfinished) => some (.inl m)
  | (m, p) => some (.inr (m, p))

/-- Runs up to the next movement or to the end, if either ever comes. -/
def proceed (o : Options) (m : Machine) : Option (Machine × Progress) :=
  iterate (proceedStep o) m

/-- Runs up to the next movement, and tells whether there was one. -/
def finishStep (o : Options) (m : Machine) : Option (Machine ⊕ (Machine × Progress)) :=
  match m.proceed o with
  | none => none
  | some (m, .moved) => some (.inl m)
  | some (m, p) => some (.inr (m, p))

/-- Makes one movement after the other, up to the end, if it ever comes. -/
def finish (o : Options) (m : Machine) : Option (Machine × Progress) :=
  iterate (finishStep o) m

end Machine

/-- The run of a program that could not be set up. -/
def Run.notStarted (a : Abort) (state : RunState) : Run :=
  ⟨.error (Machine.failure ⟨[], [], state, .failed⟩ a), state⟩

/-- A run that never ends. It has no last state, and keeps the first one in its place. -/
def Run.endless (state : RunState) : Run :=
  ⟨.error .unfinished, state⟩

/-- Runs a program in one go. -/
def interpret (o : Options) (program : List Instr) : Run :=
  match Machine.start o program with
  | .error (a, state) => .notStarted a state
  | .ok m =>
    match m.finish o with
    | some (m, p) => ⟨m.outcome p, m.state⟩
    | none => .endless m.state

/-! ## Pausing after every movement -/

/-- A moment at which the host may have cancelled a run. -/
structure Checkpoint where
  /-- The number of movements so far. -/
  movements : Nat
  /-- Whether the pause after the last movement is over. -/
  paused : Bool
  /-- The number of reported pixels so far. -/
  pixels : Nat

/-- Whether the host has cancelled the run at a checkpoint. -/
abbrev CancelSignal := Checkpoint → Bool

/-- A run with pauses, and how many there were. -/
structure AsyncRun where
  run : Run
  pauses : Nat

/-- The run of a machine that was cancelled. -/
def Machine.cancelled (m : Machine) : Run :=
  let m := m.cancel
  ⟨.error (m.failure (.fault .cancelled none)), m.state⟩

/-- Runs a machine up to the next movement and pauses, unless the run has been cancelled. There were
`pauses` so far. -/
def Machine.asyncStep (o : Options) (signal : CancelSignal) :
    Nat × Machine → Option ((Nat × Machine) ⊕ AsyncRun)
  | (pauses, m) =>
    match m.proceed o with
    | none => none
    | some (m, .moved) =>
      let pixels := m.state.pixels.size
      if signal ⟨pauses + 1, false, pixels⟩ then some (.inr ⟨m.cancelled, pauses⟩)
      else if signal ⟨pauses + 1, true, pixels⟩ then some (.inr ⟨m.cancelled, pauses + 1⟩)
      else some (.inl (pauses + 1, m))
    | some (m, p) => some (.inr ⟨⟨m.outcome p, m.state⟩, pauses⟩)

/-- Runs a machine with a pause after every movement, of which there were `pauses` so far. -/
def Machine.runAsync (o : Options) (signal : CancelSignal) (pauses : Nat) (m : Machine) :
    Option AsyncRun :=
  iterate (asyncStep o signal) (pauses, m)

/-- Runs a program with a pause after every movement. -/
def interpretAsync (o : Options) (signal : CancelSignal) (program : List Instr) : AsyncRun :=
  match Machine.start o program with
  | .error (a, state) => ⟨.notStarted a state, 0⟩
  | .ok m => (m.runAsync o signal 0).getD ⟨.endless m.state, 0⟩

/-! ## One movement at a time -/

namespace Machine

/-- Runs up to the next movement; tells whether there was one. -/
def stepOnce (o : Options) (m : Machine) : Machine × Except Failure Bool :=
  match m.proceed o with
  | some (m, .moved) => (m, .ok true)
  | some (m, .ended) => (m, .ok false)
  | some (m, .aborted a) => (m, .error (m.failure a))
  | _ => (m, .error .unfinished)

/-- What a run has come to, once it is over. -/
def result? (m : Machine) : Except Number.NoInteger (Option RunResult) :=
  if m.isDone then m.result.map some else .ok none

/-- The cell and the heading after each of the next `n` movements, the earlier ones in reverse. -/
def positionsFrom (o : Options) (seen : List (Cell × Float)) :
    Nat → Machine → Machine × Except Failure (List (Cell × Float))
  | 0, m => (m, .ok seen.reverse)
  | n + 1, m =>
    match m.stepOnce o with
    | (m, .ok true) =>
      match m.position with
      | .ok cell => positionsFrom o ((cell, m.state.heading) :: seen) n m
      | .error reason => (m, .error (.noCell reason))
    | (m, .ok false) => (m, .ok seen.reverse)
    | (m, .error e) => (m, .error e)

/-- The cell and the heading after each of the next `n` movements. -/
def positions (o : Options) (n : Nat) (m : Machine) :
    Machine × Except Failure (List (Cell × Float)) :=
  m.positionsFrom o [] n

/-- Makes one movement, unless the run is over. -/
def steppingStep (o : Options) (m : Machine) : Option (Machine ⊕ Run) :=
  match m.stepOnce o with
  | (m, .ok true) => some (.inl m)
  | (m, .ok false) => some (.inr ⟨m.success, m.state⟩)
  | (_, .error .unfinished) => none
  | (m, .error e) => some (.inr ⟨.error e, m.state⟩)

/-- Steps a machine to its end, if it ever comes. -/
def stepToEnd (o : Options) (m : Machine) : Option Run :=
  iterate (steppingStep o) m

end Machine

/-- Runs a program one movement at a time. -/
def interpretStepping (o : Options) (program : List Instr) : Run :=
  match Machine.start o program with
  | .error (a, state) => .notStarted a state
  | .ok m => (m.stepToEnd o).getD (.endless m.state)

end PixelTurtle
