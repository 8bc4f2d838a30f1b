import PixelTurtle.Proofs.Action
import PixelTurtle.Run.Machine

/-!
# Events as actions

An event of a machine runs one action on the state of the run, and what becomes of the rest of the
machine depends on how the action ended, not on the state. So a question about events is one about
four kinds of actions.

* `Landing` is where an event leads, its state apart.
* `Plan` is an action with a landing for every way to end, and `Machine.plan` the plan of the next
  event. `Machine.step_eq_plan` says that the event goes by its plan.
* `Machine.action_plan` lists the actions: nothing, an instruction, the step of a further round, and
  the condition of a loop.
-/

namespace PixelTurtle

/-! ## Plans -/

/-- Where an event leads, its state apart. -/
structure Landing where
  rest : List Instr
  frames : List Frame
  status : Status
  event : Event

namespace Landing

/-- The machine in a state, and the event. -/
def inState (l : Landing) (s : RunState) : Machine × Event :=
  (⟨l.rest, l.frames, s, l.status⟩, l.event)

/-- Where an abort leads. A fault ends the run. -/
def abort (rest : List Instr) (frames : List Frame) (a : Abort) : Landing where
  rest := rest
  frames := frames
  status :=
    match a with
    | .fault .. => .failed
    | _ => .running
  event := .aborted a

/-- Where a run goes on. -/
def goesOn (rest : List Instr) (frames : List Frame) : Landing :=
  ⟨rest, frames, .running, .idle⟩

/-- Where a jump leads. -/
def jump (rest : List Instr) (frames : List Frame) (j : Jump) (line : Option Int) : Landing :=
  match unwind frames, j with
  | some (_, outer), .breakLoop => goesOn rest outer
  | some (loop, outer), .continueLoop => goesOn rest ({ loop with rest := [] } :: outer)
  | none, _ => abort rest frames (.fault (.outsideLoop j) line)

/-- Where a signal leads. -/
def signal (rest : List Instr) (frames : List Frame) (line : Option Int) : Signal → Landing
  | .next => goesOn rest frames
  | .moved => ⟨rest, frames, .running, .moved⟩
  | .enter f => goesOn rest (f :: frames)
  | .jump j => jump rest frames j line

end Landing

/-- An action, where its values lead, and what is left to run if it aborts. -/
structure Plan where
  Value : Type
  action : Options → Action Value
  value : Value → Landing
  rest : List Instr
  frames : List Frame

/-- Where the end of the action leads. -/
def Plan.land (p : Plan) : EStateM.Result Abort RunState p.Value → Machine × Event
  | .ok a s => (p.value a).inState s
  | .error e s => (Landing.abort p.rest p.frames e).inState s

/-- Carries a plan out. -/
def Plan.run (p : Plan) (o : Options) (s : RunState) : Machine × Event :=
  p.land (p.action o s)

/-- Waits for the condition of a loop: tells whether it holds, and counts the step of a further
round if it does not. -/
def await (line : Option Int) (condition : Option Expr) (o : Options) : Action Bool := do
  if ← holds line condition then return true
  else
    tick o line
    return false

namespace Plan

/-- Does nothing. -/
def idle (l : Landing) : Plan :=
  ⟨Unit, fun _ => pure (), fun _ => l, l.rest, l.frames⟩

/-- Runs the instruction `i`, where `rest` and `frames` are what comes after it. -/
def execute (i : Instr) (rest : List Instr) (frames : List Frame) : Plan :=
  ⟨Signal, fun o => perform o i, Landing.signal rest frames i.line, rest, frames⟩

/-- Ends the body of the frame `f`. -/
def endBody (f : Frame) (rest : List Instr) (frames : List Frame) : Plan :=
  let again (f : Frame) : Landing := .goesOn rest ({ f with rest := f.body } :: frames)
  match f.kind with
  | .count (n + 2) =>
    let f := { f with kind := .count (n + 1) }
    ⟨Unit, fun o => tick o f.line, fun _ => again f, rest, f :: frames⟩
  | .until condition =>
    ⟨Bool, await f.line condition, fun done => if done then .goesOn rest frames else again f, rest,
      f :: frames⟩
  | _ => idle (.goesOn rest frames)

end Plan

namespace Machine

/-- The plan of the next event. -/
def plan : Machine → Plan
  | ⟨rest, frames, _, .running⟩ =>
    match frames, rest with
    | [], [] => .idle ⟨[], [], .completed, .ended⟩
    | [], i :: rest => .execute i rest []
    | f :: frames, rest =>
      match f.rest with
      | [] => .endBody f rest frames
      | i :: after => .execute i rest ({ f with rest := after } :: frames)
  | ⟨rest, frames, _, status⟩ => .idle ⟨rest, frames, status, .ended⟩

/-! ## Events go by their plans -/

variable {o : Options} {m : Machine}

theorem abort_eq_inState (rest : List Instr) (frames : List Frame) (s : RunState) (a : Abort) :
    abort rest frames s a = (Landing.abort rest frames a).inState s := by
  cases a with
  | _ => rfl

theorem jump_eq_inState (rest : List Instr) (frames : List Frame) (s : RunState) (j : Jump)
    (line : Option Int) :
    jump rest frames s j line = (Landing.jump rest frames j line).inState s := by
  unfold jump Landing.jump
  cases unwind frames with
  | none => exact abort_eq_inState ..
  | some loop =>
    cases j with
    | breakLoop => rfl
    | continueLoop => rfl

theorem execute_eq_run (o : Options) (i : Instr) (rest : List Instr) (frames : List Frame)
    (s : RunState) : execute o i rest frames s = (Plan.execute i rest frames).run o s := by
  unfold execute Plan.run Plan.land Plan.execute
  dsimp only
  cases perform o i s with
  | error a s => exact abort_eq_inState ..
  | ok signal s =>
    cases signal with
    | jump j => exact jump_eq_inState ..
    | _ => rfl

theorem rewind_eq (o : Options) (f : Frame) (rest : List Instr) (frames : List Frame)
    (s : RunState) :
    rewind o f rest frames s =
      match tick o f.line s with
      | .ok _ s => (Landing.goesOn rest ({ f with rest := f.body } :: frames)).inState s
      | .error a s => (Landing.abort rest (f :: frames) a).inState s := by
  unfold rewind
  cases tick o f.line s with
  | ok _ s => rfl
  | error a s => exact abort_eq_inState ..

theorem await_eq (line : Option Int) (condition : Option Expr) (s : RunState) :
    await line condition o s =
      match holds line condition s with
      | .ok true s => .ok true s
      | .ok false s =>
        match tick o line s with
        | .ok _ s => .ok false s
        | .error a s => .error a s
      | .error a s => .error a s := by
  show EStateM.bind (holds line condition) _ s = _
  rw [EStateM.bind]
  cases holds line condition s with
  | error a s => rfl
  | ok b s =>
    cases b with
    | true => rfl
    | false =>
      dsimp only
      show EStateM.bind (tick o line) _ s = _
      rw [EStateM.bind]
      cases tick o line s with
      | ok _ s => rfl
      | error a s => rfl

theorem endBody_eq_run (o : Options) (f : Frame) (rest : List Instr) (frames : List Frame)
    (s : RunState) : endBody o f rest frames s = (Plan.endBody f rest frames).run o s := by
  obtain ⟨kind, body, left, line⟩ := f
  cases kind with
  | branch => rfl
  | count n =>
    match n with
    | 0 => rfl
    | 1 => rfl
    | n + 2 =>
      show rewind o ⟨.count (n + 1), body, left, line⟩ rest frames s = _
      rw [rewind_eq]
      unfold Plan.run Plan.land Plan.endBody
      dsimp only
      cases tick o line s with
      | ok _ s => rfl
      | error a s => rfl
  | «until» condition =>
    unfold endBody Plan.run Plan.land Plan.endBody
    dsimp only
    rw [await_eq]
    cases holds line condition s with
    | error a s => exact abort_eq_inState ..
    | ok b s =>
      cases b with
      | true => rfl
      | false =>
        dsimp only
        rw [rewind_eq]
        dsimp only
        cases tick o line s with
        | ok _ s => rfl
        | error a s => rfl

/-- **An event goes by its plan.** -/
theorem step_eq_plan (o : Options) (m : Machine) : m.step o = m.plan.run o m.state := by
  obtain ⟨rest, frames, s, status⟩ := m
  cases status with
  | running =>
    match frames, rest with
    | [], [] => rfl
    | [], i :: rest => exact execute_eq_run ..
    | f :: frames, rest =>
      obtain ⟨kind, body, left, line⟩ := f
      cases left with
      | nil => exact endBody_eq_run ..
      | cons i left => exact execute_eq_run ..
  | completed => rfl
  | failed => rfl

/-- **What holds of the four kinds of actions holds of the action of an event.** -/
theorem action_plan {P : ∀ {α : Type}, (Options → Action α) → Prop}
    (nothing : P fun _ => (pure () : Action Unit)) (instr : ∀ i, P fun o => perform o i)
    (again : ∀ line, P fun o => tick o line) (until' : ∀ line condition, P (await line condition))
    (m : Machine) : P m.plan.action := by
  obtain ⟨rest, frames, s, status⟩ := m
  cases status with
  | running =>
    match frames, rest with
    | [], [] => exact nothing
    | [], i :: rest => exact instr i
    | f :: frames, rest =>
      obtain ⟨kind, body, left, line⟩ := f
      cases left with
      | cons i left => exact instr i
      | nil =>
        cases kind with
        | branch => exact nothing
        | «until» condition => exact until' line condition
        | count n =>
          match n with
          | 0 => exact nothing
          | 1 => exact nothing
          | n + 2 => exact again line
  | completed => exact nothing
  | failed => exact nothing

end Machine

end PixelTurtle
