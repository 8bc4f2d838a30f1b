import PixelTurtle.Proofs.Outcomes
import PixelTurtle.Proofs.Reachable

/-!
# How an event ends

An event of a machine is an instruction, or the end of a body. With the ways in which an instruction
can end, all that an event can come to is listed here. Whatever is to be known of an event follows
from the list.

* `Machine.Fetches` is a machine that starts an instruction, `Frame.Repeats` a frame that makes a
  further round.
* `Machine.Comes` is what an event can come to, and `comes_step` says that the list is complete.
  `Machine.Comes.state_of` is what follows for the state, and `Machine.Aborts` for what is aborted.
* `start_of_cell` and `start_of_astray` say the same of setting up.
-/

namespace PixelTurtle

/-! ## Setting up -/

section Start

variable {o : Options} {m₀ : Machine}

/-- The state of a run in which the renderer was cleared, if that is wanted. -/
def RunState.cleared (o : Options) : RunState :=
  if o.clear then (RunState.start o).heard o .clearPixels else .start o

theorem greet_eq (o : Options) : Machine.greet o (.start o) = sync o (.cleared o) := by
  unfold Machine.greet RunState.cleared
  cases o.clear with
  | false => rfl
  | true =>
    show EStateM.bind (call o .clearPixels) _ _ = _
    rw [EStateM.bind, call_eq_heard]
    rfl

theorem cleared_eq (o : Options) :
    ∃ calls, RunState.cleared o = { RunState.start o with calls := calls } := by
  unfold RunState.cleared
  split_ifs
  · exact ⟨_, rfl⟩
  · exact ⟨_, rfl⟩

/-- A turtle that starts in a cell can be set up, and the renderer is told where it is. -/
theorem start_of_cell {cell : Cell} (h : Cell.ofPoint o.startX o.startY = .ok cell)
    (program : List Instr) :
    Machine.start o program = .ok ⟨program, [], (RunState.cleared o).told o cell, .running⟩ := by
  obtain ⟨calls, hcalls⟩ := cleared_eq o
  rw [Machine.start, greet_eq, sync_of_cell o (.cleared o) (by rw [hcalls]; exact h)]

/-- A turtle that does not start in a cell can be set up only without a renderer. -/
theorem start_of_astray {reason : Number.NoInteger}
    (h : Cell.ofPoint o.startX o.startY = .error reason) (program : List Instr) :
    Machine.start o program =
      if o.renderer.isSome then .error (.noCell reason, .cleared o)
      else .ok ⟨program, [], .cleared o, .running⟩ := by
  obtain ⟨calls, hcalls⟩ := cleared_eq o
  rw [Machine.start, greet_eq, sync_of_astray o (.cleared o) (by rw [hcalls]; exact h)]
  cases o.renderer.isSome with
  | true => rfl
  | false => rfl

/-- Setting up only tells the renderer about the turtle. -/
theorem exists_calls_of_start {program : List Instr} (h : Machine.start o program = .ok m₀) :
    ∃ calls, m₀.state = { RunState.start o with calls := calls } := by
  obtain ⟨calls, hcalls⟩ := cleared_eq o
  cases hcell : Cell.ofPoint o.startX o.startY with
  | ok cell =>
    rw [start_of_cell hcell, hcalls] at h
    cases h
    exact ⟨_, rfl⟩
  | error reason =>
    rw [start_of_astray hcell, hcalls] at h
    split_ifs at h
    cases h
    exact ⟨calls, rfl⟩

end Start

/-! ## Events -/

/-- `m.Fetches i rest frames`: the next event of `m` starts the instruction `i`, and `rest` and
`frames` are what comes after it. -/
inductive Machine.Fetches : Machine → Instr → List Instr → List Frame → Prop
  | top {i : Instr} {rest : List Instr} {s : RunState} :
    Fetches ⟨i :: rest, [], s, .running⟩ i rest []
  | inside {i : Instr} {kind : FrameKind} {body left rest : List Instr} {line : Option Int}
    {frames : List Frame} {s : RunState} :
    Fetches ⟨rest, ⟨kind, body, i :: left, line⟩ :: frames, s, .running⟩ i rest
      (⟨kind, body, left, line⟩ :: frames)

/-- At the end of its body the frame `f` makes a further round, as the frame `g`. One that counts
has a round less to make. -/
inductive Frame.Repeats : Frame → Frame → Prop
  | count {n : Nat} {body left : List Instr} {line : Option Int} :
    Repeats ⟨.count (n + 2), body, left, line⟩ ⟨.count (n + 1), body, left, line⟩
  | until {condition : Option Expr} {body left : List Instr} {line : Option Int} :
    Repeats ⟨.until condition, body, left, line⟩ ⟨.until condition, body, left, line⟩

/-- `m.Comes o r`: the next event of `m` can come to `r`, a machine and an event. -/
inductive Machine.Comes (o : Options) : Machine → Machine × Event → Prop
  | halted {m : Machine} : m.status ≠ .running → Comes o m (m, .ended)
  | completed {s : RunState} : Comes o ⟨[], [], s, .running⟩ (⟨[], [], s, .completed⟩, .ended)
  | aborted {m : Machine} {i : Instr} {rest : List Instr} {frames : List Frame} {a : Abort}
    {s : RunState} : m.Fetches i rest frames → i.Aborts o m.state a s →
    Comes o m (abort rest frames s a)
  | next {m : Machine} {i : Instr} {rest : List Instr} {frames : List Frame} {s : RunState} :
    m.Fetches i rest frames → o.allows (m.state.steps + 1) = true →
    i.Completes o m.state.ticked .next s →
    Comes o m (⟨rest, frames, s, .running⟩, .idle)
  | moved {m : Machine} {i : Instr} {rest : List Instr} {frames : List Frame} {s : RunState} :
    m.Fetches i rest frames → o.allows (m.state.steps + 1) = true →
    i.Completes o m.state.ticked .moved s →
    Comes o m (⟨rest, frames, s, .running⟩, .moved)
  | enter {m : Machine} {i : Instr} {rest : List Instr} {frames : List Frame} {f : Frame}
    {s : RunState} : m.Fetches i rest frames → o.allows (m.state.steps + 1) = true →
    i.Completes o m.state.ticked (.enter f) s →
    Comes o m (⟨rest, f :: frames, s, .running⟩, .idle)
  | breakLoop {m : Machine} {i : Instr} {rest : List Instr} {frames outer : List Frame}
    {loop : Frame} {s : RunState} : m.Fetches i rest frames →
    o.allows (m.state.steps + 1) = true → i.Completes o m.state.ticked (.jump .breakLoop) s →
    unwind frames = some (loop, outer) →
    Comes o m (⟨rest, outer, s, .running⟩, .idle)
  | continueLoop {m : Machine} {i : Instr} {rest : List Instr} {frames outer : List Frame}
    {loop : Frame} {s : RunState} : m.Fetches i rest frames →
    o.allows (m.state.steps + 1) = true → i.Completes o m.state.ticked (.jump .continueLoop) s →
    unwind frames = some (loop, outer) →
    Comes o m (⟨rest, { loop with rest := [] } :: outer, s, .running⟩, .idle)
  | outsideLoop {m : Machine} {i : Instr} {rest : List Instr} {frames : List Frame} {j : Jump}
    {s : RunState} : m.Fetches i rest frames → o.allows (m.state.steps + 1) = true →
    i.Completes o m.state.ticked (.jump j) s → unwind frames = none →
    Comes o m (abort rest frames s (.fault (.outsideLoop j) i.line))
  | left {rest : List Instr} {f : Frame} {frames : List Frame} {s : RunState} : f.rest = [] →
    Comes o ⟨rest, f :: frames, s, .running⟩ (⟨rest, frames, s, .running⟩, .idle)
  | again {rest : List Instr} {f g : Frame} {frames : List Frame} {s : RunState} : f.rest = [] →
    f.Repeats g → o.allows (s.steps + 1) = true →
    Comes o ⟨rest, f :: frames, s, .running⟩
      (⟨rest, { g with rest := g.body } :: frames, s.ticked, .running⟩, .idle)
  | outOfSteps {rest : List Instr} {f g : Frame} {frames : List Frame} {s : RunState} :
    f.rest = [] → f.Repeats g → o.allows (s.steps + 1) = false →
    Comes o ⟨rest, f :: frames, s, .running⟩
      (abort rest (g :: frames) s.ticked (.fault .stepLimit g.line))
  | unread {rest : List Instr} {f : Frame} {frames : List Frame} {s : RunState}
    {condition : Option Expr} {a : Abort} : f.rest = [] → f.kind = .until condition →
    Unread s.vars .until f.line condition a →
    Comes o ⟨rest, f :: frames, s, .running⟩ (abort rest (f :: frames) s a)

section Events

variable {o : Options} {m : Machine} {i : Instr} {rest : List Instr} {frames : List Frame}

theorem Machine.Fetches.next? (h : m.Fetches i rest frames) : m.next? = some i := by
  cases h with
  | _ => rfl

theorem Machine.Fetches.status (h : m.Fetches i rest frames) : m.status = .running := by
  cases h with
  | _ => rfl

namespace Machine

variable (rest : List Instr) (frames : List Frame) (s : RunState) (a : Abort)

@[simp] theorem abort_rest : (abort rest frames s a).1.rest = rest := by
  cases a with
  | _ => rfl

@[simp] theorem abort_frames : (abort rest frames s a).1.frames = frames := by
  cases a with
  | _ => rfl

@[simp] theorem abort_state : (abort rest frames s a).1.state = s := by
  cases a with
  | _ => rfl

@[simp] theorem abort_event : (abort rest frames s a).2 = .aborted a := by
  cases a with
  | _ => rfl

end Machine

theorem Machine.Fetches.comes_execute (h : m.Fetches i rest frames) :
    m.Comes o (execute o i rest frames m.state) := by
  have hends := perform_ends o m.state i
  rw [Ensures] at hends
  unfold Machine.execute
  cases hp : perform o i m.state with
  | error a s =>
    rw [hp] at hends
    exact .aborted h hends
  | ok signal s =>
    rw [hp] at hends
    obtain ⟨hstep, hdone⟩ := hends
    cases signal with
    | next => exact .next h hstep hdone
    | moved => exact .moved h hstep hdone
    | enter f => exact .enter h hstep hdone
    | jump j =>
      simp only [Machine.jump]
      cases hunwind : unwind frames with
      | none => exact .outsideLoop h hstep hdone hunwind
      | some target =>
        obtain ⟨loop, outer⟩ := target
        cases j with
        | breakLoop => exact .breakLoop h hstep hdone hunwind
        | continueLoop => exact .continueLoop h hstep hdone hunwind

theorem Frame.Repeats.comes_rewind {f g : Frame} (h : f.Repeats g) (hrest : f.rest = [])
    (s : RunState) :
    Machine.Comes o ⟨rest, f :: frames, s, .running⟩ (Machine.rewind o g rest frames s) := by
  unfold Machine.rewind
  rw [tick_eq]
  cases hstep : o.allows (s.steps + 1) with
  | true => exact .again hrest h hstep
  | false => exact .outOfSteps hrest h hstep

theorem comes_endBody {f : Frame} (hrest : f.rest = []) (s : RunState) :
    Machine.Comes o ⟨rest, f :: frames, s, .running⟩ (Machine.endBody o f rest frames s) := by
  obtain ⟨kind, body, left, line⟩ := f
  cases kind with
  | branch => exact .left hrest
  | count n =>
    match n with
    | 0 => exact .left hrest
    | 1 => exact .left hrest
    | n + 2 => exact Frame.Repeats.count.comes_rewind hrest s
  | «until» condition =>
    have hends : Ensures (holds line condition) s (fun _ s' => s' = s)
        fun a s' => s' = s ∧ Unread s.vars .until line condition a :=
      ensures_holds (fun _ => rfl) fun _ ha => ⟨rfl, ha⟩
    rw [Ensures] at hends
    unfold Machine.endBody
    simp only
    cases hholds : holds line condition s with
    | error a s' =>
      rw [hholds] at hends
      obtain ⟨rfl, ha⟩ := hends
      exact .unread hrest rfl ha
    | ok b s' =>
      rw [hholds] at hends
      subst hends
      cases b with
      | true => exact .left hrest
      | false => exact Frame.Repeats.until.comes_rewind hrest s'

/-- **Every event comes to one of these.** -/
theorem comes_step (o : Options) (m : Machine) : m.Comes o (m.step o) := by
  by_cases hrun : m.status = .running
  · obtain ⟨rest, frames, s, status⟩ := m
    subst hrun
    match frames, rest with
    | [], [] => exact .completed
    | [], i :: rest => exact Machine.Fetches.top.comes_execute
    | f :: frames, rest =>
      obtain ⟨kind, body, left, line⟩ := f
      cases left with
      | nil => exact comes_endBody rfl s
      | cons i left => exact Machine.Fetches.inside.comes_execute
  · rw [Machine.step_of_status_ne hrun]
    exact .halted hrun

/-- **What the state can come to.** An event leaves it as it is, counts a step, carries an
instruction out or aborts one. -/
theorem Machine.Comes.state_of {r : Machine × Event} (h : m.Comes o r) {I : RunState → Prop}
    (same : I m.state) (ticked : I m.state.ticked)
    (completes : ∀ i signal s, m.next? = some i → i.Completes o m.state.ticked signal s → I s)
    (aborts : ∀ i a s, m.next? = some i → i.Aborts o m.state a s → I s) : I r.1.state := by
  cases h with
  | halted _ => exact same
  | completed => exact same
  | aborted hfetch haborts => exact abort_state .. ▸ aborts _ _ _ hfetch.next? haborts
  | next hfetch _ hdone => exact completes _ _ _ hfetch.next? hdone
  | moved hfetch _ hdone => exact completes _ _ _ hfetch.next? hdone
  | enter hfetch _ hdone => exact completes _ _ _ hfetch.next? hdone
  | breakLoop hfetch _ hdone _ => exact completes _ _ _ hfetch.next? hdone
  | continueLoop hfetch _ hdone _ => exact completes _ _ _ hfetch.next? hdone
  | outsideLoop hfetch _ hdone _ => exact abort_state .. ▸ completes _ _ _ hfetch.next? hdone
  | left _ => exact same
  | again _ _ _ => exact ticked
  | outOfSteps _ _ _ => exact abort_state .. ▸ ticked
  | unread _ _ _ => exact abort_state .. ▸ same

/-- Why an event of the machine `m` can be aborted, and what it leaves of the state: it is an
instruction that is aborted or jumps outside all loops, or the end of a body whose loop has no step
for a further round or no value for its condition. -/
inductive Machine.Aborts (o : Options) (m : Machine) : Abort → RunState → Prop
  | instr {i : Instr} {a : Abort} {s : RunState} : m.next? = some i → i.Aborts o m.state a s →
    Aborts o m a s
  | outsideLoop {i : Instr} {j : Jump} : m.next? = some i →
    Aborts o m (.fault (.outsideLoop j) i.line) m.state.ticked
  | outOfSteps {line : Option Int} : m.next? = none →
    Aborts o m (.fault .stepLimit line) m.state.ticked
  | unread {line : Option Int} {condition : Option Expr} {a : Abort} : m.next? = none →
    Unread m.state.vars .until line condition a → Aborts o m a m.state

theorem Instr.Completes.of_jump {s s' : RunState} {j : Jump} (h : i.Completes o s (.jump j) s') :
    s' = s := by
  cases h with
  | _ => rfl

/-- A machine at the end of a body starts no instruction. -/
theorem next?_of_rest_eq_nil {f : Frame} (h : f.rest = []) (s : RunState) :
    Machine.next? ⟨rest, f :: frames, s, .running⟩ = none :=
  congrArg List.head? h

/-- **What is aborted, and why.** -/
theorem Machine.Comes.aborts {r : Machine × Event} (h : m.Comes o r) {a : Abort}
    (ha : r.2 = .aborted a) :
    m.Aborts o a r.1.state ∧ ∃ rest frames, r = abort rest frames r.1.state a := by
  cases h with
  | aborted hfetch haborts =>
    rw [abort_event] at ha
    cases ha
    rw [abort_state]
    exact ⟨.instr hfetch.next? haborts, _, _, rfl⟩
  | outsideLoop hfetch _ hdone _ =>
    rw [abort_event] at ha
    cases ha
    obtain rfl := hdone.of_jump
    exact ⟨.outsideLoop hfetch.next?, _, _, rfl⟩
  | outOfSteps hrest _ _ =>
    rw [abort_event] at ha
    cases ha
    exact ⟨.outOfSteps (next?_of_rest_eq_nil hrest _), _, _, rfl⟩
  | unread hrest _ hunread =>
    rw [abort_event] at ha
    cases ha
    rw [abort_state]
    exact ⟨.unread (next?_of_rest_eq_nil hrest _) hunread, _, _, rfl⟩
  | _ => cases ha

theorem aborts_step {m' : Machine} {a : Abort} (h : m.step o = (m', .aborted a)) :
    m.Aborts o a m'.state ∧
      ∃ rest frames, (m', Event.aborted a) = Machine.abort rest frames m'.state a := by
  have hcomes := comes_step o m
  rw [h] at hcomes
  exact hcomes.aborts rfl

end Events

end PixelTurtle
