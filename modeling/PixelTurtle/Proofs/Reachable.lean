import PixelTurtle.Run.Machine

/-!
# Reachable machines

A host runs events, one after the other, and may cancel the run at any time. After an abort that
the language does not know it may go on. All that it can arrive at is reachable.

* `Machine.next?` is the instruction that the next event starts.
* `Machine.after` is the machine after a number of events.
* `Reaches` are the machines that a host can arrive at, with those it came through.
-/

namespace PixelTurtle

namespace Machine

/-- The instruction that the next event starts, if it does not end a body or the run. -/
def next? : Machine → Option Instr
  | ⟨rest, [], _, .running⟩ => rest.head?
  | ⟨_, f :: _, _, .running⟩ => f.rest.head?
  | _ => none

/-- The machine after `n` events. -/
def after (o : Options) : Nat → Machine → Machine
  | 0, m => m
  | n + 1, m => after o n (step o m).1

/-- A run that is over stays as it is. -/
theorem step_of_status_ne {o : Options} {m : Machine} (h : m.status ≠ .running) :
    step o m = (m, .ended) := by
  obtain ⟨rest, frames, s, status⟩ := m
  cases status with
  | running => exact absurd rfl h
  | completed => rfl
  | failed => rfl

theorem next?_of_status_ne {m : Machine} (h : m.status ≠ .running) : m.next? = none := by
  obtain ⟨rest, frames, s, status⟩ := m
  cases status with
  | running => exact absurd rfl h
  | completed => cases frames <;> rfl
  | failed => cases frames <;> rfl

@[simp] theorem cancel_state (m : Machine) : m.cancel.state = m.state := by
  obtain ⟨rest, frames, s, status⟩ := m
  cases status <;> rfl

@[simp] theorem cancel_rest (m : Machine) : m.cancel.rest = m.rest := by
  obtain ⟨rest, frames, s, status⟩ := m
  cases status <;> rfl

@[simp] theorem cancel_frames (m : Machine) : m.cancel.frames = m.frames := by
  obtain ⟨rest, frames, s, status⟩ := m
  cases status <;> rfl

/-- A run that is over is not cancelled. -/
theorem cancel_of_status_ne {m : Machine} (h : m.status ≠ .running) : m.cancel = m := by
  obtain ⟨rest, frames, s, status⟩ := m
  cases status with
  | running => exact absurd rfl h
  | completed => rfl
  | failed => rfl

theorem cancel_status_ne (m : Machine) : m.cancel.status ≠ .running := by
  obtain ⟨rest, frames, s, status⟩ := m
  cases status <;> nofun

end Machine

/-- `Reaches o m₀ past m`: a host that starts with `m₀` arrives at `m`, and `past` are the machines
on which it ran an event. -/
inductive Reaches (o : Options) (m₀ : Machine) : List Machine → Machine → Prop
  | start : Reaches o m₀ [] m₀
  | step {past : List Machine} {m : Machine} :
    Reaches o m₀ past m → Reaches o m₀ (past ++ [m]) (m.step o).1
  | cancel {past : List Machine} {m : Machine} : Reaches o m₀ past m → Reaches o m₀ past m.cancel

end PixelTurtle
