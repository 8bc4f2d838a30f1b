import PixelTurtle.Proofs.Changes
import PixelTurtle.Proofs.Endings

/-!
# Results of engines

An engine gives a result at the end of a run, by itself or with a fault. It is the result of a
machine that a host could have arrived at, and the run leaves the state of that machine behind.

* `Run.Gives` says that a run gives a result, and `Run.HandsOut` that it does so with no full log.
* `exists_machine_of_gives` finds the machine. If the run did not stop at a full log, none of its
  events did.
-/

namespace PixelTurtle

/-- The run hands out the result `r`, by itself or with a fault other than that of a full log. -/
def Run.HandsOut (run : Run) (r : RunResult) : Prop :=
  run.outcome = .ok r ∨
    ∃ f line, f ≠ .outputLimit ∧ run.outcome = .error (.runtime f line r)

/-- The run gives the result `r`, by itself or with a fault. -/
def Run.Gives (run : Run) (r : RunResult) : Prop :=
  run.outcome = .ok r ∨ ∃ f line, run.outcome = .error (.runtime f line r)

theorem Run.HandsOut.gives {run : Run} {r : RunResult} (h : run.HandsOut r) : run.Gives r := by
  rcases h with h | ⟨f, line, -, h⟩
  · exact .inl h
  · exact .inr ⟨f, line, h⟩

variable {o : Options} {m m₀ : Machine} {past : List Machine} {r : RunResult} {run : Run}
  {program : List Instr}

/-- A computation that was found to have a value of some kind has one. -/
theorem exists_of_any_toOption {ε α : Type} {x : Except ε α} {p : α → Bool}
    (h : x.toOption.any p = true) : ∃ a, x = .ok a ∧ p a = true := by
  cases x with
  | error e => cases h
  | ok a => exact ⟨a, rfl, h⟩

/-- A computation that was found to fail fails. -/
theorem error_of_map {ε α β : Type} {x : Except ε α} {f : α → β} {e : ε}
    (h : x.map f = .error e) : x = .error e := by
  cases x with
  | error e' => exact congrArg Except.error (Except.error.inj h)
  | ok a => cases h

theorem result_of_success (h : m.success = .ok r) : m.result = .ok r := by
  unfold Machine.success at h
  split at h
  · rename_i hres
    cases h
    exact hres
  · cases h

/-- A fault comes with the result of the machine that it left behind. -/
theorem result_of_failure {f : Fault} {line : Option Int} {a : Abort}
    (h : m.failure a = .runtime f line r) : a = .fault f line ∧ m.result = .ok r := by
  cases a with
  | fault f' line' =>
    unfold Machine.failure at h
    cases hres : m.result with
    | error reason =>
      rw [hres] at h
      cases h
    | ok r' =>
      rw [hres] at h
      cases h
      exact ⟨rfl, rfl⟩
  | expr e => cases h
  | noDirection => cases h
  | noCell reason => cases h

/-- The result of a turtle in a cell. -/
theorem result_of_cell {cell : Cell} (h : Cell.ofPoint m.state.x m.state.y = .ok cell) :
    m.result = .ok ⟨cell, m.state.heading, m.state.penDown, m.state.color, m.state.vars,
      m.state.log, m.status == .completed, m.state.steps⟩ := by
  unfold Machine.result Machine.position
  rw [h]
  rfl

/-- What a result is made of. -/
theorem exists_cell_of_result (h : m.result = .ok r) :
    ∃ cell, Cell.ofPoint m.state.x m.state.y = .ok cell ∧
      r = ⟨cell, m.state.heading, m.state.penDown, m.state.color, m.state.vars, m.state.log,
        m.status == .completed, m.state.steps⟩ := by
  cases hcell : Cell.ofPoint m.state.x m.state.y with
  | error reason =>
    unfold Machine.result Machine.position at h
    rw [hcell] at h
    cases h
  | ok cell =>
    rw [result_of_cell hcell] at h
    cases h
    exact ⟨cell, rfl, rfl⟩

theorem not_gives_notStarted {a : Abort} {state : RunState}
    (h : Machine.start o program = .error (a, state)) : ¬ (Run.notStarted a state).Gives r := by
  cases hcell : Cell.ofPoint o.startX o.startY with
  | ok cell =>
    rw [start_of_cell hcell] at h
    cases h
  | error reason =>
    rw [start_of_astray hcell] at h
    split_ifs at h
    cases h
    rintro (hok | ⟨f, line, hfail⟩)
    · cases hok
    · cases hfail

/-- The machine in which a run ends has the result that the run gives. -/
theorem exists_machine_of_ends (hpast : Passes o m₀ past m) (hends : m.Ends o run)
    (hr : run.Gives r) :
    ∃ past' m', Reaches o m₀ past' m' ∧ m'.result = .ok r ∧ m'.state = run.state ∧
      (run.HandsOut r → ∀ x ∈ past', (x.step o).2.isOutputLimit = false) := by
  have hbefore : ∀ x ∈ past, (x.step o).2.isOutputLimit = false := by
    intro x hx
    have hgoes := hpast.2 x hx
    cases hev : (x.step o).2 with
    | aborted a =>
      rw [hev] at hgoes
      cases hgoes
    | _ => rfl
  have hlast {ev : Event} {m' : Machine} (hstep : m.step o = (m', ev))
      (hev : ev.isOutputLimit = false) :
      ∀ x ∈ past ++ [m], (x.step o).2.isOutputLimit = false := by
    intro x hx
    rcases List.mem_append.1 hx with hx | hx
    · exact hbefore x hx
    · rw [List.mem_singleton.1 hx, hstep]
      exact hev
  cases hends with
  | @ended m' hstep =>
    refine ⟨past ++ [m], m', hpast.1.trans (.of_step hstep), ?_, rfl, fun _ => hlast hstep rfl⟩
    rcases hr with hok | ⟨f, line, hfail⟩
    · exact result_of_success hok
    · simp only [Machine.success] at hfail
      split at hfail <;> cases hfail
  | @aborted m' a hstep =>
    rcases hr with hok | ⟨f, line, hfail⟩
    · cases hok
    · obtain ⟨rfl, hres⟩ := result_of_failure (Except.error.inj hfail)
      refine ⟨past ++ [m], m', hpast.1.trans (.of_step hstep), hres, rfl, fun hout => ?_⟩
      refine hlast hstep ?_
      rcases hout with hok | ⟨f', line', hne, hfail'⟩
      · cases hok
      · cases hfail.symm.trans hfail'
        cases f with
        | outputLimit => exact absurd rfl hne
        | _ => rfl
  | cancelled =>
    rcases hr with hok | ⟨f, line, hfail⟩
    · cases hok
    · obtain ⟨-, hres⟩ := result_of_failure (Except.error.inj hfail)
      exact ⟨past, m.cancel, .cancel hpast.1, hres, rfl, fun _ => hbefore⟩

/-- **A result of an engine is that of a reachable machine**, whose state the run has left
behind. -/
theorem exists_machine_of_gives {signal : CancelSignal}
    (h : (interpretAsync o signal program).run.Gives r) :
    ∃ m₀ past m, Machine.start o program = .ok m₀ ∧ Reaches o m₀ past m ∧ m.result = .ok r ∧
      m.state = (interpretAsync o signal program).run.state ∧
      ((interpretAsync o signal program).run.HandsOut r →
        ∀ x ∈ past, (x.step o).2.isOutputLimit = false) := by
  cases hstart : Machine.start o program with
  | error start =>
    rw [interpretAsync, hstart] at h
    exact absurd h (not_gives_notStarted hstart)
  | ok m₀ =>
    rcases interpretAsync_ends hstart with hendless | ⟨past, m, hpast, hends⟩
    · rw [hendless] at h
      rcases h with hok | ⟨f, line, hfail⟩
      · cases hok
      · cases hfail
    · obtain ⟨past', m', hreach, hres, hstate, hfull⟩ := exists_machine_of_ends hpast hends h
      exact ⟨m₀, past', m', rfl, hreach, hres, hstate, hfull⟩

end PixelTurtle
