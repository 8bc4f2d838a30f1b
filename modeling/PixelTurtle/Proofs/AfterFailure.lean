import PixelTurtle.Proofs.FullLog
import PixelTurtle.Proofs.Heading
import PixelTurtle.Proofs.Safety

/-!
# After a failed step

A host that makes one movement at a time may go on calling after a step has failed. A fault finishes
the run: the result is what the run has come to, further steps are refused, and nothing changes any
more. The two failures that the language does not know, an expression from outside and a heading
without a direction, leave the run going.

* `Machine.Finished` is a run that is over for good.
* `Machine.FailedBy` is what a failed step leaves behind, and `failed_step_finishes` the theorem.
-/

namespace PixelTurtle

/-! ## Events -/

/-- Why an event was aborted, if it was. -/
def Event.abort? : Event → Option Abort
  | .aborted a => some a
  | _ => none

section Events

variable {o : Options} {m m' m₀ : Machine} {past : List Machine} {a : Abort}
  {program : List Instr} {e : Failure} {r : RunResult}

/-- A turtle that can be set up without a cell has no renderer. -/
theorem isSome_renderer_of_start (h : Machine.start o program = .ok m₀)
    (hastray : ¬ (RunState.start o).Placed) : o.renderer.isSome = false := by
  obtain ⟨reason, hreason⟩ := exists_reason_of_not_placed hastray
  rw [start_of_astray hreason] at h
  split_ifs at h with hrenderer
  exact Bool.eq_false_iff.2 hrenderer

/-- Nothing is aborted for the lack of a cell. -/
theorem Reaches.ne_noCell (h : Reaches o m₀ past m) (hstart : Machine.start o program = .ok m₀)
    (hstep : m.step o = (m', .aborted a)) (reason : Number.NoInteger) : a ≠ .noCell reason := by
  rintro rfl
  obtain ⟨hastray, hrenderer⟩ := justified_of_aborted hstep
  have hlost : ¬ (RunState.start o).Placed := fun hplaced =>
    hastray (h.placed ((placed_of_start hstart).2 hplaced))
  cases hrenderer.symm.trans (isSome_renderer_of_start hstart hlost)

/-- An infinite heading is that of the start. -/
theorem Reaches.isInf_heading (h : Reaches o m₀ past m) (hstart : Machine.start o program = .ok m₀)
    (hinf : m.state.heading.isInf = true) : o.heading.isInf = true := by
  by_contra hfinite
  have h₀ : m₀.state.heading.isInf = false := by
    obtain ⟨calls, hcalls⟩ := exists_calls_of_start hstart
    rw [hcalls]
    exact Bool.eq_false_iff.2 hfinite
  cases hinf.symm.trans (h.isInf_heading_eq_false h₀)

/-! ## Steps -/

/-- The run is over for good: it has the result `x`, or none because the turtle has no cell, and
whatever a host calls, it stays as it is and steps are refused. -/
structure Machine.Finished (o : Options) (m : Machine) (x : Except Number.NoInteger RunResult) :
    Prop where
  done : m.isDone = true
  result : m.result? = x.map some
  unmoved : ∀ calls, (m.serveAll o calls).1 = m ∧ ∀ reply ∈ m.stepReplies o calls, reply = .ok false

/-- What a step leaves behind that has failed. -/
inductive Machine.FailedBy (o : Options) (program : List Instr) (m : Machine) : Failure → Prop
  | fault {f : Fault} {line : Option Int} {r : RunResult} : m.Finished o (.ok r) →
    r.completed = false → FailedBy o program m (.runtime f line r)
  /-- A fault of a turtle that has started without a cell. -/
  | noCell {reason : Number.NoInteger} : m.Finished o (.error reason) →
    ¬ (RunState.start o).Placed → FailedBy o program m (.noCell reason)
  /-- An expression from outside the language does not finish the run. -/
  | expr {err : EvalError} : m.isDone = false → (∀ source, Source.parse source ≠ .ok program) →
    FailedBy o program m (.expr err)
  /-- A start without a direction neither. -/
  | noDirection : m.isDone = false → o.heading.isInf = true → FailedBy o program m .noDirection

theorem finished_of_failed (h : m.status = .failed) : m.Finished o m.result where
  done := by rw [Machine.isDone, h]; rfl
  result := by rw [Machine.result?, Machine.isDone, h]; rfl
  unmoved calls := Machine.serveAll_of_isDone (by rw [Machine.isDone, h]; rfl) calls

theorem isDone_of_running (h : m.status = .running) : m.isDone = false := by
  rw [Machine.isDone, h]
  rfl

/-- A step fails as the event does that it comes to. -/
theorem exists_abort_of_stepOnce (h : m.stepOnce o = (m', .error e)) (he : e ≠ .unfinished) :
    ∃ past last a, Passes o m past last ∧ last.step o = (m', .aborted a) ∧ e = m'.failure a := by
  unfold Machine.stepOnce at h
  cases hp : m.proceed o with
  | none =>
    rw [hp] at h
    cases h
    exact absurd rfl he
  | some q =>
    obtain ⟨m₁, p⟩ := q
    obtain ⟨past, last, ev, hpast, hlast, rfl⟩ := Machine.exists_event_of_proceed hp
    rw [hp] at h
    cases ev with
    | aborted a =>
      cases h
      exact ⟨past, last, a, hpast, hlast, rfl⟩
    | idle => exact absurd rfl (Machine.proceed_ne_unfinished hp)
    | _ => cases h

theorem step_of_abort? (h : (m.step o).2.abort? = some a) :
    m.step o = ((m.step o).1, .aborted a) := by
  generalize m.step o = r at h ⊢
  obtain ⟨m', ev⟩ := r
  cases ev with
  | aborted a' =>
    cases h
    rfl
  | _ => cases h

theorem stepOnce_of_aborted (h : m.step o = (m', .aborted a)) :
    m.stepOnce o = (m', .error (m'.failure a)) := by
  rw [Machine.stepOnce, Machine.proceed_of_ne_idle h (by rintro ⟨⟩)]
  rfl

theorem failedBy_of_aborted (hstart : Machine.start o program = .ok m₀) (h : Reaches o m₀ past m)
    (hstep : m.step o = (m', .aborted a)) : m'.FailedBy o program (m'.failure a) := by
  obtain ⟨-, rest, frames, habort⟩ := aborts_step hstep
  have hstatus := congrArg (fun r => r.1.status) habort
  cases a with
  | fault f line =>
    have hfailed : m'.status = .failed := hstatus
    have hfinished := finished_of_failed (o := o) hfailed
    unfold Machine.failure
    cases hres : m'.result with
    | ok r =>
      rw [hres] at hfinished
      obtain ⟨cell, -, rfl⟩ := exists_cell_of_result hres
      refine .fault hfinished ?_
      show (m'.status == .completed) = false
      rw [hfailed]
      rfl
    | error reason =>
      rw [hres] at hfinished
      refine .noCell hfinished fun hplaced => ?_
      have hreach : Reaches o m₀ _ m' := h.trans (.of_step hstep)
      obtain ⟨cell, hcell⟩ := hreach.placed ((placed_of_start hstart).2 hplaced)
      cases (result_of_cell hcell).symm.trans hres
  | expr err =>
    refine .expr (isDone_of_running hstatus) fun source hparse => ?_
    exact regular_of_step (h.proper (proper_start (Source.properAll_of_parse hparse) hstart)) hstep
  | noDirection =>
    exact .noDirection (isDone_of_running hstatus)
      (h.isInf_heading hstart (justified_of_aborted hstep))
  | noCell reason => exact absurd rfl (h.ne_noCell hstart hstep reason)

end Events

/-- **A step that fails by a fault finishes the run.** Wherever a host makes a step that fails, the
run is over with the result that came with the fault, and stays so; or it is over and has no result,
because the turtle has started without a cell. Only an expression from outside the language and a
start without a direction leave it running. Hence a program that was read from a text, and a turtle
that starts with a cell and a direction, are finished by every step that fails. -/
theorem failed_step_finishes (o : Options) (program : List Instr) :
    (∀ m₀ past m m' e, Machine.start o program = .ok m₀ → Reaches o m₀ past m →
      m.stepOnce o = (m', .error e) → e ≠ .unfinished → m'.FailedBy o program e) ∧
    (∀ source m₀ past m m' e, Source.parse source = .ok program → o.Settled →
      Machine.start o program = .ok m₀ → Reaches o m₀ past m →
      m.stepOnce o = (m', .error e) → e ≠ .unfinished →
      ∃ f line r, e = .runtime f line r ∧ m'.Finished o (.ok r) ∧ r.completed = false) := by
  have general (m₀ : Machine) (past : List Machine) (m m' : Machine) (e : Failure)
      (hstart : Machine.start o program = .ok m₀) (hreach : Reaches o m₀ past m)
      (hstep : m.stepOnce o = (m', .error e)) (he : e ≠ .unfinished) :
      m'.FailedBy o program e := by
    obtain ⟨past', last, a, hpasses, hlast, rfl⟩ := exists_abort_of_stepOnce hstep he
    exact failedBy_of_aborted hstart (hreach.trans hpasses.1) hlast
  refine ⟨general, fun source m₀ past m m' e hparse hsettled hstart hreach hstep he => ?_⟩
  cases general m₀ past m m' e hstart hreach hstep he with
  | @fault f line r hfinished hcompleted => exact ⟨f, line, r, rfl, hfinished, hcompleted⟩
  | noCell _ hastray => exact absurd hsettled.placed hastray
  | expr _ hforeign => exact absurd hparse (hforeign source)
  | noDirection _ hinf => cases hinf.symm.trans hsettled.heading

/-- A jump outside all loops finishes the run. -/
theorem failed_step_finishes_jump :
    ∃ m₀ m' r, Machine.start {} [.breakLoop (some 1), .pen .down (some 2)] = .ok m₀ ∧
      m₀.stepOnce {} = (m', .error (.runtime (.outsideLoop .breakLoop) (some 1) r)) ∧
      Machine.FailedBy {} [.breakLoop (some 1), .pen .down (some 2)] m'
        (.runtime (.outsideLoop .breakLoop) (some 1) r) := by
  let program : List Instr := [.breakLoop (some 1), .pen .down (some 2)]
  let m₀ : Machine := ⟨program, [], .start {}, .running⟩
  let m' : Machine := ⟨[.pen .down (some 2)], [], (RunState.start {}).ticked, .failed⟩
  have hstart : Machine.start {} program = .ok m₀ := rfl
  have hstep : m₀.step {} = (m', .aborted (.fault (.outsideLoop .breakLoop) (some 1))) := rfl
  have hcell : Cell.ofPoint 0 0 = .ok ⟨0, 0⟩ := by decide +kernel
  have hresult := result_of_cell (m := m') hcell
  have honce := stepOnce_of_aborted hstep
  rw [Machine.failure, hresult] at honce
  exact ⟨m₀, m', _, hstart, honce,
    (failed_step_finishes {} program).1 m₀ [] m₀ m' _ hstart .start honce (by rintro ⟨⟩)⟩

/-- A movement without a direction and an expression from outside the language fail, and the run is
not over. -/
theorem failed_step_leaves_running :
    (∃ m₀ m', Machine.start { heading := 1 / 0 } [.move .forward (.num 1) (some 1)] = .ok m₀ ∧
      m₀.stepOnce { heading := 1 / 0 } = (m', .error .noDirection) ∧ m'.isDone = false) ∧
    ∃ m₀ m', Machine.start {} [.move .forward (.foreign "Other") none] = .ok m₀ ∧
      m₀.stepOnce {} = (m', .error (.expr (.foreign "Other"))) ∧ m'.isDone = false := by
  constructor
  · let o : Options := { heading := 1 / 0 }
    let m₀ : Machine := ⟨[.move .forward (.num 1) (some 1)], [], .start o, .running⟩
    have habort : (m₀.step o).2.abort? = some .noDirection := by decide +kernel
    have hdone : (m₀.step o).1.isDone = false := by decide +kernel
    exact ⟨m₀, _, rfl, stepOnce_of_aborted (step_of_abort? habort), hdone⟩
  · let m₀ : Machine := ⟨[.move .forward (.foreign "Other") none], [], .start {}, .running⟩
    have habort : (m₀.step {}).2.abort? = some (.expr (.foreign "Other")) := by decide +kernel
    have hdone : (m₀.step {}).1.isDone = false := by decide +kernel
    exact ⟨m₀, _, rfl, stepOnce_of_aborted (step_of_abort? habort), hdone⟩

end PixelTurtle
