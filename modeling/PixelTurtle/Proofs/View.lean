import PixelTurtle.Proofs.Position
import PixelTurtle.Proofs.Results
import PixelTurtle.Proofs.SideBySide

/-!
# Runs that look alike

Two runs of one program look alike if what the second logs, draws and reports is what is seen of the
first through a view, while the turtle, the variables and the steps are the same. If their options
agree that far on single entries, calls and cells, then the runs do on every program.

* `View` is the view, with `View.see` for a state and `View.seeRun` for a whole run.
* `Mirrors` is what the options have to agree on.
* `Sees` says of an action that it is seen as another one. `sideBySide_of_mirrors` says that this
  goes through a run, so that every event is seen as it is (`step_see`).
* `interpret_of_mirrors` and `interpretAsync_of_mirrors` say it of the engines.
-/

namespace PixelTurtle

/-! ## What is seen of a run -/

/-- A way to look at a run: at its log, at the calls to its renderer and at its reported pixels
through functions, and at all else as it is. -/
structure View where
  log : Array Operation → Array Operation
  calls : Array Call → Array Call
  pixels : Array (Cell × Hsv) → Array (Cell × Hsv)

namespace View

variable (v : View)

/-- What is seen of a state. -/
def see (s : RunState) : RunState :=
  { s with log := v.log s.log, calls := v.calls s.calls, pixels := v.pixels s.pixels }

/-- What is seen of the end of an action. -/
def seeEnd {α : Type} : EStateM.Result Abort RunState α → EStateM.Result Abort RunState α
  | .ok a s => .ok a (v.see s)
  | .error e s => .error e (v.see s)

/-- What is seen of a machine. -/
def seeMachine (m : Machine) : Machine :=
  { m with state := v.see m.state }

/-- What is seen of a machine that comes with something that nobody watches. -/
def seeFirst {α : Type} (r : Machine × α) : Machine × α :=
  (v.seeMachine r.1, r.2)

/-- What is seen of a result. -/
def seeResult (r : RunResult) : RunResult :=
  { r with operations := v.log r.operations }

/-- What is seen of a failure. -/
def seeFailure : Failure → Failure
  | .runtime f line r => .runtime f line (v.seeResult r)
  | e => e

/-- What is seen of an outcome. -/
def seeOutcome : Except Failure RunResult → Except Failure RunResult
  | .ok r => .ok (v.seeResult r)
  | .error e => .error (v.seeFailure e)

/-- What is seen of a run. -/
def seeRun (run : Run) : Run :=
  ⟨v.seeOutcome run.outcome, v.see run.state⟩

/-- What is seen of a run with pauses. -/
def seeAsync (r : AsyncRun) : AsyncRun :=
  ⟨v.seeRun r.run, r.pauses⟩

end View

/-! ## Actions that look alike -/

/-- The action `x` is seen from the state `s` on as the action `x'`. -/
def Sees {α : Type} (v : View) (s : RunState) (x x' : Action α) : Prop :=
  x' (v.see s) = v.seeEnd (x s)

theorem Sees.bind {α β : Type} {v : View} {s : RunState} {x x' : Action α} {f f' : α → Action β}
    (hx : Sees v s x x') (hf : ∀ a s', x s = .ok a s' → Sees v s' (f a) (f' a)) :
    Sees v s (x >>= f) (x' >>= f') := by
  show EStateM.bind x' f' (v.see s) = v.seeEnd (EStateM.bind x f s)
  rw [EStateM.bind, EStateM.bind, hx]
  cases h : x s with
  | ok a s' => exact hf a s' h
  | error e s' => rfl

/-! ## Options that agree -/

/-- The options `o'` agree with what is seen of a run with the options `o`: at its start, of every
entry but a plot, of every call but a drawn cell, and of every cell of a line. -/
structure Mirrors (v : View) (o o' : Options) : Prop where
  start : RunState.start o' = v.see (.start o)
  clear : o'.clear = o.clear
  maxSteps : o'.maxSteps = o.maxSteps
  record : ∀ op : Operation, op.isPlot = false → ∀ line s,
    Sees v s (PixelTurtle.record o line op) (PixelTurtle.record o' line op)
  heard : ∀ c : Call, c.isDraw = false → ∀ s, v.see (s.heard o c) = (v.see s).heard o' c
  draw : ∀ line cell s, Sees v s (PixelTurtle.draw o line cell) (PixelTurtle.draw o' line cell)

section Instructions

variable {v : View} {o o' : Options} {s s' : RunState} {line : Option Int}

/-- What is seen of a change of the turtle is that change. -/
theorem see_ofTurtle {g : RunState → RunState} (hg : OfTurtle g) (s : RunState) :
    g (v.see s) = v.see (g s) := by
  have hsee := hg s (v.log s.log) (v.calls s.calls) (v.pixels s.pixels) s.steps
  refine hsee.trans ?_
  rw [View.see, hg.log, hg.calls, hg.pixels, hg.steps]

theorem sees_tick (h : o'.maxSteps = o.maxSteps) : Sees v s (tick o line) (tick o' line) := by
  have hallows (n : Nat) : o'.allows n = o.allows n := by
    rw [Options.allows, Options.allows, h]
  rw [Sees, tick_eq, tick_eq, hallows]
  show (if o.allows (s.steps + 1) then _ else _) = _
  split_ifs
  · rfl
  · rfl

variable (ho : Mirrors v o o')

include ho

theorem sees_call {c : Call} (hc : c.isDraw = false) : Sees v s (call o c) (call o' c) := by
  rw [Sees, call_eq_heard, call_eq_heard, ← ho.heard c hc]
  rfl

theorem see_told (cell : Cell) : v.see (s.told o cell) = (v.see s).told o' cell := by
  have hpen : (if s.penDown then Call.penDown else .penUp).isDraw = false := by
    split_ifs
    · rfl
    · rfl
  rw [RunState.told, ho.heard _ rfl, ho.heard _ hpen, ho.heard _ rfl]
  rfl

theorem sees_sync (hs : Attuned o o' s) : Sees v s (sync o) (sync o') := by
  cases hcell : Cell.ofPoint s.x s.y with
  | ok cell =>
    rw [Sees, sync_of_cell o s hcell, sync_of_cell o' (v.see s) hcell, ← see_told ho]
    rfl
  | error reason =>
    have hsome : o'.renderer.isSome = o.renderer.isSome := by
      rcases hs with ⟨cell, h⟩ | h
      · cases hcell.symm.trans h
      · exact h
    rw [Sees, sync_of_astray o s hcell, sync_of_astray o' (v.see s) hcell, hsome]
    split_ifs
    · rfl
    · rfl

/-- Two such runs go side by side. -/
theorem sideBySide_of_mirrors : SideBySide (fun s x x' => Sees v s x x') o o' where
  rel_pure _ _ := rfl
  rel_throw _ _ := rfl
  rel_bind := Sees.bind
  rel_get {_ s _ _} hf := hf (v.see s) ⟨rfl, rfl, rfl, rfl, rfl, rfl⟩
  rel_modify s hg := congrArg (EStateM.Result.ok ()) (see_ofTurtle hg s)
  rel_tick _ _ := sees_tick ho.maxSteps
  rel_record s line hop := ho.record _ hop line s
  rel_call _ hc := sees_call ho hc
  rel_sync hs := sees_sync ho hs
  rel_draw s line cell := ho.draw line cell s

/-! ## Events -/

/-- **Every event is seen as it is.** -/
theorem step_see {m : Machine} (hm : Attuned o o' m.state) :
    (v.seeMachine m).step o' = v.seeFirst (m.step o) := by
  have hplan : (v.seeMachine m).plan = m.plan := by
    obtain ⟨rest, frames, s, status⟩ := m
    cases status with
    | _ => rfl
  have hsees : m.plan.action o' (v.seeMachine m).state = _ :=
    (sideBySide_of_mirrors ho).rel_plan hm
  rw [Machine.step_eq_plan, Machine.step_eq_plan, hplan, Plan.run, Plan.run, hsees]
  cases m.plan.action o m.state with
  | ok a s => rfl
  | error e s => rfl

end Instructions

section Reach

variable {o o' : Options} {m m₀ : Machine} {past : List Machine}

theorem Reaches.attuned (h : Reaches o m₀ past m) (h₀ : Attuned o o' m₀.state) :
    Attuned o o' m.state :=
  h₀.imp_left h.placed

theorem attuned_advance (n : Nat) (hm : Attuned o o' m.state) :
    Attuned o o' (m.advance o n).1.state := by
  obtain ⟨past, hpast⟩ := Machine.reaches_advance o n m
  exact hpast.attuned hm

theorem attuned_of_proceed {m' : Machine} {p : Machine.Progress}
    (h : m.proceed o = some (m', p)) (hm : Attuned o o' m.state) : Attuned o o' m'.state := by
  obtain ⟨past, hpast⟩ := Machine.reaches_of_proceed h
  exact hpast.attuned hm

end Reach

/-! ## Iterations -/

section Iterate

variable {α α' β β' : Type} {f : α → Option (α ⊕ β)} {g : α' → Option (α' ⊕ β')} {u : α → α'}
  {w : β → β'} {I : α → Prop}

/-- If every step of `g` does what the step of `f` did, then `g` comes to what `f` comes to. -/
theorem Leads.map (h : ∀ a, I a → g (u a) = (f a).map (Sum.map u w))
    (hI : ∀ a a', I a → f a = some (.inl a') → I a') {a : α} {b : β} (hab : Leads f a b)
    (ha : I a) : Leads g (u a) (w b) := by
  induction hab with
  | @done a b hdone =>
    refine .done ?_
    rw [h a ha, hdone]
    rfl
  | @more a a' b hmore _ ih =>
    refine .more ?_ (ih (hI a a' ha hmore))
    rw [h a ha, hmore]
    rfl

theorem exists_leads_of_map (h : ∀ a, I a → g (u a) = (f a).map (Sum.map u w))
    (hI : ∀ a a', I a → f a = some (.inl a') → I a') {a : α} {b' : β'} (hab : Leads g (u a) b')
    (ha : I a) : ∃ b, Leads f a b ∧ w b = b' := by
  generalize hx : u a = x at hab
  induction hab generalizing a with
  | @done x b' hdone =>
    rw [← hx, h a ha, Option.map_eq_some_iff] at hdone
    obtain ⟨q, hq, hmap⟩ := hdone
    cases q with
    | inl a' => cases hmap
    | inr b => exact ⟨b, .done hq, Sum.inr.inj hmap⟩
  | @more x x' b' hmore _ ih =>
    rw [← hx, h a ha, Option.map_eq_some_iff] at hmore
    obtain ⟨q, hq, hmap⟩ := hmore
    cases q with
    | inl a' =>
      obtain ⟨b, hb, hbb'⟩ := ih (hI a a' ha hq) (Sum.inl.inj hmap)
      exact ⟨b, .more hq hb, hbb'⟩
    | inr b => cases hmap

/-- **What is seen of an iteration whose every step is seen as it is.** -/
theorem iterate_map (h : ∀ a, I a → g (u a) = (f a).map (Sum.map u w))
    (hI : ∀ a a', I a → f a = some (.inl a') → I a') {a : α} (ha : I a) :
    iterate g (u a) = (iterate f a).map w := by
  refine Option.ext fun b' => ?_
  rw [iterate_eq_some_iff, Option.map_eq_some_iff]
  constructor
  · intro hb'
    obtain ⟨b, hb, hbb'⟩ := exists_leads_of_map h hI hb' ha
    exact ⟨b, iterate_eq_some_iff.2 hb, hbb'⟩
  · rintro ⟨b, hb, rfl⟩
    exact (iterate_eq_some_iff.1 hb).map h hI ha

end Iterate

/-! ## Results -/

namespace View

variable (v : View)

theorem result_see (m : Machine) : (v.seeMachine m).result = m.result.map v.seeResult := by
  unfold Machine.result
  show (Cell.ofPoint m.state.x m.state.y >>= _) = (Cell.ofPoint m.state.x m.state.y >>= _).map _
  cases Cell.ofPoint m.state.x m.state.y with
  | ok cell => rfl
  | error reason => rfl

theorem success_see (m : Machine) : (v.seeMachine m).success = v.seeOutcome m.success := by
  unfold Machine.success
  rw [result_see]
  cases m.result with
  | ok r => rfl
  | error reason => rfl

theorem failure_see (m : Machine) (a : Abort) :
    (v.seeMachine m).failure a = v.seeFailure (m.failure a) := by
  cases a with
  | fault f line =>
    unfold Machine.failure
    simp only [result_see]
    cases m.result with
    | ok r => rfl
    | error reason => rfl
  | _ => rfl

theorem outcome_see (m : Machine) (p : Machine.Progress) :
    (v.seeMachine m).outcome p = v.seeOutcome (m.outcome p) := by
  cases p with
  | aborted a => exact congrArg Except.error (v.failure_see m a)
  | unfinished => rfl
  | _ => exact v.success_see m

theorem cancelled_see (m : Machine) : (v.seeMachine m).cancelled = v.seeRun m.cancelled := by
  have hcancel : (v.seeMachine m).cancel = v.seeMachine m.cancel := by
    obtain ⟨rest, frames, s, status⟩ := m
    cases status with
    | _ => rfl
  unfold Machine.cancelled
  simp only [hcancel, failure_see]
  rfl

theorem notStarted_see (a : Abort) (s : RunState) :
    Run.notStarted a (v.see s) = v.seeRun (.notStarted a s) := by
  unfold Run.notStarted
  exact congrArg (Run.mk · _) (congrArg Except.error (v.failure_see ⟨[], [], s, .failed⟩ a))

end View

/-! ## Engines -/

section Engines

variable {v : View} {o o' : Options} (ho : Mirrors v o o') {m : Machine}

include ho

theorem advance_see (n : Nat) (hm : Attuned o o' m.state) :
    (v.seeMachine m).advance o' n = v.seeFirst (m.advance o n) := by
  induction n generalizing m with
  | zero => rfl
  | succ n ih =>
    rw [Machine.advance, Machine.advance, step_see ho hm]
    rcases hstep : m.step o with ⟨m', ev⟩
    cases ev with
    | idle => exact ih ((Reaches.of_step hstep).attuned hm)
    | _ => rfl

theorem proceed_see (hm : Attuned o o' m.state) :
    (v.seeMachine m).proceed o' = (m.proceed o).map v.seeFirst := by
  refine iterate_map (I := fun m => Attuned o o' m.state) (u := v.seeMachine) (a := m)
    (fun m hm => ?_) (fun m m' hm h => ?_) hm
  · have hpatience : (v.seeMachine m).patience o' = m.patience o := by
      rw [Machine.patience, Machine.patience, ho.maxSteps]
      rfl
    unfold Machine.proceedStep
    rw [hpatience, advance_see ho _ hm]
    rcases m.advance o (m.patience o) with ⟨m', p⟩
    cases p with
    | _ => rfl
  · have hadvance := attuned_advance (m.patience o) hm
    rwa [Machine.proceedStep_eq_inl_iff.1 h] at hadvance

section Pauses

variable {signal signal' : CancelSignal}
  (hsignal : ∀ k paused (pixels : Array (Cell × Hsv)),
    signal' ⟨k, paused, (v.pixels pixels).size⟩ = signal ⟨k, paused, pixels.size⟩)

include hsignal

theorem asyncStep_see (pauses : Nat) (hm : Attuned o o' m.state) :
    Machine.asyncStep o' signal' (pauses, v.seeMachine m) =
      (Machine.asyncStep o signal (pauses, m)).map
        (Sum.map (Prod.map id v.seeMachine) v.seeAsync) := by
  have hproceed := proceed_see ho hm
  cases hp : m.proceed o with
  | none =>
    rw [hp] at hproceed
    rw [Machine.asyncStep, Machine.asyncStep, hp, hproceed]
    rfl
  | some q =>
    obtain ⟨m', p⟩ := q
    rw [hp] at hproceed
    by_cases hmoved : p = .moved
    · subst hmoved
      have hpixels (paused : Bool) :
          signal' ⟨pauses + 1, paused, (v.seeMachine m').state.pixels.size⟩ =
            signal ⟨pauses + 1, paused, m'.state.pixels.size⟩ := hsignal ..
      rw [Machine.asyncStep_of_moved hp, Machine.asyncStep_of_moved hproceed, hpixels, hpixels,
        View.cancelled_see, apply_ite (Option.map _), apply_ite (Option.map _)]
      rfl
    · rw [Machine.asyncStep_of_ne_moved hp hmoved, Machine.asyncStep_of_ne_moved hproceed hmoved,
        View.outcome_see]
      rfl

theorem runAsync_see (pauses : Nat) (hm : Attuned o o' m.state) :
    (v.seeMachine m).runAsync o' signal' pauses = (m.runAsync o signal pauses).map v.seeAsync := by
  refine iterate_map (I := fun q => Attuned o o' q.2.state) (u := Prod.map id v.seeMachine)
    (a := (pauses, m)) (fun q hq => asyncStep_see ho hsignal q.1 hq) (fun q q' hq h => ?_) hm
  obtain ⟨m', hp, -, rfl⟩ := Machine.asyncStep_eq_inl h
  exact attuned_of_proceed hp hq

end Pauses

/-! ## Programs -/

theorem sees_greet (hs : Attuned o o' (.start o)) :
    Sees v (.start o) (Machine.greet o) (Machine.greet o') := by
  unfold Machine.greet
  rw [ho.clear]
  cases o.clear with
  | false => exact sees_sync ho hs
  | true =>
    refine (sees_call ho rfl).bind fun _ s h => sees_sync ho ?_
    rw [call_eq_heard] at h
    cases h
    exact hs.of_position rfl rfl

/-- **A program that is set up is seen as it is.** -/
theorem start_see (hs : Attuned o o' (.start o)) (program : List Instr) :
    Machine.start o' program =
      match Machine.start o program with
      | .ok m => .ok (v.seeMachine m)
      | .error (a, s) => .error (a, v.see s) := by
  have hgreet : Machine.greet o' (.start o') = v.seeEnd (Machine.greet o (.start o)) := by
    rw [ho.start]
    exact sees_greet ho hs
  unfold Machine.start
  rw [hgreet]
  cases Machine.greet o (.start o) with
  | ok u s => rfl
  | error a s => rfl

omit ho in
theorem attuned_of_start (hs : Attuned o o' (.start o)) {program : List Instr}
    (h : Machine.start o program = .ok m) : Attuned o o' m.state := by
  rcases hs with ⟨cell, hcell⟩ | hsome
  · obtain ⟨calls, hcalls⟩ := cleared_eq o
    cases (start_of_cell hcell program).symm.trans h
    refine .inl ⟨cell, ?_⟩
    rw [hcalls]
    exact hcell
  · exact .inr hsome

/-- **What is seen of a program that is run with pauses.** -/
theorem interpretAsync_of_mirrors (signal signal' : CancelSignal)
    (hsignal : ∀ k paused (pixels : Array (Cell × Hsv)),
      signal' ⟨k, paused, (v.pixels pixels).size⟩ = signal ⟨k, paused, pixels.size⟩)
    (hs : Attuned o o' (.start o)) (program : List Instr) :
    interpretAsync o' signal' program = v.seeAsync (interpretAsync o signal program) := by
  have hstart := start_see ho hs program
  cases h : Machine.start o program with
  | error start =>
    obtain ⟨a, s⟩ := start
    rw [h] at hstart
    rw [interpretAsync, interpretAsync, h, hstart]
    exact congrArg (AsyncRun.mk · 0) (v.notStarted_see a s)
  | ok m =>
    rw [h] at hstart
    rw [interpretAsync_eq hstart, interpretAsync_eq h,
      runAsync_see ho hsignal 0 (attuned_of_start hs h)]
    cases m.runAsync o signal 0 with
    | none => rfl
    | some r => rfl

/-- **What is seen of a program that is run in one go.** -/
theorem interpret_of_mirrors (hs : Attuned o o' (.start o)) (program : List Instr) :
    interpret o' program = v.seeRun (interpret o program) := by
  have hsee := interpretAsync_of_mirrors ho (fun _ => false) (fun _ => false) (fun _ _ _ => rfl) hs
    program
  rw [← interpretAsync_never, ← interpretAsync_never, hsee]
  rfl

end Engines

end PixelTurtle
