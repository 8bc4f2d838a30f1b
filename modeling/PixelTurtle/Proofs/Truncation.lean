import PixelTurtle.Proofs.Position
import PixelTurtle.Proofs.Results
import PixelTurtle.Proofs.SideBySide

/-!
# Runs that are cut short

A limit on the steps or on the log does not change what a run does before it exceeds the limit. So a
run under a limit is the run without it, or a beginning of that run which ends with the fault of the
limit. The proof follows two runs side by side, up to the action in which they part.

* `Grows` says that a run only counts on and appends to what it has logged, called and reported.
* `Limit` is a limit on a quantity that grows with the run.
* `Truncates` says of an action under a limit that it does what the action without it does, or stops
  on the way. `sideBySide_of_curbs` says that this goes through a run, and `step_truncated` says it
  of every event.
* `CutsShort` says it of an engine, and `engines_cutShort` is the consequence for whole runs.
-/

namespace PixelTurtle

/-! ## Growth -/

/-- From `s` to `s'` the run has only counted on and appended. -/
structure Grows (s s' : RunState) : Prop where
  steps : s.steps ≤ s'.steps
  log : s.log.toList <+: s'.log.toList
  calls : s.calls.toList <+: s'.calls.toList
  pixels : s.pixels.toList <+: s'.pixels.toList

theorem Grows.refl (s : RunState) : Grows s s :=
  ⟨Nat.le_refl _, List.prefix_rfl, List.prefix_rfl, List.prefix_rfl⟩

theorem Grows.trans {s₁ s₂ s₃ : RunState} (h : Grows s₁ s₂) (h' : Grows s₂ s₃) : Grows s₁ s₃ :=
  ⟨h.steps.trans h'.steps, h.log.trans h'.log, h.calls.trans h'.calls, h.pixels.trans h'.pixels⟩

theorem prefix_push {α : Type} (xs : Array α) (a : α) : xs.toList <+: (xs.push a).toList := by
  rw [Array.toList_push]
  exact List.prefix_append _ _

section

variable (o : Options) (s : RunState)

theorem grows_ticked : Grows s s.ticked :=
  ⟨Nat.le_succ _, List.prefix_rfl, List.prefix_rfl, List.prefix_rfl⟩

theorem grows_noted (op : Operation) : Grows s (s.noted o op) := by
  refine ⟨Nat.le_refl _, ?_, List.prefix_rfl, List.prefix_rfl⟩
  show _ <+: (if o.record then s.log.push op else s.log).toList
  split_ifs
  · exact prefix_push ..
  · exact List.prefix_rfl

theorem grows_heard (c : Call) : Grows s (s.heard o c) := by
  refine ⟨Nat.le_refl _, List.prefix_rfl, ?_, List.prefix_rfl⟩
  show _ <+: (if o.takes c then s.calls.push c else s.calls).toList
  split_ifs
  · exact prefix_push ..
  · exact List.prefix_rfl

theorem grows_told (cell : Cell) : Grows s (s.told o cell) :=
  ((grows_heard o s _).trans (grows_heard o _ _)).trans (grows_heard o _ _)

end

/-! ## Limits -/

/-- A limit on a quantity that depends on the steps and the log. A run that would get over the
`bound` stops at `stop` instead, with a fault. -/
structure Limit where
  size : RunState → Nat
  bound : Nat
  stop : Nat
  fault : Fault
  size_congr : ∀ {s s' : RunState}, s'.steps = s.steps → s'.log = s.log → size s' = size s
  size_mono : ∀ {s s' : RunState}, Grows s s' → size s ≤ size s'

/-- A run that has stopped in the state `s'`, at its limit, was on the way to the state `s`. -/
structure Limit.Stops (L : Limit) (s' s : RunState) : Prop where
  size : L.size s' = L.stop
  grows : Grows s' s

theorem Limit.lt_of_grows {L : Limit} {s s' : RunState} (h : L.bound < L.size s)
    (h' : Grows s s') : L.bound < L.size s' :=
  Nat.lt_of_lt_of_le h (L.size_mono h')

theorem Limit.Stops.trans {L : Limit} {s₁ s₂ s₃ : RunState} (h : L.Stops s₁ s₂)
    (h' : Grows s₂ s₃) : L.Stops s₁ s₃ :=
  ⟨h.size, h.grows.trans h'⟩

/-- `Truncated L state faulty a b`: where a part of a run ends with `a`, it ends with `b` under the
limit. Either they are the same, or the run gets over the limit in this part. -/
inductive Truncated {γ : Type} (L : Limit) (state : γ → RunState) (faulty : γ → Prop) : γ → γ → Prop
  | same {a : γ} : L.size (state a) ≤ L.bound → Truncated L state faulty a a
  | stopped {a b : γ} : L.bound < L.size (state a) → faulty b → L.Stops (state b) (state a) →
    Truncated L state faulty a b

section

variable {γ : Type} {L : Limit} {state : γ → RunState} {faulty : γ → Prop} {a b : γ}

theorem Truncated.eq_of_le (h : Truncated L state faulty a b) (hle : L.size (state a) ≤ L.bound) :
    b = a := by
  cases h with
  | same => rfl
  | stopped hlt => exact absurd hle (Nat.not_le_of_lt hlt)

theorem Truncated.stops_of_lt (h : Truncated L state faulty a b)
    (hlt : L.bound < L.size (state a)) : faulty b ∧ L.Stops (state b) (state a) := by
  cases h with
  | same hle => exact absurd hlt (Nat.not_lt_of_le hle)
  | stopped _ hb hstops => exact ⟨hb, hstops⟩

theorem Truncated.map {δ : Type} {state' : δ → RunState} {faulty' : δ → Prop}
    (h : Truncated L state faulty a b) (g : γ → δ) (hstate : ∀ a, state' (g a) = state a)
    (hfaulty : ∀ a, faulty a → faulty' (g a)) : Truncated L state' faulty' (g a) (g b) := by
  cases h with
  | same hle => exact .same (by rwa [hstate])
  | stopped hlt hb hstops =>
    refine .stopped ?_ (hfaulty b hb) ?_
    · rwa [hstate]
    · rwa [hstate, hstate]

end

/-! ## Actions under a limit -/

/-- The state at the end of an action. -/
def stateOf {α : Type} : EStateM.Result Abort RunState α → RunState
  | .ok _ s => s
  | .error _ s => s

/-- The action ended with the fault. -/
def IsFault {α : Type} (f : Fault) : EStateM.Result Abort RunState α → Prop
  | .error a _ => ∃ line, a = .fault f line
  | .ok .. => False

/-- From the state `s` on the action `x` grows, and the action `x'` does the same within the
limit. -/
structure Truncates {α : Type} (L : Limit) (s : RunState) (x x' : Action α) : Prop where
  grows : Grows s (stateOf (x s))
  truncated : L.size s ≤ L.bound → Truncated L stateOf (IsFault L.fault) (x s) (x' s)

section Actions

variable {α β : Type} {L : Limit} {s : RunState}

/-- An action that does not touch the quantity needs no limit. -/
theorem truncates_same {x : Action α} (h : Grows s (stateOf (x s)))
    (hsize : L.size (stateOf (x s)) = L.size s) : Truncates L s x x :=
  ⟨h, fun hs => .same (by rwa [hsize])⟩

/-- A change of the turtle, its pen, its color or its variables. -/
theorem truncates_modify {g : RunState → RunState} (hg : OfTurtle g) :
    Truncates L s (modify g) (modify g) := by
  refine truncates_same ⟨?_, ?_, ?_, ?_⟩ (L.size_congr (hg.steps s) (hg.log s))
  · exact (hg.steps s).ge
  · exact (congrArg Array.toList (hg.log s)) ▸ List.prefix_rfl
  · exact (congrArg Array.toList (hg.calls s)) ▸ List.prefix_rfl
  · exact (congrArg Array.toList (hg.pixels s)) ▸ List.prefix_rfl

theorem truncates_report (cell : Cell) (color : Hsv) :
    Truncates L s (modify fun s => { s with pixels := s.pixels.push (cell, color) })
      (modify fun s => { s with pixels := s.pixels.push (cell, color) }) := by
  refine truncates_same ?_ (L.size_congr rfl rfl)
  exact ⟨Nat.le_refl _, List.prefix_rfl, List.prefix_rfl, prefix_push ..⟩

theorem truncates_get {f f' : RunState → Action β} (h : Truncates L s (f s) (f' s)) :
    Truncates L s (get >>= f) (get >>= f') :=
  ⟨h.grows, h.truncated⟩

theorem truncates_bind {x x' : Action α} {f f' : α → Action β} (hx : Truncates L s x x')
    (hf : ∀ a s', x s = .ok a s' → Truncates L s' (f a) (f' a)) :
    Truncates L s (x >>= f) (x' >>= f') := by
  have hbind (x : Action α) (f : α → Action β) :
      (x >>= f) s = match x s with
        | .ok a s => f a s
        | .error e s => .error e s := by
    show EStateM.bind x f s = _
    rw [EStateM.bind]
    cases x s with
    | _ => rfl
  have hgrows : Grows (stateOf (x s)) (stateOf ((x >>= f) s)) := by
    rw [hbind]
    cases hres : x s with
    | ok a s₁ => exact (hf a s₁ hres).grows
    | error e s₁ => exact .refl s₁
  refine ⟨hx.grows.trans hgrows, fun hs => ?_⟩
  have htruncated := hx.truncated hs
  rw [hbind, hbind] at *
  generalize x s = r at *
  generalize x' s = r' at *
  cases htruncated with
  | same hle =>
    cases r with
    | ok a s₁ => exact (hf a s₁ rfl).truncated hle
    | error e s₁ => exact .same hle
  | stopped hlt hfault hstops =>
    cases r' with
    | ok a s₁ => exact absurd hfault id
    | error e s₁ => exact .stopped (L.lt_of_grows hlt hgrows) hfault (hstops.trans hgrows)

end Actions

/-! ## Options with a limit -/

/-- The options `o'` are the options `o` with a limit that was not there. -/
structure Curbs (L : Limit) (o o' : Options) : Prop where
  eq : o' = { o with maxSteps := o'.maxSteps, maxOperations := o'.maxOperations }
  tick : ∀ line s, Truncates L s (PixelTurtle.tick o line) (PixelTurtle.tick o' line)
  record : ∀ line op s,
    Truncates L s (PixelTurtle.record o line op) (PixelTurtle.record o' line op)

section Events

variable {L : Limit} {o o' : Options} (ho : Curbs L o o') {s : RunState}

include ho

theorem truncates_call (c : Call) : Truncates L s (call o c) (call o' c) := by
  have hcall : call o' c = call o c := by
    rw [ho.eq]
    rfl
  rw [hcall]
  refine truncates_same ?_ ?_
  · rw [call_eq_heard]
    exact grows_heard o s c
  · rw [call_eq_heard]
    exact L.size_congr rfl rfl

theorem truncates_sync : Truncates L s (sync o) (sync o') := by
  have hsync : sync o' = sync o := by
    rw [ho.eq]
    rfl
  have hends : stateOf (sync o s) = s ∨ ∃ cell, stateOf (sync o s) = s.told o cell := by
    cases hcell : Cell.ofPoint s.x s.y with
    | ok cell => exact .inr ⟨cell, by rw [sync_of_cell o s hcell]; rfl⟩
    | error reason =>
      left
      rw [sync_of_astray o s hcell]
      split_ifs
      · rfl
      · rfl
  rw [hsync]
  rcases hends with h | ⟨cell, h⟩
  · exact truncates_same (by rw [h]; exact .refl s) (by rw [h])
  · exact truncates_same (by rw [h]; exact grows_told o s cell)
      (by rw [h]; exact L.size_congr rfl rfl)

theorem truncates_draw (line : Option Int) (cell : Cell) :
    Truncates L s (draw o line cell) (draw o' line cell) := by
  have hbounds : o'.inBounds cell = o.inBounds cell := by
    rw [ho.eq]
    rfl
  have hreport : o'.onPixel = o.onPixel := by
    rw [ho.eq]
  have hpaint (s : RunState) (color : Hsv) :
      Truncates L s (do call o (.drawPixel cell color); record o line (.plot cell color))
        (do call o' (.drawPixel cell color); record o' line (.plot cell color)) :=
    truncates_bind (truncates_call ho _) fun _ s _ => ho.record line _ s
  unfold draw
  rw [hbounds, hreport]
  refine truncates_bind (ho.tick line s) fun _ s _ => ?_
  split_ifs
  · refine truncates_get (truncates_bind (truncates_report cell s.color) fun _ s₁ _ => ?_)
    exact hpaint s₁ s.color
  · exact truncates_get (hpaint s s.color)
  · exact truncates_same (.refl s) rfl

/-- A run and the same run under a limit go side by side. -/
theorem sideBySide_of_curbs : SideBySide (fun s x x' => Truncates L s x x') o o' where
  rel_pure s _ := truncates_same (.refl s) rfl
  rel_throw s _ := truncates_same (.refl s) rfl
  rel_bind := truncates_bind
  rel_get {_ s _ _} hf := truncates_get (hf s (.refl s))
  rel_modify _ hg := truncates_modify hg
  rel_tick s line := ho.tick line s
  rel_record s line _ := ho.record line _ s
  rel_call _ _ := truncates_call ho _
  rel_sync _ := truncates_sync ho
  rel_draw _ line cell := truncates_draw ho line cell

theorem truncates_plan (m : Machine) :
    Truncates L m.state (m.plan.action o) (m.plan.action o') := by
  refine (sideBySide_of_curbs ho).rel_plan (.inr ?_)
  rw [ho.eq]

/-- **Every event is truncated by a limit.** -/
theorem step_truncated {m : Machine} (hm : L.size m.state ≤ L.bound) :
    Truncated L (·.1.state) (fun q => ∃ line, q.2 = .aborted (.fault L.fault line)) (m.step o)
      (m.step o') := by
  have hstate (r : EStateM.Result Abort RunState m.plan.Value) :
      (m.plan.land r).1.state = stateOf r := by
    cases r with
    | _ => rfl
  have htruncated := (truncates_plan ho m).truncated hm
  rw [Machine.step_eq_plan, Machine.step_eq_plan]
  refine htruncated.map m.plan.land hstate fun r hr => ?_
  cases r with
  | ok a s => exact absurd hr id
  | error e s =>
    obtain ⟨line, rfl⟩ := hr
    exact ⟨line, rfl⟩

theorem Reaches.grows {m₀ m : Machine} {past : List Machine} (h : Reaches o m₀ past m) :
    Grows m₀.state m.state := by
  induction h with
  | start => exact .refl _
  | @step past m _ ih =>
    have hgrows := (truncates_plan ho m).grows
    rw [Machine.step_eq_plan, Plan.run]
    cases h : m.plan.action o m.state with
    | _ =>
      rw [h] at hgrows
      exact ih.trans hgrows
  | cancel _ ih =>
    rw [Machine.cancel_state]
    exact ih

end Events

/-! ## Engines -/

/-- A turtle in a cell has come to a result. -/
theorem exists_result_of_placed {m : Machine} (h : m.state.Placed) :
    ∃ r, m.result = .ok r ∧ r.steps = m.state.steps ∧ r.operations = m.state.log := by
  obtain ⟨cell, hcell⟩ := h
  exact ⟨_, result_of_cell hcell, rfl, rfl⟩

/-- What has come to a result is a turtle in a cell. -/
theorem placed_of_result {m : Machine} {r : RunResult} (h : m.result = .ok r) :
    m.state.Placed ∧ r.steps = m.state.steps ∧ r.operations = m.state.log := by
  obtain ⟨cell, hcell, rfl⟩ := exists_cell_of_result h
  exact ⟨⟨cell, hcell⟩, rfl, rfl⟩

/-- The run failed with the fault, and gives what it had come to. -/
def Run.FailsBy (f : Fault) (run : Run) : Prop :=
  ∃ line r, run.outcome = .error (.runtime f line r) ∧ r.steps = run.state.steps ∧
    r.operations = run.state.log

theorem failsBy_of_placed {m : Machine} (h : m.state.Placed) (f : Fault) (line : Option Int) :
    Run.FailsBy f ⟨m.outcome (.aborted (.fault f line)), m.state⟩ := by
  obtain ⟨r, hr, hsteps, hlog⟩ := exists_result_of_placed h
  refine ⟨line, r, ?_, hsteps, hlog⟩
  unfold Machine.outcome Machine.failure
  simp only [hr]

/-- A run with pauses depends on the options only through the parts between the pauses. -/
theorem Machine.asyncStep_congr {o o' : Options} {m : Machine} (h : m.proceed o' = m.proceed o)
    (signal : CancelSignal) (j : Nat) :
    asyncStep o' signal (j, m) = asyncStep o signal (j, m) := by
  rw [asyncStep, asyncStep, h]

section Engines

variable {L : Limit} {o o' : Options} (ho : Curbs L o o') {m : Machine}

include ho

theorem advance_truncated (n : Nat) (hm : L.size m.state ≤ L.bound) :
    Truncated L (·.1.state) (fun q => ∃ line, q.2 = .aborted (.fault L.fault line)) (m.advance o n)
      (m.advance o' n) := by
  induction n generalizing m with
  | zero => exact .same hm
  | succ n ih =>
    have hstep := step_truncated ho hm
    rcases hs : m.step o with ⟨m₁, ev⟩
    rcases hs' : m.step o' with ⟨m₁', ev'⟩
    rw [hs, hs'] at hstep
    cases hstep with
    | same hle =>
      by_cases hev : ev = .idle
      · subst hev
        rw [advance_succ_of_idle hs, advance_succ_of_idle hs']
        exact ih hle
      · rw [advance_succ_of_step hs hev, advance_succ_of_step hs' hev]
        exact .same hle
    | stopped hlt hfault hstops =>
      obtain ⟨line, rfl⟩ := hfault
      have hgrows : Grows m₁.state (m.advance o (n + 1)).1.state := by
        by_cases hev : ev = .idle
        · subst hev
          obtain ⟨past, hpast⟩ := Machine.reaches_advance o n m₁
          rw [advance_succ_of_idle hs]
          exact hpast.grows ho
        · rw [advance_succ_of_step hs hev]
          exact .refl _
      rw [advance_succ_of_step hs' nofun]
      exact .stopped (L.lt_of_grows hlt hgrows) ⟨line, rfl⟩ (hstops.trans hgrows)

/-- **A part of a run up to a movement is truncated by a limit.** -/
theorem proceed_truncated {q : Machine × Machine.Progress} (h : m.proceed o = some q)
    (hm : L.size m.state ≤ L.bound) :
    ∃ q', m.proceed o' = some q' ∧
      Truncated L (·.1.state) (fun q => ∃ line, q.2 = .aborted (.fault L.fault line)) q q' := by
  obtain ⟨hne, n, hn⟩ := Machine.proceed_eq_some_iff.1 h
  have htruncated := advance_truncated ho n hm
  rw [hn] at htruncated
  refine ⟨m.advance o' n, Machine.proceed_eq_some_iff.2 ⟨?_, n, rfl⟩, htruncated⟩
  generalize m.advance o' n = q' at htruncated
  cases htruncated with
  | same => exact hne
  | stopped _ hfault _ =>
    obtain ⟨line, hline⟩ := hfault
    rw [hline]
    nofun

/-- **A run with pauses is truncated by a limit**, if the turtle has a cell. -/
theorem runAsync_truncated {signal : CancelSignal} {j : Nat} {r : AsyncRun}
    (h : m.runAsync o signal j = some r) (hm : L.size m.state ≤ L.bound) (hcell : m.state.Placed) :
    ∃ r', m.runAsync o' signal j = some r' ∧
      Truncated L (·.run.state) (·.run.FailsBy L.fault) r r' := by
  -- a movement in which the limit is exceeded is the last one under the limit
  have hstopped {j : Nat} {m m₁ m₁' : Machine} {line : Option Int} (hcell : m.state.Placed)
      (hlt : L.bound < L.size m₁.state) (hstops : L.Stops m₁'.state m₁.state)
      (hp' : m.proceed o' = some (m₁', .aborted (.fault L.fault line)))
      (hgrows : Grows m₁.state r.run.state) : ∃ r', m.runAsync o' signal j = some r' ∧
        Truncated L (·.run.state) (·.run.FailsBy L.fault) r r' := by
    obtain ⟨past, hpast⟩ := Machine.reaches_of_proceed hp'
    refine ⟨_, Machine.runAsync_of_ne_moved hp' nofun, ?_⟩
    exact .stopped (L.lt_of_grows hlt hgrows) (failsBy_of_placed (hpast.placed hcell) _ line)
      (hstops.trans hgrows)
  replace h : Leads (Machine.asyncStep o signal) (j, m) r := iterate_eq_some_iff.1 h
  generalize hq : (j, m) = q at h
  induction h generalizing j m with
  | @done q r hdone =>
    subst hq
    obtain ⟨m₁, p, hp, hends⟩ := Machine.asyncStep_eq_inr hdone
    obtain ⟨q', hp', htruncated⟩ := proceed_truncated ho hp hm
    have hstate : r.run.state = m₁.state := by
      rcases hends with ⟨-, hr⟩ | ⟨-, -, hr⟩
      · rw [hr]
      · rw [hr]
        exact Machine.cancel_state m₁
    cases htruncated with
    | same hle =>
      refine ⟨r, iterate_of_inr ?_, .same (by rwa [hstate])⟩
      rw [Machine.asyncStep_congr (hp'.trans hp.symm), hdone]
    | stopped hlt hfault hstops =>
      obtain ⟨m₁', p'⟩ := q'
      obtain ⟨line, rfl⟩ := hfault
      exact hstopped hcell hlt hstops hp' (hstate ▸ .refl _)
  | more hmore hleads ih =>
    subst hq
    obtain ⟨m₁, hp, hsees, rfl⟩ := Machine.asyncStep_eq_inl hmore
    obtain ⟨q', hp', htruncated⟩ := proceed_truncated ho hp hm
    cases htruncated with
    | same hle =>
      obtain ⟨past, hpast⟩ := Machine.reaches_of_proceed hp
      rw [Machine.runAsync_of_not_sees hp' hsees]
      exact ih hle (hpast.placed hcell) hstopped rfl
    | stopped hlt hfault hstops =>
      obtain ⟨m₁', p'⟩ := q'
      obtain ⟨line, rfl⟩ := hfault
      obtain ⟨past, m', hreach, hstate⟩ :=
        Machine.reaches_of_runAsync (iterate_eq_some_iff.2 hleads)
      exact hstopped hcell hlt hstops hp' (hstate ▸ hreach.grows ho)

/-- **A run that gives a result is truncated by a limit.** -/
theorem interpretAsync_truncated {signal : CancelSignal} {program : List Instr} {r : RunResult}
    (h : (interpretAsync o signal program).run.Gives r) (hs : L.size (.start o) ≤ L.bound) :
    Truncated L (·.run.state) (·.run.FailsBy L.fault) (interpretAsync o signal program)
      (interpretAsync o' signal program) := by
  obtain ⟨m₀, past, m, hstart, hreach, hres, -, -⟩ := exists_machine_of_gives h
  have hstart' : Machine.start o' program = .ok m₀ := by
    rw [ho.eq]
    exact hstart
  have hcell : m₀.state.Placed := by
    by_contra hastray
    exact hreach.astray hastray (placed_of_result hres).1
  have hm : L.size m₀.state ≤ L.bound := by
    obtain ⟨calls, hstate⟩ := exists_calls_of_start hstart
    have hsize : L.size m₀.state = L.size (.start o) := by
      rw [hstate]
      exact L.size_congr rfl rfl
    rwa [hsize]
  rw [interpretAsync_eq hstart] at h
  rw [interpretAsync_eq hstart, interpretAsync_eq hstart']
  cases hr : m₀.runAsync o signal 0 with
  | none =>
    rw [hr] at h
    rcases h with hok | ⟨f, line, hfail⟩
    · cases hok
    · cases hfail
  | some r =>
    obtain ⟨r', hr', htruncated⟩ := runAsync_truncated ho hr hm hcell
    rw [hr']
    exact htruncated

end Engines

/-- The engine whose run `run` tells of does under the limit what it does without it, up to the
limit. This is said of runs that give a result, and this result tells how much was used up. -/
def CutsShort {γ : Type} (L : Limit) (run : γ → Run) (free limited : γ) : Prop :=
  ∀ r, (run free).Gives r → r.steps = (run free).state.steps ∧
    r.operations = (run free).state.log ∧
    Truncated L (fun a => (run a).state) (fun a => (run a).FailsBy L.fault) free limited

/-- **Every engine is cut short by a limit.** -/
theorem engines_cutShort {L : Limit} {o o' : Options} (ho : Curbs L o o')
    (hs : L.size (.start o) ≤ L.bound) (program : List Instr) :
    CutsShort L id (interpret o program) (interpret o' program) ∧
    CutsShort L id (interpretStepping o program) (interpretStepping o' program) ∧
    ∀ signal, CutsShort L AsyncRun.run (interpretAsync o signal program)
      (interpretAsync o' signal program) := by
  have hasync (signal : CancelSignal) : CutsShort L AsyncRun.run
      (interpretAsync o signal program) (interpretAsync o' signal program) := by
    intro r hr
    obtain ⟨m₀, past, m, hstart, hreach, hres, hstate, -⟩ := exists_machine_of_gives hr
    obtain ⟨-, hsteps, hlog⟩ := placed_of_result hres
    rw [hstate] at hsteps hlog
    exact ⟨hsteps, hlog, interpretAsync_truncated ho hr hs⟩
  have honce : CutsShort L id (interpret o program) (interpret o' program) := by
    intro r hr
    rw [← interpretAsync_never o, ← interpretAsync_never o'] at *
    obtain ⟨hsteps, hlog, htruncated⟩ := hasync _ r hr
    exact ⟨hsteps, hlog, htruncated.map AsyncRun.run (fun _ => rfl) fun _ h => h⟩
  refine ⟨honce, ?_, hasync⟩
  rwa [interpretStepping_eq, interpretStepping_eq]

end PixelTurtle
