import PixelTurtle.Proofs.Engines

/-!
# Where the engines end

Whatever an engine hands out, a result or a failure, it has from a machine that a host could have
arrived at event by event. What holds of all reachable machines therefore holds of the engines.

* `Machine.Ends` is how a run ends at a machine: with its next event, or by a cancellation.
* `interpretAsync_ends` and `interpret_ends` say that the engines end in one of these ways, after
  events that all let the run go on.
* `exists_of_mem_stepReplies` says the same of the failures that a host meets by its steps.
-/

namespace PixelTurtle

variable {o : Options} {m₀ m m' : Machine} {past : List Machine}

theorem Reaches.trans {past' : List Machine} (h : Reaches o m₀ past m)
    (h' : Reaches o m past' m') : Reaches o m₀ (past ++ past') m' := by
  induction h' with
  | start => rwa [List.append_nil]
  | step _ ih =>
    rw [← List.append_assoc]
    exact .step ih
  | cancel _ ih => exact .cancel ih

theorem Reaches.of_step {ev : Event} (h : m.step o = (m', ev)) : Reaches o m [m] m' := by
  have hstep : Reaches o m [m] (m.step o).1 := .step .start
  rwa [h] at hstep

/-- `Passes o m past m'`: the machine `m` comes to `m'` by events after each of which it goes on,
and `past` are the machines on which they were run. -/
def Passes (o : Options) (m : Machine) (past : List Machine) (m' : Machine) : Prop :=
  Reaches o m past m' ∧ ∀ x ∈ past, (x.step o).2.goesOn = true

theorem Passes.refl (o : Options) (m : Machine) : Passes o m [] m :=
  ⟨.start, nofun⟩

theorem Passes.trans {m'' : Machine} {past' : List Machine} (h : Passes o m past m')
    (h' : Passes o m' past' m'') : Passes o m (past ++ past') m'' := by
  refine ⟨h.1.trans h'.1, fun x hx => ?_⟩
  rcases List.mem_append.1 hx with hx | hx
  · exact h.2 x hx
  · exact h'.2 x hx

theorem Passes.of_step {ev : Event} (h : m.step o = (m', ev)) (hev : ev.goesOn = true) :
    Passes o m [m] m' := by
  refine ⟨.of_step h, fun x hx => ?_⟩
  rw [List.mem_singleton.1 hx, h]
  exact hev

namespace Machine

variable {p : Progress} {signal : CancelSignal}

/-- An answer of `proceed` comes from an event of a machine that was passed to. -/
theorem exists_event_of_proceed (h : m.proceed o = some (m', p)) :
    ∃ past last ev, Passes o m past last ∧ last.step o = (m', ev) ∧ ev.progress = p := by
  refine proceed_induction (motive := fun m => ∃ past last ev, Passes o m past last ∧
    last.step o = (m', ev) ∧ ev.progress = p) (fun m ev hs _ hev => ?_) (fun m m₁ hs ih => ?_) h
  · exact ⟨[], m, ev, .refl o m, hs, hev⟩
  · obtain ⟨past, last, ev, hpast, hlast, hev⟩ := ih
    exact ⟨_, last, ev, (Passes.of_step hs rfl).trans hpast, hlast, hev⟩

theorem reaches_advance (o : Options) (n : Nat) (m : Machine) :
    ∃ past, Reaches o m past (m.advance o n).1 := by
  induction n generalizing m with
  | zero => exact ⟨[], .start⟩
  | succ n ih =>
    rcases hs : m.step o with ⟨m₁, ev⟩
    by_cases hev : ev = .idle
    · subst hev
      obtain ⟨past, hpast⟩ := ih m₁
      rw [advance_succ_of_idle hs]
      exact ⟨_, (Reaches.of_step hs).trans hpast⟩
    · rw [advance_succ_of_step hs hev]
      exact ⟨_, .of_step hs⟩

theorem reaches_of_proceed (h : m.proceed o = some (m', p)) : ∃ past, Reaches o m past m' := by
  obtain ⟨-, n, hn⟩ := proceed_eq_some_iff.1 h
  have hreach := reaches_advance o n m
  rwa [hn] at hreach

theorem passes_of_moved (h : m.proceed o = some (m', .moved)) : ∃ past, Passes o m past m' := by
  obtain ⟨past, last, ev, hpast, hlast, hev⟩ := exists_event_of_proceed h
  cases ev with
  | moved => exact ⟨_, hpast.trans (.of_step hlast rfl)⟩
  | _ => cases hev

/-- The ways in which a run ends at the machine `m`. -/
inductive Ends (o : Options) (m : Machine) : Run → Prop
  | ended {m' : Machine} : m.step o = (m', .ended) → Ends o m ⟨m'.success, m'.state⟩
  | aborted {m' : Machine} {a : Abort} :
    m.step o = (m', .aborted a) → Ends o m ⟨.error (m'.failure a), m'.state⟩
  | cancelled : Ends o m m.cancelled

theorem exists_ends_of_proceed (h : m.proceed o = some (m', p)) (hp : p ≠ .moved) :
    ∃ past last, Passes o m past last ∧ last.Ends o ⟨m'.outcome p, m'.state⟩ := by
  obtain ⟨past, last, ev, hpast, hlast, rfl⟩ := exists_event_of_proceed h
  refine ⟨past, last, hpast, ?_⟩
  cases ev with
  | idle => exact absurd rfl (proceed_ne_unfinished h)
  | moved => exact absurd rfl hp
  | ended => exact .ended hlast
  | aborted a => exact .aborted hlast

theorem exists_ends_of_runAsync {j : Nat} {r : AsyncRun} (h : m.runAsync o signal j = some r) :
    ∃ past last, Passes o m past last ∧ last.Ends o r.run := by
  refine runAsync_induction
    (motive := fun _ m => ∃ past last, Passes o m past last ∧ last.Ends o r.run) ?_ ?_ ?_ h
  · intro j m m' p hp hne hr
    rw [hr]
    exact exists_ends_of_proceed hp hne
  · intro j m m' hp _ hr
    rw [hr]
    obtain ⟨past, hpast⟩ := passes_of_moved hp
    exact ⟨past, m', hpast, .cancelled⟩
  · rintro j m m' hp ⟨past', last, hpast', hlast⟩
    obtain ⟨past, hpast⟩ := passes_of_moved hp
    exact ⟨_, last, hpast.trans hpast', hlast⟩

/-- The state that a run with pauses leaves behind is that of a machine it reached. -/
theorem reaches_of_runAsync {j : Nat} {r : AsyncRun} (h : m.runAsync o signal j = some r) :
    ∃ past m', Reaches o m past m' ∧ m'.state = r.run.state := by
  obtain ⟨past, last, hpast, hends⟩ := exists_ends_of_runAsync h
  generalize r.run = run at hends
  cases hends with
  | ended hlast => exact ⟨_, _, hpast.1.trans (.of_step hlast), rfl⟩
  | aborted hlast => exact ⟨_, _, hpast.1.trans (.of_step hlast), rfl⟩
  | cancelled => exact ⟨past, last.cancel, .cancel hpast.1, rfl⟩

end Machine

/-! ## Engines -/

section

variable {signal : CancelSignal} {program : List Instr}

/-- **A run with pauses ends at a machine that it passed to**, unless it never ends. -/
theorem interpretAsync_ends (h : Machine.start o program = .ok m₀) :
    (interpretAsync o signal program).run = .endless m₀.state ∨
      ∃ past m, Passes o m₀ past m ∧ m.Ends o (interpretAsync o signal program).run := by
  rw [interpretAsync_eq h]
  cases hr : m₀.runAsync o signal 0 with
  | none => exact .inl rfl
  | some r => exact .inr (Machine.exists_ends_of_runAsync hr)

theorem interpretAsync_never (o : Options) (program : List Instr) :
    (interpretAsync o (fun _ => false) program).run = interpret o program := by
  cases h : Machine.start o program with
  | error e => rw [interpretAsync, interpret, h]
  | ok m =>
    refine (agreement_uninterrupted h fun k hk => ?_).1
    obtain ⟨⟨-, paused, hs⟩, -⟩ := hk
    cases hs

/-- **A run in one go ends at a machine that it passed to**, unless it never ends. -/
theorem interpret_ends (h : Machine.start o program = .ok m₀) :
    interpret o program = .endless m₀.state ∨
      ∃ past m, Passes o m₀ past m ∧ m.Ends o (interpret o program) := by
  rw [← interpretAsync_never]
  exact interpretAsync_ends h

end

/-! ## Hosts -/

namespace Machine

/-- A step leads to a reachable machine, and fails only as one of its events does. -/
theorem reaches_stepOnce (o : Options) (m : Machine) :
    (∃ past, Reaches o m past (m.stepOnce o).1) ∧
      ∀ e, (m.stepOnce o).2 = .error e → e = .unfinished ∨
        ∃ past last m' a, Reaches o m past last ∧ last.step o = (m', .aborted a) ∧
          e = m'.failure a := by
  cases hp : m.proceed o with
  | none =>
    rw [stepOnce_of_none hp]
    exact ⟨⟨[], .start⟩, fun e he => .inl (Except.error.inj he).symm⟩
  | some q =>
    obtain ⟨m', p⟩ := q
    obtain ⟨past, last, ev, hpast, hlast, rfl⟩ := exists_event_of_proceed hp
    have hfst : (m.stepOnce o).1 = m' := by
      cases ev with
      | idle => exact absurd rfl (proceed_ne_unfinished hp)
      | _ => rw [stepOnce, hp]; rfl
    refine ⟨⟨_, hfst ▸ hpast.1.trans (.of_step hlast)⟩, fun e he => ?_⟩
    cases ev with
    | aborted a =>
      refine .inr ⟨past, last, m', a, hpast.1, hlast, ?_⟩
      rw [stepOnce, hp] at he
      exact (Except.error.inj he).symm
    | idle => exact absurd rfl (proceed_ne_unfinished hp)
    | _ =>
      rw [stepOnce, hp] at he
      cases he

theorem reaches_serve (o : Options) (m : Machine) (c : HostCall) :
    ∃ past, Reaches o m past (m.serve o c).1 := by
  cases c with
  | step => exact (reaches_stepOnce o m).1
  | cancel => exact ⟨[], .cancel .start⟩
  | _ => exact ⟨[], .start⟩

/-- **The steps of a host fail only as an event of a reachable machine does**, whatever else it
calls and however often it goes on after a failure. -/
theorem exists_of_mem_stepReplies {calls : List HostCall} {e : Failure}
    (h : .error e ∈ m.stepReplies o calls) :
    e = .unfinished ∨ ∃ past last m' a, Reaches o m past last ∧
      last.step o = (m', .aborted a) ∧ e = m'.failure a := by
  induction calls generalizing m with
  | nil => cases h
  | cons c calls ih =>
    obtain ⟨past, hpast⟩ := reaches_serve o m c
    have later : .error e ∈ (m.serve o c).1.stepReplies o calls → e = .unfinished ∨
        ∃ past last m' a, Reaches o m past last ∧ last.step o = (m', .aborted a) ∧
          e = m'.failure a := by
      intro h
      rcases ih h with hu | ⟨past', last, m', a, hreach, hlast, he⟩
      · exact .inl hu
      · exact .inr ⟨_, last, m', a, hpast.trans hreach, hlast, he⟩
    by_cases hs : c = .step
    · subst hs
      rw [stepReplies_step] at h
      rcases List.mem_cons.1 h with h | h
      · exact (reaches_stepOnce o m).2 e h.symm
      · exact later h
    · rw [stepReplies_of_ne_step hs] at h
      exact later h

end Machine

end PixelTurtle
