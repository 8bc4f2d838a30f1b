import Mathlib.Data.Nat.Find
import PixelTurtle.Proofs.Driving

/-!
# The step budget

A budget of `N` steps bounds whatever a host does with a machine. The invariant is `Solvent`: the
steps so far pay for the instructions that were carried out and, besides these, for the cells that
were drawn and for those that were reported. A machine may be one step over its budget, and then its
run has ended at the limit.

* `billed_step` is what one event comes to.
* `Reaches.solvent` carries the invariant along a run.
* `exists_not_goesOn` bounds the number of events that a machine makes by itself.
* `run_within_budget` is the sum of it.
-/

namespace PixelTurtle

namespace Machine

/-- The next event ends the run because the budget is used up. -/
def HitsLimit (o : Options) (m : Machine) : Prop :=
  ∃ line, (m.step o).2 = .aborted (.fault .stepLimit line)

theorem carries_of_status_ne {o : Options} {m : Machine} (h : m.status ≠ .running) :
    m.carries o = false := by
  rw [carries, next?_of_status_ne h]
  rfl

end Machine

theorem Event.overrun_le (e : Event) : e.overrun ≤ 1 := by
  unfold Event.overrun Abort.overrun
  split
  · split
    · exact Nat.le_refl _
    · exact Nat.zero_le _
  · exact Nat.zero_le _

theorem Event.overrun_of_goesOn {e : Event} (h : e.goesOn = true) : e.overrun = 0 := by
  cases e with
  | idle => rfl
  | moved => rfl
  | ended => cases h
  | aborted a => cases h

theorem hitsLimit_of_overrun {o : Options} {m : Machine} (h : (m.step o).2.overrun ≠ 0) :
    m.HitsLimit o := by
  rw [Machine.HitsLimit]
  unfold Event.overrun Abort.overrun at h
  split at h
  · rename_i a ha
    split at h
    · rename_i line
      exact ⟨line, ha⟩
    · exact absurd rfl h
  · exact absurd rfl h

section

variable {o : Options} {n : Int}

/-- What one event comes to. -/
theorem billed_step (hn : o.maxSteps = some n) {m : Machine} (hm : m.status = .running)
    (hs : m.state.steps ≤ n.toNat) :
    Billed n.toNat (m.carries o).toNat m.frames.length m.state (m.step o) :=
  (comes_step o m).billed hn hm hs

/-! ## What is paid for -/

/-- The machine `m`, for which the machines `past` ran an event each, is `excess` steps over a
budget of `N`; its steps pay for what it has done. -/
structure Solvent (o : Options) (N excess : Nat) (past : List Machine) (m : Machine) : Prop where
  steps : m.state.steps ≤ N + excess
  excess_le : excess ≤ 1
  drawn : past.countP (·.carries o) + m.state.drawn + excess ≤ m.state.steps
  pixels : past.countP (·.carries o) + m.state.pixels.size + excess ≤ m.state.steps
  hit : excess ≠ 0 → m.status ≠ .running ∧ ∃ m' ∈ past, m'.HitsLimit o

theorem spends_cleared (o : Options) : Spends 0 (.start o) (.cleared o) := by
  unfold RunState.cleared
  split_ifs
  · exact Spends.heard (.refl _) rfl
  · exact .refl _

/-- Setting up spends nothing. -/
theorem spends_start {program : List Instr} {m : Machine} (h : Machine.start o program = .ok m) :
    Spends 0 (.start o) m.state := by
  cases hcell : Cell.ofPoint o.startX o.startY with
  | ok cell =>
    rw [start_of_cell hcell] at h
    cases h
    exact (spends_cleared o).told cell
  | error reason =>
    rw [start_of_astray hcell] at h
    split_ifs at h
    cases h
    exact spends_cleared o

/-- A machine starts with nothing spent and nothing drawn. -/
theorem solvent_start {program : List Instr} {m : Machine} (h : Machine.start o program = .ok m)
    (N : Nat) : Solvent o N 0 [] m := by
  obtain ⟨-, hdrawn, hpixels⟩ := spends_start h
  obtain ⟨calls, hcalls⟩ := exists_calls_of_start h
  have hsteps : m.state.steps = 0 := by rw [hcalls]; rfl
  have hdrawn₀ : (RunState.start o).drawn = 0 := rfl
  have hpixels₀ : (RunState.start o).pixels.size = 0 := rfl
  have hcount : ([] : List Machine).countP (·.carries o) = 0 := rfl
  exact ⟨by omega, Nat.zero_le 1, by omega, by omega, fun h => absurd rfl h⟩

theorem countP_carries_concat (o : Options) (past : List Machine) (m : Machine) :
    (past ++ [m]).countP (·.carries o) = past.countP (·.carries o) + (m.carries o).toNat := by
  rw [List.countP_append, List.countP_singleton]
  cases m.carries o <;> rfl

/-- An event of a run that goes on keeps the machine solvent. -/
theorem Solvent.step_running (hn : o.maxSteps = some n) {excess : Nat} {past : List Machine}
    {m : Machine} (h : Solvent o n.toNat excess past m) (hm : m.status = .running) :
    Solvent o n.toNat (m.step o).2.overrun (past ++ [m]) (m.step o).1 := by
  -- A machine that is over its budget does not run.
  have ho : excess = 0 := by
    cases excess with
    | zero => rfl
    | succ k => exact absurd hm (h.hit (Nat.succ_ne_zero k)).1
  subst ho
  obtain ⟨⟨h₁, h₂, h₃⟩, hle, hover, -⟩ := billed_step hn hm h.steps
  have hd := h.drawn
  have hp := h.pixels
  have hc := countP_carries_concat o past m
  refine ⟨hle, Event.overrun_le _, by omega, by omega, fun hne => ⟨hover hne, m, ?_, ?_⟩⟩
  · exact List.mem_append_right _ (List.mem_singleton.2 rfl)
  · exact hitsLimit_of_overrun hne

/-- A run that is over stays as it is. -/
theorem Solvent.step_ended {N excess : Nat} {past : List Machine} {m : Machine}
    (h : Solvent o N excess past m) (hm : m.status ≠ .running) :
    Solvent o N excess (past ++ [m]) (m.step o).1 := by
  have hc := countP_carries_concat o past m
  rw [Machine.carries_of_status_ne hm, Bool.toNat_false, Nat.add_zero] at hc
  rw [Machine.step_of_status_ne hm]
  refine ⟨h.steps, h.excess_le, by rw [hc]; exact h.drawn, by rw [hc]; exact h.pixels, ?_⟩
  intro hne
  obtain ⟨hs, m', hm', hl⟩ := h.hit hne
  exact ⟨hs, m', List.mem_append_left _ hm', hl⟩

/-- Every machine that a host can arrive at is solvent. -/
theorem Reaches.solvent (hn : o.maxSteps = some n) {program : List Instr} {m₀ : Machine}
    (h₀ : Machine.start o program = .ok m₀) {past : List Machine} {m : Machine}
    (h : Reaches o m₀ past m) : ∃ excess, Solvent o n.toNat excess past m := by
  induction h with
  | start => exact ⟨0, solvent_start h₀ _⟩
  | step h ih =>
    obtain ⟨excess, ih⟩ := ih
    rename_i past m
    by_cases hm : m.status = .running
    · exact ⟨_, ih.step_running hn hm⟩
    · exact ⟨excess, ih.step_ended hm⟩
  | cancel h ih =>
    obtain ⟨excess, h₁, h₂, h₃, h₄, h₅⟩ := ih
    refine ⟨excess, ?_, h₂, ?_, ?_, fun hne => ⟨Machine.cancel_status_ne _, (h₅ hne).2⟩⟩
    · rwa [Machine.cancel_state]
    · rwa [Machine.cancel_state]
    · rwa [Machine.cancel_state]

/-! ## Loops that end -/

theorem running_of_goesOn {m : Machine} (h : (m.step o).2.goesOn = true) :
    m.status = .running := by
  by_cases hm : m.status = .running
  · exact hm
  · rw [Machine.step_of_status_ne hm] at h
    cases h

/-- An event after which a machine goes on by itself leaves it within the budget, with less to do:
it has used up a part of the budget, or left a body. -/
theorem less_of_goesOn (hn : o.maxSteps = some n) {m : Machine} (hs : m.state.steps ≤ n.toNat)
    (hg : (m.step o).2.goesOn = true) :
    (m.step o).1.state.steps ≤ n.toNat ∧
      2 * (n.toNat - (m.step o).1.state.steps) + (m.step o).1.frames.length <
        2 * (n.toNat - m.state.steps) + m.frames.length := by
  have hb := billed_step hn (running_of_goesOn hg) hs
  have hle := hb.steps_le
  rw [Event.overrun_of_goesOn hg, Nat.add_zero] at hle
  exact ⟨hle, hb.less hg⟩

/-- A machine comes to an event after which it does not go on by itself. -/
theorem exists_not_goesOn (hn : o.maxSteps = some n) {m : Machine}
    (hs : m.state.steps ≤ n.toNat) {d : Nat}
    (hd : 2 * (n.toNat - m.state.steps) + m.frames.length ≤ d) :
    ∃ k ≤ d, ((m.after o k).step o).2.goesOn = false := by
  induction d generalizing m with
  | zero =>
    refine ⟨0, Nat.le_refl 0, ?_⟩
    cases hg : ((m.after o 0).step o).2.goesOn with
    | false => rfl
    | true =>
      have := (less_of_goesOn hn hs hg).2
      omega
  | succ d ih =>
    cases hg : (m.step o).2.goesOn with
    | false => exact ⟨0, Nat.zero_le _, hg⟩
    | true =>
      obtain ⟨hle, hlt⟩ := less_of_goesOn hn hs hg
      obtain ⟨k, hk, h⟩ := ih hle (by omega)
      exact ⟨k + 1, Nat.succ_le_succ hk, h⟩

/-- A machine that is solvent comes to such an event before its patience is at an end. -/
theorem Solvent.exists_not_goesOn (hn : o.maxSteps = some n) {excess : Nat} {past : List Machine}
    {m : Machine} (h : Solvent o n.toNat excess past m) :
    ∃ k < m.patience o, ((m.after o k).step o).2.goesOn = false := by
  have hp : m.patience o = 2 * n.toNat + m.frames.length + 4 := by rw [Machine.patience, hn]
  by_cases hm : m.status = .running
  · have hs : m.state.steps ≤ n.toNat := by
      cases excess with
      | zero => exact h.steps
      | succ k => exact absurd hm (h.hit (Nat.succ_ne_zero k)).1
    obtain ⟨k, hk, hg⟩ := PixelTurtle.exists_not_goesOn hn hs (Nat.le_refl _)
    exact ⟨k, by omega, hg⟩
  · refine ⟨0, by omega, ?_⟩
    rw [Machine.after, Machine.step_of_status_ne hm]
    rfl

theorem goesOn_after {m m' : Machine} {ev : Event} (hs : m.step o = (m', ev))
    (hg : ev.goesOn = true) {k : Nat} (h : ∀ j < k, ((m'.after o j).step o).2.goesOn = true) :
    ∀ j < k + 1, ((m.after o j).step o).2.goesOn = true := by
  intro j hj
  cases j with
  | zero =>
    rw [Machine.after, hs]
    exact hg
  | succ j =>
    rw [Machine.after, hs]
    exact h j (Nat.lt_of_succ_lt_succ hj)

theorem goesOn_of_advance_unfinished {k : Nat} {m : Machine}
    (h : (m.advance o k).2 = .unfinished) :
    ∀ j < k, ((m.after o j).step o).2.goesOn = true := by
  induction k generalizing m with
  | zero => exact fun j hj => absurd hj (Nat.not_lt_zero j)
  | succ k ih =>
    rw [Machine.advance] at h
    rcases hs : m.step o with ⟨m', ev⟩
    rw [hs] at h
    cases ev with
    | idle => exact goesOn_after hs rfl (ih h)
    | moved => cases h
    | ended => cases h
    | aborted a => cases h

/-- The first of the events before which there is an instruction, or after which a machine does not
go on, comes after ends of bodies only. -/
theorem exists_next {m : Machine} {p k : Nat} (hk : k < p)
    (hg : ((m.after o k).step o).2.goesOn = false) :
    ∃ k < p, (∀ j < k, (m.after o j).next? = none) ∧
      ((m.after o k).next?.isSome ∨ ((m.after o k).step o).2.goesOn = false) := by
  have hex : ∃ k, (m.after o k).next?.isSome ∨ ((m.after o k).step o).2.goesOn = false :=
    ⟨k, .inr hg⟩
  refine ⟨Nat.find hex, Nat.lt_of_le_of_lt (Nat.find_min' hex (.inr hg)) hk, fun j hj => ?_,
    Nat.find_spec hex⟩
  have hj' := Nat.find_min hex hj
  rw [not_or, Option.not_isSome_iff_eq_none] at hj'
  exact hj'.1

theorem failure_ne_unfinished (m : Machine) (a : Abort) : m.failure a ≠ .unfinished := by
  unfold Machine.failure
  split
  · split <;> nofun
  · nofun
  · nofun
  · nofun

theorem success_ne_unfinished (m : Machine) : m.success ≠ .error .unfinished := by
  unfold Machine.success
  split <;> nofun

theorem outcome_ne_unfinished {m : Machine} {p : Machine.Progress} (hp : p ≠ .unfinished) :
    m.outcome p ≠ .error .unfinished := by
  cases p with
  | moved => exact success_ne_unfinished m
  | ended => exact success_ne_unfinished m
  | aborted a =>
    intro h
    exact failure_ne_unfinished m a (Except.error.inj h)
  | unfinished => exact absurd rfl hp

theorem interpret_ne_unfinished (hn : o.maxSteps = some n) (program : List Instr) :
    (interpret o program).outcome ≠ .error .unfinished := by
  rw [interpret]
  cases h₀ : Machine.start o program with
  | error e =>
    intro h
    exact failure_ne_unfinished _ _ (Except.error.inj h)
  | ok m =>
    obtain ⟨k, -, hg⟩ := (solvent_start h₀ n.toNat).exists_not_goesOn hn
    obtain ⟨⟨m', p⟩, hf⟩ := Option.isSome_iff_exists.1 (Machine.finish_isSome hg)
    simp only [hf]
    exact outcome_ne_unfinished (Machine.finish_ne_unfinished hf)

/-- **A step budget bounds every run.** Under a budget of `N` steps, wherever a host arrives with a
machine: at most one step is over the budget, and only after the run has hit its limit; not more
cells were drawn, not more were reported and not more instructions were carried out than the budget
has steps; after finitely many ends of bodies there is a next instruction, or the run does not go on
by itself; and after finitely many events there is a movement, or again the run does not go on. So
every program comes to an end. -/
theorem run_within_budget {N : Int} (hN : o.maxSteps = some N) (program : List Instr) :
    (∀ m₀, Machine.start o program = .ok m₀ → ∀ past m, Reaches o m₀ past m →
      m.state.steps ≤ N.toNat + 1 ∧
      (N.toNat < m.state.steps → ∃ m' ∈ past, m'.HitsLimit o) ∧
      m.state.drawn ≤ N.toNat ∧ m.state.pixels.size ≤ N.toNat ∧
      past.countP (·.carries o) ≤ N.toNat ∧
      (∃ k < m.patience o, (∀ j < k, (m.after o j).next? = none) ∧
        ((m.after o k).next?.isSome ∨ ((m.after o k).step o).2.goesOn = false)) ∧
      (m.advance o (m.patience o)).2 ≠ .unfinished) ∧
    (interpret o program).outcome ≠ .error .unfinished := by
  refine ⟨fun m₀ h₀ past m h => ?_, interpret_ne_unfinished hN program⟩
  obtain ⟨excess, hs⟩ := h.solvent hN h₀
  obtain ⟨k, hk, hg⟩ := hs.exists_not_goesOn hN
  obtain ⟨h₁, h₂, h₃, h₄, h₅⟩ := hs
  refine ⟨by omega, fun hlt => (h₅ (by omega)).2, by omega, by omega, by omega,
    exists_next hk hg, fun hu => ?_⟩
  rw [goesOn_of_advance_unfinished hu k hk] at hg
  cases hg

end

/-- A loop with an empty body that waits forever hits a limit of three steps with its fourth. -/
theorem run_within_budget_wait :
    ∃ m₀ m : Machine, ∃ past : List Machine,
      Machine.start { maxSteps := some 3 }
        [.loop .until none (some (.num 0)) [] (some 1)] = .ok m₀ ∧
      Reaches { maxSteps := some 3 } m₀ past m ∧ m.state.steps = 3 + 1 ∧ m.status = .failed ∧
      ∃ m' ∈ past, m'.HitsLimit { maxSteps := some 3 } := by
  have h := (run_within_budget (o := { maxSteps := some 3 }) rfl
    [.loop .until none (some (.num 0)) [] (some 1)]).1 _ rfl _ _
      (.step (.step (.step (.step .start))))
  refine ⟨_, _, _, rfl, .step (.step (.step (.step .start))), ?_, ?_, h.2.1 ?_⟩
  · decide +kernel
  · decide +kernel
  · decide +kernel

/-- A budget may be negative. The program without instructions then completes, with more steps than
the budget has and without hitting the limit. -/
theorem steps_over_negative_budget :
    ¬ ∀ m₀, Machine.start { maxSteps := some (-1) } [] = .ok m₀ →
      ∀ past m, Reaches { maxSteps := some (-1) } m₀ past m →
        (-1 : Int) < m.state.steps → ∃ m' ∈ past, m'.HitsLimit { maxSteps := some (-1) } := by
  intro h
  obtain ⟨m', hm', line, hl⟩ := h _ rfl _ _ (.step .start) (by decide)
  obtain rfl := List.mem_singleton.1 hm'
  cases hl

end PixelTurtle
