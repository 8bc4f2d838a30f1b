import Mathlib.Order.Bounds.Basic
import Mathlib.Data.Nat.Find
import PixelTurtle.Proofs.Budget

/-!
# The engines agree

Whatever a host does between two movements, it sees the same run. The three engines are compared on
the sequence of machines `m.stepped o 0`, `m.stepped o 1`, … that a host steps through: the run in
one go passes through it up to the end (`finish_eq_some_iff`), and so does the run with pauses, up
to the first movement after which it is found cancelled (`runAsync_of_moves`).

* `Machine.movements` counts the movements of a run by its events.
* `CancelSignal.Sees` says that the host has cancelled at one of the two checks after a movement,
  and `Machine.CancelledAt` that this is the first such movement.
* `Machine.serveAll` answers a host that steps, cancels and asks in any order.
* `engines_agree` puts the comparisons together.
-/

namespace PixelTurtle

namespace Machine

variable {o : Options} {m m' : Machine} {p : Progress} {k n : Nat}

/-! ## Steps of a host -/

/-- The machine after `k` steps. -/
def stepped (o : Options) (k : Nat) (m : Machine) : Machine :=
  (fun m => (m.stepOnce o).1)^[k] m

/-- The first `k` steps are movements. -/
def Moves (o : Options) (k : Nat) (m : Machine) : Prop :=
  ∀ i < k, ((m.stepped o i).stepOnce o).2 = .ok true

/-- How a run ended, given the answer to its last step. -/
def ending (m : Machine) : Except Failure Bool → Except Failure RunResult
  | .ok _ => m.success
  | .error e => .error e

theorem stepped_zero (o : Options) (m : Machine) : m.stepped o 0 = m := rfl

theorem stepped_succ (o : Options) (k : Nat) (m : Machine) :
    m.stepped o (k + 1) = (m.stepOnce o).1.stepped o k := rfl

theorem stepped_succ_last (o : Options) (k : Nat) (m : Machine) :
    m.stepped o (k + 1) = ((m.stepped o k).stepOnce o).1 :=
  Function.iterate_succ_apply' ..

theorem stepOnce_of_moved (h : m.proceed o = some (m', .moved)) :
    m.stepOnce o = (m', .ok true) := by
  rw [stepOnce, h]

/-- A step that answers with a movement has made one. -/
theorem proceed_of_stepOnce (h : (m.stepOnce o).2 = .ok true) :
    m.proceed o = some ((m.stepOnce o).1, .moved) := by
  unfold stepOnce at h ⊢
  cases hp : m.proceed o with
  | none =>
    rw [hp] at h
    cases h
  | some r =>
    obtain ⟨m', p⟩ := r
    rw [hp] at h
    cases p with
    | moved => rfl
    | _ => cases h

/-- A step that is no movement ends the run. -/
theorem stepOnce_of_ne_moved (h : m.proceed o = some (m', p)) (hp : p ≠ .moved) :
    ∃ x, m.stepOnce o = (m', x) ∧ x ≠ .ok true ∧ x ≠ .error .unfinished ∧
      m'.outcome p = m'.ending x := by
  cases p with
  | moved => exact absurd rfl hp
  | ended => exact ⟨.ok false, by rw [stepOnce, h], nofun, nofun, rfl⟩
  | aborted a =>
    refine ⟨.error (m'.failure a), by rw [stepOnce, h], nofun, fun hu => ?_, rfl⟩
    exact failure_ne_unfinished m' a (Except.error.inj hu)
  | unfinished => exact absurd rfl (proceed_ne_unfinished h)

theorem stepOnce_of_none (h : m.proceed o = none) : m.stepOnce o = (m, .error .unfinished) := by
  rw [stepOnce, h]

theorem Moves.mono {j : Nat} (h : m.Moves o k) (hjk : j ≤ k) : m.Moves o j :=
  fun i hi => h i (Nat.lt_of_lt_of_le hi hjk)

theorem moves_zero (o : Options) (m : Machine) : m.Moves o 0 :=
  fun i hi => absurd hi (Nat.not_lt_zero i)

theorem moves_succ (h : m.proceed o = some (m', .moved)) :
    m.Moves o (k + 1) ↔ m'.Moves o k := by
  have hs := stepOnce_of_moved h
  refine ⟨fun hm i hi => ?_, fun hm i hi => ?_⟩
  · have := hm (i + 1) (Nat.succ_lt_succ hi)
    rwa [stepped_succ, hs] at this
  · cases i with
    | zero =>
      show (m.stepOnce o).2 = .ok true
      rw [hs]
    | succ i =>
      rw [stepped_succ, hs]
      exact hm i (Nat.lt_of_succ_lt_succ hi)

theorem Moves.proceed_eq (h : m.Moves o (k + 1)) :
    m.proceed o = some ((m.stepOnce o).1, .moved) :=
  proceed_of_stepOnce (h 0 (Nat.succ_pos k))

theorem Moves.proceed_last (h : m.Moves o (k + 1)) :
    (m.stepped o k).proceed o = some (m.stepped o (k + 1), .moved) := by
  rw [stepped_succ_last]
  exact proceed_of_stepOnce (h k (Nat.lt_succ_self k))

/-! ## In one go -/

/-- **A run in one go makes the movements of the steps and ends like the step after them.** -/
theorem finish_eq_some_iff :
    m.finish o = some (m', p) ↔
      ∃ k, m.Moves o k ∧ (m.stepped o k).proceed o = some (m', p) ∧ p ≠ .moved := by
  constructor
  · intro h
    refine finish_induction (motive := fun m => ∃ k, m.Moves o k ∧
      (m.stepped o k).proceed o = some (m', p) ∧ p ≠ .moved)
      (fun m hp hne => ⟨0, moves_zero o m, hp, hne⟩) ?_ h
    rintro m m₁ hp ⟨k, hm, hk, hne⟩
    refine ⟨k + 1, (moves_succ hp).2 hm, ?_, hne⟩
    rw [stepped_succ, stepOnce_of_moved hp]
    exact hk
  · rintro ⟨k, hm, hp, hne⟩
    induction k generalizing m with
    | zero => exact finish_of_ne_moved hp hne
    | succ k ih =>
      have h₁ := hm.proceed_eq
      rw [finish_of_moved h₁]
      exact ih ((moves_succ h₁).1 hm) hp

/-! ## Movements of a run -/

/-- The movements among the next `n` events of a run. -/
def movements (o : Options) : Nat → Machine → Nat
  | 0, _ => 0
  | n + 1, m =>
    match m.step o with
    | (m, .idle) => movements o n m
    | (m, .moved) => movements o n m + 1
    | _ => 0

theorem movements_of_idle (h : m.step o = (m', .idle)) :
    m.movements o (n + 1) = m'.movements o n := by
  rw [movements, h]

theorem movements_of_moved (h : m.step o = (m', .moved)) :
    m.movements o (n + 1) = m'.movements o n + 1 := by
  rw [movements, h]

/-- Up to a movement and `n` events further there is one movement more. -/
theorem exists_movements_succ (h : m.proceed o = some (m', .moved)) (n : Nat) :
    ∃ n', m.movements o n' = m'.movements o n + 1 := by
  obtain ⟨-, a, ha⟩ := proceed_eq_some_iff.1 h
  clear h
  induction a generalizing m with
  | zero => cases ha
  | succ a ih =>
    rcases hs : m.step o with ⟨m₁, ev⟩
    rw [advance, hs] at ha
    cases ev with
    | idle =>
      obtain ⟨n', hn'⟩ := ih ha
      exact ⟨n' + 1, by rw [movements_of_idle hs, hn']⟩
    | moved =>
      cases ha
      exact ⟨n + 1, movements_of_moved hs⟩
    | ended => cases ha
    | aborted b => cases ha

/-- **The movements of a run are the steps that make one.** -/
theorem moves_iff : m.Moves o k ↔ ∃ n, k ≤ m.movements o n := by
  constructor
  · intro h
    induction k generalizing m with
    | zero => exact ⟨0, Nat.zero_le _⟩
    | succ k ih =>
      have h₁ := h.proceed_eq
      obtain ⟨n, hn⟩ := ih ((moves_succ h₁).1 h)
      obtain ⟨n', hn'⟩ := exists_movements_succ h₁ n
      exact ⟨n', by omega⟩
  · rintro ⟨n, hn⟩
    induction n generalizing m k with
    | zero =>
      rw [movements, Nat.le_zero] at hn
      subst hn
      exact moves_zero o m
    | succ n ih =>
      cases k with
      | zero => exact moves_zero o m
      | succ k =>
        rcases hs : m.step o with ⟨m₁, ev⟩
        cases ev with
        | idle =>
          rw [movements_of_idle hs] at hn
          have hm := ih hn
          have h₁ := hm.proceed_eq
          rw [moves_succ h₁] at hm
          rw [← proceed_of_idle hs] at h₁
          exact (moves_succ h₁).2 hm
        | moved =>
          rw [movements_of_moved hs] at hn
          exact (moves_succ (proceed_of_ne_idle hs nofun)).2 (ih (Nat.le_of_succ_le_succ hn))
        | ended =>
          rw [movements, hs] at hn
          cases hn
        | aborted a =>
          rw [movements, hs] at hn
          cases hn

/-- A run that ends after `k` movements has no more of them. -/
theorem isGreatest_movements (hm : m.Moves o k) (hp : (m.stepped o k).proceed o = some (m', p))
    (hne : p ≠ .moved) : IsGreatest (Set.range fun n => m.movements o n) k := by
  have hle : ∀ n, m.movements o n ≤ k := by
    intro n
    refine Nat.le_of_not_lt fun hlt => hne ?_
    have hk : m.Moves o (k + 1) := moves_iff.2 ⟨n, hlt⟩
    rw [hk.proceed_last] at hp
    cases hp
    rfl
  obtain ⟨n, hn⟩ := moves_iff.1 hm
  refine ⟨⟨n, Nat.le_antisymm (hle n) hn⟩, ?_⟩
  rintro _ ⟨n, rfl⟩
  exact hle n

end Machine

/-! ## With pauses -/

/-- One of the two checks after the `k`-th movement, at the machine `m`, finds the run cancelled. -/
def CancelSignal.Sees (signal : CancelSignal) (k : Nat) (m : Machine) : Prop :=
  ∃ paused, signal ⟨k, paused, m.state.pixels.size⟩ = true

namespace Machine

variable {o : Options} {signal : CancelSignal} {m m' : Machine} {p : Progress} {j k : Nat}

/-- The `k`-th movement is the first after which the run is found cancelled. -/
def CancelledAt (o : Options) (signal : CancelSignal) (k : Nat) (m : Machine) : Prop :=
  IsLeast {k | 0 < k ∧ signal.Sees k (m.stepped o k)} k

theorem asyncStep_of_moved (h : m.proceed o = some (m', .moved)) :
    asyncStep o signal (j, m) =
      if signal ⟨j + 1, false, m'.state.pixels.size⟩ then some (.inr ⟨m'.cancelled, j⟩)
      else if signal ⟨j + 1, true, m'.state.pixels.size⟩ then some (.inr ⟨m'.cancelled, j + 1⟩)
      else some (.inl (j + 1, m')) := by
  rw [asyncStep, h]

theorem asyncStep_of_ne_moved (h : m.proceed o = some (m', p)) (hp : p ≠ .moved) :
    asyncStep o signal (j, m) = some (.inr ⟨⟨m'.outcome p, m'.state⟩, j⟩) := by
  rw [asyncStep, h]
  cases p with
  | moved => exact absurd rfl hp
  | _ => rfl

/-- A run with pauses goes on after a movement only if it is not found cancelled. -/
theorem asyncStep_eq_inl {q : Nat × Machine} (h : asyncStep o signal (j, m) = some (.inl q)) :
    ∃ m', m.proceed o = some (m', .moved) ∧ ¬ signal.Sees (j + 1) m' ∧ q = (j + 1, m') := by
  cases hp : m.proceed o with
  | none =>
    rw [asyncStep, hp] at h
    cases h
  | some r =>
    obtain ⟨m', p⟩ := r
    by_cases hne : p = .moved
    · subst hne
      rw [asyncStep_of_moved hp] at h
      split_ifs at h with h₁ h₂
      · cases h
      · cases h
      · refine ⟨m', rfl, ?_, (Sum.inl.inj (Option.some.inj h)).symm⟩
        rintro ⟨paused, hsees⟩
        cases paused with
        | false => exact h₁ hsees
        | true => exact h₂ hsees
    · rw [asyncStep_of_ne_moved hp hne] at h
      cases h

/-- A run with pauses ends with its last part, or when it is found cancelled. -/
theorem asyncStep_eq_inr {r : AsyncRun} (h : asyncStep o signal (j, m) = some (.inr r)) :
    ∃ m' p, m.proceed o = some (m', p) ∧
      (p ≠ .moved ∧ r.run = ⟨m'.outcome p, m'.state⟩ ∨
        p = .moved ∧ signal.Sees (j + 1) m' ∧ r.run = m'.cancelled) := by
  cases hp : m.proceed o with
  | none =>
    rw [asyncStep, hp] at h
    cases h
  | some q =>
    obtain ⟨m', p⟩ := q
    refine ⟨m', p, rfl, ?_⟩
    by_cases hne : p = .moved
    · subst hne
      rw [asyncStep_of_moved hp] at h
      split_ifs at h with h₁ h₂
      · cases h
        exact .inr ⟨rfl, ⟨false, h₁⟩, rfl⟩
      · cases h
        exact .inr ⟨rfl, ⟨true, h₂⟩, rfl⟩
      · cases h
    · rw [asyncStep_of_ne_moved hp hne] at h
      cases h
      exact .inl ⟨hne, rfl⟩

/-- What holds at the end of a run with pauses, and is handed on from movement to movement, holds of
the run. -/
theorem runAsync_induction {motive : Nat → Machine → Prop} {r : AsyncRun}
    (last : ∀ j m m' p, m.proceed o = some (m', p) → p ≠ .moved →
      r.run = ⟨m'.outcome p, m'.state⟩ → motive j m)
    (cancelled : ∀ j m m', m.proceed o = some (m', .moved) → signal.Sees (j + 1) m' →
      r.run = m'.cancelled → motive j m)
    (moved : ∀ j m m', m.proceed o = some (m', .moved) → motive (j + 1) m' → motive j m)
    (h : m.runAsync o signal j = some r) : motive j m := by
  replace h : Leads (asyncStep o signal) (j, m) r := iterate_eq_some_iff.1 h
  generalize hq : (j, m) = q at h
  induction h generalizing j m with
  | done hdone =>
    subst hq
    obtain ⟨m', p, hp, ⟨hne, hr⟩ | ⟨rfl, hs, hr⟩⟩ := asyncStep_eq_inr hdone
    · exact last j m m' p hp hne hr
    · exact cancelled j m m' hp hs hr
  | more hmore _ ih =>
    subst hq
    obtain ⟨m', hp, -, rfl⟩ := asyncStep_eq_inl hmore
    exact moved j m m' hp (ih last cancelled rfl)

theorem runAsync_of_ne_moved (h : m.proceed o = some (m', p)) (hp : p ≠ .moved) :
    m.runAsync o signal j = some ⟨⟨m'.outcome p, m'.state⟩, j⟩ :=
  iterate_of_inr (asyncStep_of_ne_moved h hp)

theorem runAsync_of_sees (h : m.proceed o = some (m', .moved)) (hs : signal.Sees (j + 1) m') :
    ∃ pauses, m.runAsync o signal j = some ⟨m'.cancelled, pauses⟩ := by
  by_cases h₁ : signal ⟨j + 1, false, m'.state.pixels.size⟩ = true
  · exact ⟨j, iterate_of_inr ((asyncStep_of_moved h).trans (if_pos h₁))⟩
  · obtain ⟨paused, hp⟩ := hs
    cases paused with
    | false => exact absurd hp h₁
    | true =>
      refine ⟨j + 1, iterate_of_inr ((asyncStep_of_moved h).trans ?_)⟩
      rw [if_neg h₁, if_pos hp]

theorem runAsync_of_not_sees (h : m.proceed o = some (m', .moved))
    (hs : ¬ signal.Sees (j + 1) m') : m.runAsync o signal j = m'.runAsync o signal (j + 1) := by
  refine iterate_of_inl ?_
  rw [asyncStep_of_moved h, if_neg fun h₁ => hs ⟨false, h₁⟩, if_neg fun h₁ => hs ⟨true, h₁⟩]

/-- **As long as it is not found cancelled, a run with pauses goes through the steps.** -/
theorem runAsync_of_moves (h : m.Moves o k)
    (hs : ∀ i < k, ¬ signal.Sees (j + i + 1) (m.stepped o (i + 1))) :
    m.runAsync o signal j = (m.stepped o k).runAsync o signal (j + k) := by
  induction k generalizing j m with
  | zero => rfl
  | succ k ih =>
    have h₁ := h.proceed_eq
    rw [runAsync_of_not_sees h₁ (hs 0 (Nat.succ_pos k)), stepped_succ]
    rw [ih ((moves_succ h₁).1 h), Nat.add_assoc, Nat.add_comm 1 k]
    intro i hi
    have := hs (i + 1) (Nat.succ_lt_succ hi)
    rwa [stepped_succ, show j + (i + 1) + 1 = j + 1 + i + 1 by omega] at this

/-- A run with pauses that ends was at the end of the run, or found cancelled. -/
theorem exists_of_runAsync {r : AsyncRun} (h : m.runAsync o signal j = some r) :
    (m.finish o).isSome ∨
      ∃ k, m.Moves o (k + 1) ∧ signal.Sees (j + k + 1) (m.stepped o (k + 1)) := by
  refine runAsync_induction (motive := fun j m => (m.finish o).isSome ∨
    ∃ k, m.Moves o (k + 1) ∧ signal.Sees (j + k + 1) (m.stepped o (k + 1))) ?_ ?_ ?_ h
  · intro j m m' p hp hne _
    refine .inl ?_
    rw [finish_of_ne_moved hp hne, Option.isSome_some]
  · intro j m m' hp hs _
    refine .inr ⟨0, (moves_succ hp).2 (moves_zero o m'), ?_⟩
    rw [stepped_succ, stepOnce_of_moved hp]
    exact hs
  · rintro j m m' hp (hf | ⟨k, hk, hsees⟩)
    · exact .inl (by rwa [finish_of_moved hp])
    · refine .inr ⟨k + 1, (moves_succ hp).2 hk, ?_⟩
      rw [stepped_succ, stepOnce_of_moved hp]
      rwa [show j + 1 + k + 1 = j + (k + 1) + 1 by omega] at hsees

/-- Where no movement is the first after which a run is found cancelled, there is none at all. -/
theorem not_sees_of_moves (h : ∀ k, m.CancelledAt o signal k → ¬ m.Moves o k)
    (hm : m.Moves o k) {i : Nat} (hi : i < k) : ¬ signal.Sees (i + 1) (m.stepped o (i + 1)) := by
  intro hs
  classical
  have hex : ∃ k, 0 < k ∧ signal.Sees k (m.stepped o k) := ⟨i + 1, Nat.succ_pos i, hs⟩
  have hle : Nat.find hex ≤ k := Nat.le_trans (Nat.find_min' hex ⟨Nat.succ_pos i, hs⟩) hi
  refine h (Nat.find hex) ⟨Nat.find_spec hex, ?_⟩ (hm.mono hle)
  intro k hk
  exact Nat.find_min' hex hk

/-- **A run that is not found cancelled in time is the run in one go**, with as many pauses as it
has movements. -/
theorem runAsync_of_not_cancelled (h : ∀ k, m.CancelledAt o signal k → ¬ m.Moves o k) :
    match m.finish o with
    | some (m', p) => ∃ pauses, IsGreatest (Set.range fun n => m.movements o n) pauses ∧
        m.runAsync o signal 0 = some ⟨⟨m'.outcome p, m'.state⟩, pauses⟩
    | none => m.runAsync o signal 0 = none := by
  cases hf : m.finish o with
  | some r =>
    obtain ⟨m', p⟩ := r
    obtain ⟨k, hm, hp, hne⟩ := finish_eq_some_iff.1 hf
    refine ⟨k, isGreatest_movements hm hp hne, ?_⟩
    rw [runAsync_of_moves hm, runAsync_of_ne_moved hp hne, Nat.zero_add]
    intro i hi
    rw [Nat.zero_add]
    exact not_sees_of_moves h hm hi
  | none =>
    cases hr : m.runAsync o signal 0 with
    | none => rfl
    | some r =>
      rcases exists_of_runAsync hr with hsome | ⟨k, hm, hs⟩
      · rw [hf] at hsome
        cases hsome
      · rw [Nat.zero_add] at hs
        exact absurd hs (not_sees_of_moves h hm (Nat.lt_succ_self k))

/-- **A run that is found cancelled in time stops there.** -/
theorem runAsync_of_cancelled (h : m.CancelledAt o signal k) (hm : m.Moves o k) :
    ∃ pauses, m.runAsync o signal 0 = some ⟨(m.stepped o k).cancelled, pauses⟩ := by
  obtain ⟨⟨hpos, hs⟩, hleast⟩ := h
  obtain ⟨k, rfl⟩ := Nat.exists_eq_succ_of_ne_zero (Nat.ne_of_gt hpos)
  rw [runAsync_of_moves (hm.mono (Nat.le_succ k)), Nat.zero_add]
  · exact runAsync_of_sees hm.proceed_last hs
  · intro i hi hs'
    rw [Nat.zero_add] at hs'
    have : k + 1 ≤ i + 1 := hleast ⟨Nat.succ_pos i, hs'⟩
    omega

/-! ## One movement at a time -/

theorem stepToEnd_of_moved (h : m.proceed o = some (m', .moved)) :
    m.stepToEnd o = m'.stepToEnd o :=
  iterate_of_inl (by rw [steppingStep, stepOnce_of_moved h])

theorem stepToEnd_of_ending {x : Except Failure Bool} (h : m.stepOnce o = (m', x))
    (hx : x ≠ .ok true) (hx' : x ≠ .error .unfinished) :
    m.stepToEnd o = some ⟨m'.ending x, m'.state⟩ := by
  refine iterate_of_inr ?_
  rw [steppingStep, h]
  cases x with
  | ok b =>
    cases b with
    | true => exact absurd rfl hx
    | false => rfl
  | error e =>
    cases e with
    | unfinished => exact absurd rfl hx'
    | _ => rfl

/-- A machine that is stepped goes on after a movement. -/
theorem exists_of_steppingStep {q : Machine ⊕ Run} (h : m.steppingStep o = some q) :
    ∃ m' p, m.proceed o = some (m', p) ∧ (p = .moved ∧ q = .inl m' ∨ p ≠ .moved) := by
  cases hp : m.proceed o with
  | none =>
    rw [steppingStep, stepOnce_of_none hp] at h
    cases h
  | some r =>
    obtain ⟨m', p⟩ := r
    refine ⟨m', p, rfl, ?_⟩
    by_cases hne : p = .moved
    · subst hne
      rw [steppingStep, stepOnce_of_moved hp] at h
      exact .inl ⟨rfl, (Option.some.inj h).symm⟩
    · exact .inr hne

theorem stepToEnd_isSome {r : Run} (h : m.stepToEnd o = some r) : (m.finish o).isSome := by
  replace h : Leads (steppingStep o) m r := iterate_eq_some_iff.1 h
  induction h with
  | done hdone =>
    obtain ⟨m', p, hp, ⟨-, hq⟩ | hne⟩ := exists_of_steppingStep hdone
    · cases hq
    · rw [finish_of_ne_moved hp hne, Option.isSome_some]
  | more hmore _ ih =>
    obtain ⟨m', p, hp, ⟨rfl, hq⟩ | hne⟩ := exists_of_steppingStep hmore
    · cases hq
      rwa [finish_of_moved hp]
    · rw [finish_of_ne_moved hp hne, Option.isSome_some]

/-- **A machine that is stepped to its end ends like the run in one go.** -/
theorem stepToEnd_eq (o : Options) (m : Machine) :
    m.stepToEnd o = (m.finish o).map fun r => ⟨r.1.outcome r.2, r.1.state⟩ := by
  cases hf : m.finish o with
  | none =>
    cases hs : m.stepToEnd o with
    | none => rfl
    | some r =>
      have := stepToEnd_isSome hs
      rw [hf] at this
      cases this
  | some r =>
    obtain ⟨m', p⟩ := r
    obtain ⟨k, hm, hp, hne⟩ := finish_eq_some_iff.1 hf
    clear hf
    induction k generalizing m with
    | zero =>
      rw [stepped_zero] at hp
      obtain ⟨x, hx, hx₁, hx₂, hout⟩ := stepOnce_of_ne_moved hp hne
      rw [stepToEnd_of_ending hx hx₁ hx₂, ← hout]
      rfl
    | succ k ih =>
      have h₁ := hm.proceed_eq
      rw [stepped_succ, stepOnce_of_moved h₁] at hp
      rw [stepToEnd_of_moved h₁]
      exact ih _ ((moves_succ h₁).1 hm) hp

end Machine

theorem interpretStepping_eq (o : Options) (program : List Instr) :
    interpretStepping o program = interpret o program := by
  rw [interpretStepping, interpret]
  cases Machine.start o program with
  | error e => rfl
  | ok m =>
    simp only [Machine.stepToEnd_eq]
    cases m.finish o <;> rfl

/-! ## Hosts that step, cancel and ask -/

/-- What a host calls between two movements or for the next one. -/
inductive HostCall
  | step
  | cancel
  | state
  | done
  | result
  deriving DecidableEq

/-- What it gets back. -/
inductive HostReply
  | step (r : Except Failure Bool)
  | cancel
  | state (s : Except Number.NoInteger Json)
  | done (b : Bool)
  | result (r : Except Number.NoInteger (Option RunResult))

/-- The answer to a step. -/
def HostReply.step? : HostReply → Option (Except Failure Bool)
  | .step r => some r
  | _ => none

namespace Machine

variable {o : Options} {m : Machine} {calls : List HostCall}

/-- Answers a call of a host. -/
def serve (o : Options) (m : Machine) : HostCall → Machine × HostReply
  | .step => ((m.stepOnce o).1, .step (m.stepOnce o).2)
  | .cancel => (m.cancel, .cancel)
  | .state => (m, .state m.stateJson)
  | .done => (m, .done m.isDone)
  | .result => (m, .result m.result?)

/-- Answers calls of a host, one after the other. -/
def serveAll (o : Options) (m : Machine) : List HostCall → Machine × List HostReply
  | [] => (m, [])
  | c :: calls =>
    let (m₁, reply) := m.serve o c
    let (m₂, replies) := m₁.serveAll o calls
    (m₂, reply :: replies)

/-- The answers to the steps. -/
def stepReplies (o : Options) (m : Machine) (calls : List HostCall) : List (Except Failure Bool) :=
  (m.serveAll o calls).2.filterMap HostReply.step?

theorem serveAll_cons_fst (o : Options) (m : Machine) (c : HostCall) (calls : List HostCall) :
    (m.serveAll o (c :: calls)).1 = ((m.serve o c).1.serveAll o calls).1 := rfl

theorem stepReplies_step (o : Options) (m : Machine) (calls : List HostCall) :
    m.stepReplies o (.step :: calls) =
      (m.stepOnce o).2 :: (m.stepOnce o).1.stepReplies o calls := rfl

theorem stepReplies_of_ne_step {c : HostCall} (hc : c ≠ .step) :
    m.stepReplies o (c :: calls) = (m.serve o c).1.stepReplies o calls := by
  cases c with
  | step => exact absurd rfl hc
  | _ => rfl

/-- Questions leave a machine as it is: after calls without a cancellation it has made the steps
among them, and these were answered as if there was nothing between them. -/
theorem serveAll_eq_stepped (h : .cancel ∉ calls) :
    (m.serveAll o calls).1 = m.stepped o (calls.count .step) ∧
      m.stepReplies o calls =
        (List.range (calls.count .step)).map fun i => ((m.stepped o i).stepOnce o).2 := by
  induction calls generalizing m with
  | nil => exact ⟨rfl, rfl⟩
  | cons c calls ih =>
    rw [List.mem_cons, not_or] at h
    obtain ⟨hc, h⟩ := h
    by_cases hs : c = .step
    · subst hs
      obtain ⟨ih₁, ih₂⟩ := ih (m := (m.stepOnce o).1) h
      rw [List.count_cons_self, List.range_succ_eq_map]
      refine ⟨ih₁, ?_⟩
      rw [stepReplies_step, ih₂, List.map_cons, List.map_map]
      rfl
    · have hserve : (m.serve o c).1 = m := by
        cases c with
        | step => exact absurd rfl hs
        | cancel => exact absurd rfl hc
        | _ => rfl
      rw [List.count_cons_of_ne hs, serveAll_cons_fst, stepReplies_of_ne_step hs, hserve]
      exact ih h

/-- The answers to `k + 1` steps are `k` movements and then `x`. -/
theorem stepReplies_eq_iff {k : Nat} {x : Except Failure Bool} (h : .cancel ∉ calls) :
    m.stepReplies o calls = List.replicate k (.ok true) ++ [x] ↔
      calls.count .step = k + 1 ∧ m.Moves o k ∧ ((m.stepped o k).stepOnce o).2 = x := by
  have hreplies := (serveAll_eq_stepped (o := o) (m := m) h).2
  constructor
  · intro hr
    rw [hreplies] at hr
    have hlen : calls.count .step = k + 1 := by
      have := congrArg List.length hr
      simpa using this
    rw [hlen, List.range_succ, List.map_append, List.map_singleton] at hr
    obtain ⟨hk, hx⟩ := List.append_inj hr (by simp)
    refine ⟨hlen, fun i hi => ?_, List.singleton_inj.1 hx⟩
    rw [List.eq_replicate_iff] at hk
    exact hk.2 _ (List.mem_map.2 ⟨i, List.mem_range.2 hi, rfl⟩)
  · rintro ⟨hlen, hm, rfl⟩
    rw [hreplies, hlen, List.range_succ, List.map_append, List.map_singleton]
    congr 1
    rw [List.eq_replicate_iff]
    refine ⟨by simp, fun y hy => ?_⟩
    obtain ⟨i, hi, rfl⟩ := List.mem_map.1 hy
    exact hm i (List.mem_range.1 hi)

/-- A run that is over stays as it is, whatever a host calls, and steps are refused. -/
theorem serveAll_of_isDone (h : m.isDone = true) (calls : List HostCall) :
    (m.serveAll o calls).1 = m ∧ ∀ x ∈ m.stepReplies o calls, x = .ok false := by
  have hne : m.status ≠ .running := by
    rw [isDone, bne_iff_ne] at h
    exact h
  have hstep : m.stepOnce o = (m, .ok false) := by
    rw [stepOnce, proceed_of_ne_idle (step_of_status_ne hne) nofun]
    rfl
  have hcancel : m.cancel = m := by
    obtain ⟨rest, frames, s, status⟩ := m
    cases status with
    | running => exact absurd rfl hne
    | _ => rfl
  have hserve (c : HostCall) : (m.serve o c).1 = m := by
    cases c with
    | step => exact congrArg Prod.fst hstep
    | cancel => exact hcancel
    | _ => rfl
  induction calls with
  | nil => exact ⟨rfl, fun x hx => absurd hx List.not_mem_nil⟩
  | cons c calls ih =>
    rw [serveAll_cons_fst, hserve]
    refine ⟨ih.1, ?_⟩
    by_cases hs : c = .step
    · subst hs
      rw [stepReplies_step, hstep]
      exact List.forall_mem_cons.2 ⟨rfl, ih.2⟩
    · rw [stepReplies_of_ne_step hs, hserve]
      exact ih.2

end Machine

/-! ## All of them -/

/-- How the engines compare on a program that was set up as the machine `m`. -/
structure Agreement (o : Options) (signal : CancelSignal) (program : List Instr) (m : Machine) :
    Prop where
  /-- A run with fewer movements than it takes to find it cancelled is the one without pauses. -/
  uninterrupted : (∀ k, m.CancelledAt o signal k → ∀ n, m.movements o n < k) →
    (interpretAsync o signal program).run = interpret o program ∧
      ((interpret o program).outcome ≠ .error .unfinished →
        IsGreatest (Set.range fun n => m.movements o n) (interpretAsync o signal program).pauses)
  /-- Any other run is cancelled, with what a host has that makes as many steps and cancels. Where
  this cannot be told, because the turtle has no cell, the run fails for that reason. -/
  cancelled : ∀ k, m.CancelledAt o signal k → (∃ n, k ≤ m.movements o n) →
    (interpretAsync o signal program).run.state = (m.stepped o k).cancel.state ∧
      (∀ r, (m.stepped o k).cancel.result = .ok r →
        (interpretAsync o signal program).run.outcome = .error (.runtime .cancelled none r)) ∧
      ∀ reason, (m.stepped o k).cancel.result = .error reason →
        (interpretAsync o signal program).run.outcome = .error (.noCell reason)
  /-- Steps with any questions between them end like the run in one go, -/
  stepping : ∀ calls k x, .cancel ∉ calls →
    m.stepReplies o calls = List.replicate k (.ok true) ++ [x] →
    x ≠ .ok true → x ≠ .error .unfinished →
    interpret o program = ⟨(m.serveAll o calls).1.ending x, (m.serveAll o calls).1.state⟩
  /-- and if that one ends, they do so after as many steps as it takes. -/
  stepping_ends : (interpret o program).outcome ≠ .error .unfinished →
    ∃ k x, x ≠ .ok true ∧ x ≠ .error .unfinished ∧ ∀ calls, .cancel ∉ calls →
      calls.count .step = k + 1 → m.stepReplies o calls = List.replicate k (.ok true) ++ [x]

section

variable {o : Options} {signal : CancelSignal} {program : List Instr} {m : Machine}

theorem interpret_eq (h : Machine.start o program = .ok m) :
    interpret o program =
      (m.finish o).elim (.endless m.state) fun q => ⟨q.1.outcome q.2, q.1.state⟩ := by
  simp only [interpret, h]
  cases m.finish o <;> rfl

theorem interpretAsync_eq (h : Machine.start o program = .ok m) :
    interpretAsync o signal program =
      (m.runAsync o signal 0).getD ⟨.endless m.state, 0⟩ := by
  rw [interpretAsync, h]

theorem agreement_uninterrupted (h : Machine.start o program = .ok m)
    (hs : ∀ k, m.CancelledAt o signal k → ¬ m.Moves o k) :
    (interpretAsync o signal program).run = interpret o program ∧
      ((interpret o program).outcome ≠ .error .unfinished →
        IsGreatest (Set.range fun n => m.movements o n)
          (interpretAsync o signal program).pauses) := by
  have hrun := Machine.runAsync_of_not_cancelled hs
  rw [interpret_eq h, interpretAsync_eq h]
  cases hf : m.finish o with
  | none =>
    rw [hf] at hrun
    rw [hrun]
    exact ⟨rfl, fun hu => absurd rfl hu⟩
  | some r =>
    rw [hf] at hrun
    obtain ⟨pauses, hg, hrun⟩ := hrun
    rw [hrun]
    exact ⟨rfl, fun _ => hg⟩

theorem agreement_cancelled (h : Machine.start o program = .ok m) {k : Nat}
    (hs : m.CancelledAt o signal k) (hm : m.Moves o k) :
    (interpretAsync o signal program).run = (m.stepped o k).cancelled := by
  obtain ⟨pauses, hr⟩ := Machine.runAsync_of_cancelled hs hm
  rw [interpretAsync_eq h, hr]
  rfl

theorem agreement_stepping (h : Machine.start o program = .ok m) {calls : List HostCall} {k : Nat}
    {x : Except Failure Bool} (hc : .cancel ∉ calls)
    (hr : m.stepReplies o calls = List.replicate k (.ok true) ++ [x]) (hx : x ≠ .ok true)
    (hx' : x ≠ .error .unfinished) :
    interpret o program = ⟨(m.serveAll o calls).1.ending x, (m.serveAll o calls).1.state⟩ := by
  obtain ⟨hcount, hm, hlast⟩ := (Machine.stepReplies_eq_iff hc).1 hr
  rw [(Machine.serveAll_eq_stepped hc).1, hcount, Machine.stepped_succ_last, interpret_eq h]
  cases hp : (m.stepped o k).proceed o with
  | none =>
    rw [Machine.stepOnce_of_none hp] at hlast
    exact absurd hlast.symm hx'
  | some q =>
    obtain ⟨m', p⟩ := q
    by_cases hne : p = .moved
    · subst hne
      rw [Machine.stepOnce_of_moved hp] at hlast
      exact absurd hlast.symm hx
    · obtain ⟨y, hy, -, -, hout⟩ := Machine.stepOnce_of_ne_moved hp hne
      rw [hy] at hlast ⊢
      cases hlast
      rw [Machine.finish_eq_some_iff.2 ⟨k, hm, hp, hne⟩, ← hout, Option.elim_some]

theorem agreement_stepping_ends (h : Machine.start o program = .ok m)
    (hu : (interpret o program).outcome ≠ .error .unfinished) :
    ∃ k x, x ≠ .ok true ∧ x ≠ .error .unfinished ∧ ∀ calls, .cancel ∉ calls →
      calls.count .step = k + 1 → m.stepReplies o calls = List.replicate k (.ok true) ++ [x] := by
  rw [interpret_eq h] at hu
  cases hf : m.finish o with
  | none =>
    rw [hf] at hu
    exact absurd rfl hu
  | some r =>
    obtain ⟨m', p⟩ := r
    obtain ⟨k, hm, hp, hne⟩ := Machine.finish_eq_some_iff.1 hf
    obtain ⟨x, hx, hx₁, hx₂, -⟩ := Machine.stepOnce_of_ne_moved hp hne
    refine ⟨k, x, hx₁, hx₂, fun calls hc hcount => ?_⟩
    exact (Machine.stepReplies_eq_iff hc).2 ⟨hcount, hm, by rw [hx]⟩

end

/-- **The engines agree.** A run with pauses that is not found cancelled in time ends like the run
in one go, after a pause for each movement; one that is found cancelled after the `k`-th movement is
cancelled with what a host has that makes `k` steps and cancels. Steps end like the run in one go,
whatever a host asks between them, and once a run is over nothing that a host calls changes it. -/
theorem engines_agree (o : Options) (signal : CancelSignal) (program : List Instr) :
    interpretStepping o program = interpret o program ∧
    (∀ e, Machine.start o program = .error e →
      interpretAsync o signal program = ⟨interpret o program, 0⟩) ∧
    (∀ m, Machine.start o program = .ok m → Agreement o signal program m) ∧
    ∀ m : Machine, m.isDone = true → ∀ calls,
      (m.serveAll o calls).1 = m ∧ ∀ x ∈ m.stepReplies o calls, x = .ok false := by
  refine ⟨interpretStepping_eq o program, fun e h => ?_, fun m h => ?_, fun m h calls =>
    Machine.serveAll_of_isDone h calls⟩
  · rw [interpretAsync, interpret, h]
  · refine ⟨fun hs => ?_, fun k hs hm => ?_, fun calls k x hc hr => agreement_stepping h hc hr,
      agreement_stepping_ends h⟩
    · refine agreement_uninterrupted h fun k hk hm => ?_
      obtain ⟨n, hn⟩ := Machine.moves_iff.1 hm
      exact absurd (hs k hk n) (Nat.not_lt_of_le hn)
    · have hrun := agreement_cancelled h hs (Machine.moves_iff.2 hm)
      rw [hrun]
      refine ⟨rfl, fun r hr => ?_, fun reason hr => ?_⟩
      · simp only [Machine.cancelled, Machine.failure, hr]
      · simp only [Machine.cancelled, Machine.failure, hr]

/-- A turtle that starts infinitely far away can turn, and has no cell: its run is found cancelled
after the turn, and does not fail as cancelled. -/
theorem cancelled_without_cell :
    ∃ m, Machine.start { startX := 1 / 0 } [.turn .left (.num 90) (some 1)] = .ok m ∧
      m.CancelledAt { startX := 1 / 0 } (fun _ => true) 1 ∧
      1 ≤ m.movements { startX := 1 / 0 } 1 ∧
      ¬ ∃ r, (interpretAsync { startX := 1 / 0 } (fun _ => true)
        [.turn .left (.num 90) (some 1)]).run.outcome = .error (.runtime .cancelled none r) := by
  have hat (m : Machine) : m.CancelledAt { startX := 1 / 0 } (fun _ => true) 1 :=
    ⟨⟨Nat.one_pos, false, rfl⟩, fun k hk => hk.1⟩
  have hone : 1 ≤ Machine.movements { startX := 1 / 0 } 1
      ⟨[.turn .left (.num 90) (some 1)], [], .start { startX := 1 / 0 }, .running⟩ := by
    decide +kernel
  refine ⟨_, rfl, hat _, hone, ?_⟩
  rintro ⟨r, hr⟩
  rw [agreement_cancelled rfl (hat _) (Machine.moves_iff.2 ⟨1, hone⟩)] at hr
  have hcell : (match Machine.step { startX := 1 / 0 }
      ⟨[.turn .left (.num 90) (some 1)], [], .start { startX := 1 / 0 }, .running⟩ with
    | (m, .moved) => decide (m.cancel.position = .error .infinite)
    | _ => false) = true := by
    decide +kernel
  rcases hs : Machine.step { startX := 1 / 0 }
      ⟨[.turn .left (.num 90) (some 1)], [], .start { startX := 1 / 0 }, .running⟩ with ⟨m, ev⟩
  rw [hs] at hcell
  cases ev with
  | moved =>
    have hresult : m.cancel.result = .error .infinite := by
      rw [Machine.result, of_decide_eq_true hcell]
      rfl
    rw [Machine.stepped_succ, Machine.stepOnce_of_moved (Machine.proceed_of_ne_idle hs nofun),
      Machine.stepped_zero, Machine.cancelled] at hr
    simp only [Machine.failure, hresult] at hr
    cases hr
  | _ => cases hcell

end PixelTurtle
