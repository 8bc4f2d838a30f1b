import PixelTurtle.Proofs.Reachable
import PixelTurtle.Proofs.Refinement
import PixelTurtle.Proofs.Spending
import PixelTurtle.Run.Engine

/-!
# Runs of any length

`Machine.proceed` takes as many events as it needs for the next movement, and `Machine.finish` as
many as it needs for the end of the run. Neither has an answer when no number of events suffices.

* `proceed_eq_some_iff` says that an answer of `proceed` is one of `advance` with enough events.
* `proceed_of_idle`, `proceed_of_ne_idle`, `finish_of_goesOn` and `finish_of_not_goesOn` follow the
  two event by event.
* `finish_isSome` says that a run is finished that comes to an event after which it does not go on.
-/

namespace PixelTurtle

namespace Machine

variable {o : Options} {m m' : Machine} {ev : Event} {p : Progress}

/-! ## Up to the next movement -/

/-- What a run does with more events: it goes on from where the first ones did not suffice. -/
theorem advance_add (a b : Nat) (m : Machine) :
    m.advance o (a + b) = match m.advance o a with
      | (m', .unfinished) => m'.advance o b
      | (m', p) => (m', p) := by
  induction a generalizing m with
  | zero => rw [Nat.zero_add, advance]
  | succ a ih =>
    rw [Nat.succ_add]
    rcases hs : step o m with ⟨m₁, ev⟩
    by_cases hev : ev = .idle
    · subst hev
      rw [advance_succ_of_idle hs, advance_succ_of_idle hs, ih]
    · rw [advance_succ_of_step hs hev, advance_succ_of_step hs hev]
      cases ev with
      | idle => exact absurd rfl hev
      | _ => rfl

theorem advance_add_of_unfinished {a : Nat} (h : m.advance o a = (m', .unfinished)) (b : Nat) :
    m.advance o (a + b) = m'.advance o b := by
  rw [advance_add, h]

/-- More events than suffice change nothing. -/
theorem advance_of_le {a b : Nat} (h : m.advance o a = (m', p)) (hp : p ≠ .unfinished)
    (hab : a ≤ b) : m.advance o b = (m', p) := by
  obtain ⟨c, rfl⟩ := Nat.exists_eq_add_of_le hab
  rw [advance_add, h]
  cases p with
  | unfinished => exact absurd rfl hp
  | _ => rfl

theorem patience_pos (o : Options) (m : Machine) : 0 < m.patience o := by
  unfold patience
  split
  · omega
  · decide

theorem proceedStep_eq_inl_iff :
    m.proceedStep o = some (.inl m') ↔ m.advance o (m.patience o) = (m', .unfinished) := by
  unfold proceedStep
  rcases m.advance o (m.patience o) with ⟨m₁, p₁⟩
  cases p₁ <;> simp

theorem proceedStep_eq_inr_iff :
    m.proceedStep o = some (.inr (m', p)) ↔
      p ≠ .unfinished ∧ m.advance o (m.patience o) = (m', p) := by
  unfold proceedStep
  rcases m.advance o (m.patience o) with ⟨m₁, p₁⟩
  cases p₁ <;> cases p <;> simp

theorem proceed_of_unfinished (h : m.advance o (m.patience o) = (m', .unfinished)) :
    m.proceed o = m'.proceed o :=
  iterate_of_inl (proceedStep_eq_inl_iff.2 h)

theorem proceed_of_advance (h : m.advance o (m.patience o) = (m', p)) (hp : p ≠ .unfinished) :
    m.proceed o = some (m', p) :=
  iterate_of_inr (proceedStep_eq_inr_iff.2 ⟨hp, h⟩)

/-- **An answer of `proceed` is one of `advance`, with as many events as it takes.** -/
theorem proceed_eq_some_iff :
    m.proceed o = some (m', p) ↔ p ≠ .unfinished ∧ ∃ n, m.advance o n = (m', p) := by
  constructor
  · intro h
    generalize hr : (m', p) = r at h
    replace h := iterate_eq_some_iff.1 h
    induction h with
    | done hdone =>
      subst hr
      obtain ⟨hne, ha⟩ := proceedStep_eq_inr_iff.1 hdone
      exact ⟨hne, _, ha⟩
    | more hmore _ ih =>
      have ha := proceedStep_eq_inl_iff.1 hmore
      obtain ⟨hne, n, hn⟩ := ih hr
      exact ⟨hne, _, (advance_add_of_unfinished ha n).trans hn⟩
  · rintro ⟨hp, n, hn⟩
    induction n using Nat.strongRecOn generalizing m with
    | ind n ih =>
    rcases ha : m.advance o (m.patience o) with ⟨m₁, p₁⟩
    cases p₁ with
    | unfinished =>
      -- the first portion does not suffice, so that `n` is larger
      have hlt : m.patience o < n := by
        refine Nat.lt_of_not_le fun hle => ?_
        rw [advance_of_le hn hp hle] at ha
        cases ha
        exact hp rfl
      obtain ⟨k, rfl⟩ := Nat.exists_eq_add_of_le (Nat.le_of_lt hlt)
      have hpos := patience_pos o m
      rw [advance_add_of_unfinished ha] at hn
      rw [proceed_of_unfinished ha]
      exact ih k (by omega) hn
    | _ =>
      rcases Nat.le_total n (m.patience o) with hle | hle
      · exact proceed_of_advance (advance_of_le hn hp hle) hp
      · rw [advance_of_le ha nofun hle] at hn
        cases hn
        exact proceed_of_advance ha nofun

theorem proceed_ne_unfinished (h : m.proceed o = some (m', p)) : p ≠ .unfinished :=
  (proceed_eq_some_iff.1 h).1

/-- An event without a movement is passed over. -/
theorem proceed_of_idle (h : m.step o = (m', .idle)) : m.proceed o = m'.proceed o := by
  ext ⟨m₁, p⟩
  rw [proceed_eq_some_iff, proceed_eq_some_iff]
  refine and_congr_right fun hp => ⟨?_, ?_⟩
  · rintro ⟨n, hn⟩
    cases n with
    | zero =>
      cases hn
      exact absurd rfl hp
    | succ n => exact ⟨n, by rw [← hn, advance_succ_of_idle h]⟩
  · rintro ⟨n, hn⟩
    exact ⟨n + 1, by rw [advance_succ_of_idle h, hn]⟩

/-- Another event is the answer. -/
theorem proceed_of_ne_idle (h : m.step o = (m', ev)) (hev : ev ≠ .idle) :
    m.proceed o = some (m', ev.progress) := by
  refine proceed_eq_some_iff.2 ⟨?_, 1, advance_succ_of_step h hev 0⟩
  cases ev with
  | idle => exact absurd rfl hev
  | _ => nofun

/-- **The induction over the events of `proceed`**: the last one is not idle, and the others are. -/
theorem proceed_induction {motive : Machine → Prop}
    (last : ∀ m ev, m.step o = (m', ev) → ev ≠ .idle → ev.progress = p → motive m)
    (idle : ∀ m m₁, m.step o = (m₁, .idle) → motive m₁ → motive m)
    (h : m.proceed o = some (m', p)) : motive m := by
  obtain ⟨hp, n, hn⟩ := proceed_eq_some_iff.1 h
  clear h
  induction n generalizing m with
  | zero =>
    cases hn
    exact absurd rfl hp
  | succ n ih =>
    rcases hs : m.step o with ⟨m₁, ev⟩
    by_cases hev : ev = .idle
    · subst hev
      rw [advance_succ_of_idle hs] at hn
      exact idle m m₁ hs (ih hn)
    · rw [advance_succ_of_step hs hev] at hn
      cases hn
      exact last m ev hs hev rfl

/-! ## Up to the end -/

theorem finishStep_eq_inl_iff :
    m.finishStep o = some (.inl m') ↔ m.proceed o = some (m', .moved) := by
  unfold finishStep
  rcases m.proceed o with _ | ⟨m₁, p₁⟩
  · simp
  · cases p₁ <;> simp

theorem finishStep_eq_inr_iff :
    m.finishStep o = some (.inr (m', p)) ↔ p ≠ .moved ∧ m.proceed o = some (m', p) := by
  unfold finishStep
  rcases m.proceed o with _ | ⟨m₁, p₁⟩
  · simp
  · cases p₁ <;> cases p <;> simp

theorem finish_of_moved (h : m.proceed o = some (m', .moved)) : m.finish o = m'.finish o :=
  iterate_of_inl (finishStep_eq_inl_iff.2 h)

theorem finish_of_ne_moved (h : m.proceed o = some (m', p)) (hp : p ≠ .moved) :
    m.finish o = some (m', p) :=
  iterate_of_inr (finishStep_eq_inr_iff.2 ⟨hp, h⟩)

/-- What holds at the last part of a run, and is handed on from movement to movement, holds of a run
that is finished. -/
theorem finish_induction {motive : Machine → Prop}
    (last : ∀ m, m.proceed o = some (m', p) → p ≠ .moved → motive m)
    (moved : ∀ m m₁, m.proceed o = some (m₁, .moved) → motive m₁ → motive m)
    (h : m.finish o = some (m', p)) : motive m := by
  generalize hr : (m', p) = r at h
  replace h := iterate_eq_some_iff.1 h
  induction h with
  | done hdone =>
    subst hr
    obtain ⟨hne, hp⟩ := finishStep_eq_inr_iff.1 hdone
    exact last _ hp hne
  | more hmore _ ih => exact moved _ _ (finishStep_eq_inl_iff.1 hmore) (ih hr)

theorem finish_ne_unfinished (h : m.finish o = some (m', p)) : p ≠ .unfinished :=
  finish_induction (fun _ hp _ => proceed_ne_unfinished hp) (fun _ _ _ ih => ih) h

/-- An event after which a run goes on is passed over. -/
theorem finish_of_goesOn (h : m.step o = (m', ev)) (hev : ev.goesOn = true) :
    m.finish o = m'.finish o := by
  cases ev with
  | idle => exact iterate_congr (by rw [finishStep, finishStep, proceed_of_idle h])
  | moved => exact finish_of_moved (proceed_of_ne_idle h nofun)
  | ended => cases hev
  | aborted a => cases hev

/-- Another event is the end. -/
theorem finish_of_not_goesOn (h : m.step o = (m', ev)) (hev : ev.goesOn = false) :
    m.finish o = some (m', ev.progress) := by
  cases ev with
  | idle => cases hev
  | moved => cases hev
  | ended => exact finish_of_ne_moved (proceed_of_ne_idle h nofun) nofun
  | aborted a => exact finish_of_ne_moved (proceed_of_ne_idle h nofun) nofun

/-- A run is finished that comes to an event after which it does not go on. -/
theorem finish_isSome {k : Nat} (h : ((m.after o k).step o).2.goesOn = false) :
    (m.finish o).isSome := by
  induction k generalizing m with
  | zero =>
    rw [after] at h
    rw [finish_of_not_goesOn rfl h]
    rfl
  | succ k ih =>
    cases hg : (m.step o).2.goesOn with
    | true =>
      rw [finish_of_goesOn rfl hg]
      exact ih h
    | false =>
      rw [finish_of_not_goesOn rfl hg]
      rfl

end Machine

end PixelTurtle
