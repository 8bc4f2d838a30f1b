import PixelTurtle.Proofs.Entries
import PixelTurtle.Proofs.Position
import PixelTurtle.Proofs.Results

/-!
# One movement at a time

A host that makes one movement at a time gets one entry about a movement for each step that says that
there was one. Between two movements the machine may have run any number of other events, but these
make no such entry, and neither does a movement that fails.

* `RunState.motions` counts the entries about movements, and `RunState.JustMoved` says that the latest
  entry is one.
* `motions_serveAll` follows the count through all calls of a host.
* `Machine.Yields` is what iterating over a machine hands out, one item for each movement.
* `one_movement_per_step` is the theorem.
-/

namespace PixelTurtle

/-! ## Entries about movements -/

/-- Whether an entry is about a movement. -/
def Operation.isMotion : Operation → Bool
  | .move _ => true
  | .turn _ => true
  | _ => false

/-- The number of entries about movements. -/
def RunState.motions (s : RunState) : Nat :=
  s.log.toList.countP Operation.isMotion

/-- The latest entry is that of a movement, and says in which cell the turtle has arrived or where it
faces now. -/
def RunState.JustMoved (s : RunState) : Prop :=
  (∃ cell, Cell.ofPoint s.x s.y = .ok cell ∧ s.log.toList.getLast? = some (.move cell)) ∨
    s.log.toList.getLast? = some (.turn s.heading)

/-- Whether a step has answered that there was a movement. -/
def saysMoved : Except Failure Bool → Bool
  | .ok b => b
  | .error _ => false

section Counting

variable {o : Options} {s s' : RunState} {i : Instr} {a : Abort} {m m' m₀ : Machine}
  {p : Machine.Progress}

theorem Operation.isMotion_of_isAside {op : Operation} (h : op.isAside = true) :
    op.isMotion = false := by
  cases op with
  | pen down => rfl
  | hsv color => rfl
  | _ => cases h

theorem motions_append {ops : List Operation} (hlog : s'.log.toList = s.log.toList ++ ops) :
    s'.motions = s.motions + ops.countP Operation.isMotion := by
  rw [RunState.motions, hlog, List.countP_append]
  rfl

theorem motions_aside (h : s.Aside s') : s'.motions = s.motions := by
  obtain ⟨ops, hops, hlog⟩ := h.log
  rw [motions_append hlog, List.countP_eq_zero.2, Nat.add_zero]
  intro op hop
  rw [Operation.isMotion_of_isAside (hops op hop)]
  exact Bool.false_ne_true

theorem countP_plots (o : Options) (color : Hsv) (cells : List Cell) :
    (o.plots color cells).countP Operation.isMotion = 0 := by
  unfold Options.plots
  split_ifs
  · rw [List.countP_map]
    exact List.countP_eq_zero.2 fun _ _ => Bool.false_ne_true
  · rfl

theorem motions_movedBy (h : MovedBy o s i s') : s'.motions = s.motions + 1 ∧ s'.JustMoved := by
  cases h with
  | @move way e line path cell _ _ hcell hlog =>
    have hlast : s'.log.toList.getLast? = some (.move cell) := by
      rw [hlog, List.getLast?_concat]
    rw [List.append_assoc] at hlog
    refine ⟨?_, .inl ⟨cell, hcell, hlast⟩⟩
    rw [motions_append hlog, List.countP_append, countP_plots]
    rfl
  | turn _ _ hlog =>
    refine ⟨motions_append hlog, .inr ?_⟩
    rw [hlog, List.getLast?_concat]

theorem motions_stoppedAt (h : StoppedAt o s a s') : s'.motions = s.motions := by
  cases h with
  | aside haside => exact motions_aside haside
  | line _ _ hlog => rw [motions_append hlog, countP_plots, Nat.add_zero]
  | arrived hlog => rw [RunState.motions, hlog, RunState.motions]

/-! ## Steps -/

section Recorded

variable (hr : o.record = true)

include hr

theorem motions_of_ne_moved {ev : Event} (h : m.step o = (m', ev)) (hev : ev ≠ .moved) :
    m'.state.motions = m.state.motions := by
  have hlogs := logs_step hr m
  rw [h] at hlogs
  cases ev with
  | moved => exact absurd rfl hev
  | aborted a => exact motions_stoppedAt hlogs
  | _ => exact motions_aside hlogs

theorem motions_of_moved (h : m.step o = (m', .moved)) :
    m'.state.motions = m.state.motions + 1 ∧ m'.state.JustMoved := by
  have hlogs := logs_step hr m
  rw [h] at hlogs
  obtain ⟨i, -, hmoved⟩ := hlogs
  exact motions_movedBy hmoved

/-- The events on the way to a movement make no entry about one. -/
theorem motions_proceed_moved (h : m.proceed o = some (m', .moved)) :
    m'.state.motions = m.state.motions + 1 ∧ m'.state.JustMoved := by
  refine Machine.proceed_induction
    (motive := fun m => m'.state.motions = m.state.motions + 1 ∧ m'.state.JustMoved)
    (fun m ev hs _ hev => ?_) (fun m m₁ hs ih => ?_) h
  · cases ev with
    | moved => exact motions_of_moved hr hs
    | _ => cases hev
  · rwa [← motions_of_ne_moved hr hs nofun]

theorem motions_proceed_ne_moved (h : m.proceed o = some (m', p)) (hp : p ≠ .moved) :
    m'.state.motions = m.state.motions := by
  refine Machine.proceed_induction (motive := fun m => m'.state.motions = m.state.motions)
    (fun m ev hs _ hev => ?_) (fun m m₁ hs ih => ?_) h
  · refine motions_of_ne_moved hr hs ?_
    rintro rfl
    exact hp hev.symm
  · rwa [← motions_of_ne_moved hr hs nofun]

/-- **A step makes one entry about a movement if it says so, and none otherwise.** -/
theorem motions_stepOnce (m : Machine) :
    (m.stepOnce o).1.state.motions =
      m.state.motions + if saysMoved (m.stepOnce o).2 then 1 else 0 := by
  cases hp : m.proceed o with
  | none =>
    rw [Machine.stepOnce_of_none hp]
    rfl
  | some q =>
    obtain ⟨m', p⟩ := q
    cases p with
    | moved =>
      rw [Machine.stepOnce_of_moved hp]
      exact (motions_proceed_moved hr hp).1
    | ended =>
      have := motions_proceed_ne_moved hr hp (by rintro ⟨⟩)
      rw [Machine.stepOnce, hp]
      exact this
    | aborted a =>
      have := motions_proceed_ne_moved hr hp (by rintro ⟨⟩)
      rw [Machine.stepOnce, hp]
      exact this
    | unfinished => exact absurd rfl (Machine.proceed_ne_unfinished hp)

theorem justMoved_of_stepOnce (h : m.stepOnce o = (m', .ok true)) : m'.state.JustMoved := by
  have hproceed := Machine.proceed_of_stepOnce (o := o) (congrArg Prod.snd h)
  rw [h] at hproceed
  exact (motions_proceed_moved hr hproceed).2

/-- **The log has one entry about a movement for each step that said that there was one**, whatever
else a host calls. -/
theorem motions_serveAll (m : Machine) (calls : List HostCall) :
    (m.serveAll o calls).1.state.motions =
      m.state.motions + (m.stepReplies o calls).countP saysMoved := by
  induction calls generalizing m with
  | nil => rfl
  | cons c calls ih =>
    rw [Machine.serveAll_cons_fst, ih]
    by_cases hc : c = .step
    · subst hc
      rw [Machine.stepReplies_step, List.countP_cons, Nat.add_comm (List.countP _ _),
        ← Nat.add_assoc]
      exact congrArg (· + _) (motions_stepOnce hr m)
    · have hserve : (m.serve o c).1.state = m.state := by
        cases c with
        | step => exact absurd rfl hc
        | cancel => exact m.cancel_state
        | _ => rfl
      rw [Machine.stepReplies_of_ne_step hc, hserve]

end Recorded

/-! ## Iterating -/

/-- `m.Yields o items last`: by one step for each of the items, a host comes from `m` to `last`. Every
one of the steps is a movement, and the item tells the cell and the heading right after it. -/
inductive Machine.Yields (o : Options) : Machine → List (Cell × Float) → Machine → Prop
  | nil (m : Machine) : Yields o m [] m
  | cons {m m₁ last : Machine} {cell : Cell} {items : List (Cell × Float)} :
    m.stepOnce o = (m₁, .ok true) → m₁.position = .ok cell → Yields o m₁ items last →
    Yields o m ((cell, m₁.state.heading) :: items) last

/-- How iterating stops that has handed out the items and come to the machine `last`, with `left` more
items to ask for. -/
inductive Machine.StopsIterating (o : Options) (items : List (Cell × Float)) (last : Machine) :
    Nat → Machine → Except Failure (List (Cell × Float)) → Prop
  | enough : StopsIterating o items last 0 last (.ok items)
  | ended {left : Nat} {m' : Machine} : last.stepOnce o = (m', .ok false) →
    StopsIterating o items last (left + 1) m' (.ok items)
  | failed {left : Nat} {m' : Machine} {e : Failure} : last.stepOnce o = (m', .error e) →
    StopsIterating o items last (left + 1) m' (.error e)
  /-- There was a movement, but the turtle has no cell. -/
  | astray {left : Nat} {m' : Machine} {reason : Number.NoInteger} :
    last.stepOnce o = (m', .ok true) → m'.position = .error reason →
    StopsIterating o items last (left + 1) m' (.error (.noCell reason))

/-- Iterating may stop before there are any more items. -/
theorem Machine.StopsIterating.at_once {seen : List (Cell × Float)} {n : Nat}
    {x : Except Failure (List (Cell × Float))} (h : m.StopsIterating o seen n m' x) :
    ∃ items last left, m.Yields o items last ∧ items.length + left = n ∧
      last.StopsIterating o (seen ++ items) left m' x := by
  refine ⟨[], m, n, .nil m, Nat.zero_add n, ?_⟩
  rw [List.append_nil]
  exact h

theorem Machine.positionsFrom_yields (seen : List (Cell × Float)) (n : Nat) (m : Machine) :
    ∃ items last left, m.Yields o items last ∧ items.length + left = n ∧
      last.StopsIterating o (seen.reverse ++ items) left (m.positionsFrom o seen n).1
        (m.positionsFrom o seen n).2 := by
  induction n generalizing seen m with
  | zero => exact StopsIterating.enough.at_once
  | succ n ih =>
    unfold positionsFrom
    rcases hs : m.stepOnce o with ⟨m₁, reply⟩
    match reply with
    | .error e => exact (StopsIterating.failed hs).at_once
    | .ok false => exact (StopsIterating.ended hs).at_once
    | .ok true =>
      simp only
      cases hcell : m₁.position with
      | error reason => exact (StopsIterating.astray hs hcell).at_once
      | ok cell =>
        obtain ⟨items, last, left, hyields, hlength, hstops⟩ :=
          ih ((cell, m₁.state.heading) :: seen) m₁
        rw [List.reverse_cons, List.append_assoc] at hstops
        refine ⟨(cell, m₁.state.heading) :: items, last, left, .cons hs hcell hyields, ?_, hstops⟩
        rw [List.length_cons, Nat.add_right_comm, hlength]

theorem Machine.positions_yields (n : Nat) (m : Machine) :
    ∃ items last left, m.Yields o items last ∧ items.length + left = n ∧
      last.StopsIterating o items left (m.positions o n).1 (m.positions o n).2 :=
  positionsFrom_yields [] n m

theorem Machine.Yields.reaches {items : List (Cell × Float)} {last : Machine}
    (h : m.Yields o items last) : ∃ past, Reaches o m past last := by
  induction h with
  | nil m => exact ⟨[], .start⟩
  | @cons m m₁ _ _ _ hstep _ _ ih =>
    obtain ⟨past, hpast⟩ := (reaches_stepOnce o m).1
    rw [hstep] at hpast
    obtain ⟨past', hpast'⟩ := ih
    exact ⟨_, hpast.trans hpast'⟩

theorem Machine.StopsIterating.reaches {items : List (Cell × Float)} {last : Machine} {left : Nat}
    {x : Except Failure (List (Cell × Float))} (h : last.StopsIterating o items left m' x) :
    ∃ past, Reaches o last past m' := by
  have hstep (reply : Except Failure Bool) (h : last.stepOnce o = (m', reply)) :
      ∃ past, Reaches o last past m' := by
    have := (reaches_stepOnce o last).1
    rwa [h] at this
  cases h with
  | enough => exact ⟨[], .start⟩
  | ended h => exact hstep _ h
  | failed h => exact hstep _ h
  | astray h _ => exact hstep _ h

theorem Machine.reaches_serveAll (m : Machine) (calls : List HostCall) :
    ∃ past, Reaches o m past (m.serveAll o calls).1 := by
  induction calls generalizing m with
  | nil => exact ⟨[], .start⟩
  | cons c calls ih =>
    obtain ⟨past, hpast⟩ := reaches_serve o m c
    obtain ⟨past', hpast'⟩ := ih (m.serve o c).1
    exact ⟨_, hpast.trans hpast'⟩

theorem motions_stepOnce_eq {reply : Except Failure Bool} (hr : o.record = true)
    (h : m.stepOnce o = (m', reply)) :
    m'.state.motions = m.state.motions + if saysMoved reply then 1 else 0 := by
  have := motions_stepOnce hr m
  rwa [h] at this

/-- **Iterating hands out one item for each entry about a movement.** -/
theorem motions_yields {items : List (Cell × Float)} {last : Machine} (hr : o.record = true)
    (h : m.Yields o items last) : last.state.motions = m.state.motions + items.length := by
  induction h with
  | nil m => rfl
  | @cons m m₁ _ _ items hstep _ _ ih =>
    have hone : m₁.state.motions = m.state.motions + 1 := motions_stepOnce_eq hr hstep
    rw [ih, hone, List.length_cons]
    omega

/-- A turtle with a cell does not stop iterating after a movement. -/
theorem motions_stopsIterating {items : List (Cell × Float)} {last : Machine} {left : Nat}
    {x : Except Failure (List (Cell × Float))} (hr : o.record = true)
    (h : last.StopsIterating o items left m' x) (hplaced : m'.state.Placed) :
    m'.state.motions = last.state.motions := by
  cases h with
  | enough => rfl
  | ended hstep => exact motions_stepOnce_eq hr hstep
  | failed hstep => exact motions_stepOnce_eq hr hstep
  | astray _ hastray =>
    obtain ⟨cell, hcell⟩ := hplaced
    cases hcell.symm.trans hastray

end Counting

/-- **One movement per step.** In a run that is recorded, whatever a host calls, the log has one entry
about a movement for each step that said that there was one, and right after such a step it is the
latest entry. Iterating hands out one item for each movement, the cell and the heading right after
it, until there are enough, or a step says that there was no movement, or fails. If the turtle starts
with a cell, there is one item for each new entry about a movement; otherwise iterating breaks off at
the first movement. -/
theorem one_movement_per_step {o : Options} (hr : o.record = true) (program : List Instr)
    {m₀ : Machine} (hstart : Machine.start o program = .ok m₀) (calls : List HostCall) :
    let m := (m₀.serveAll o calls).1
    m.state.motions = (m₀.stepReplies o calls).countP saysMoved ∧
    (∀ m', m.stepOnce o = (m', .ok true) → m'.state.JustMoved) ∧
    ∀ n, ∃ items last left, m.Yields o items last ∧ items.length + left = n ∧
      last.state.motions = m.state.motions + items.length ∧
      last.StopsIterating o items left (m.positions o n).1 (m.positions o n).2 ∧
      ((RunState.start o).Placed →
        (m.positions o n).1.state.motions = m.state.motions + items.length) := by
  intro m
  refine ⟨?_, fun m' hstep => justMoved_of_stepOnce hr hstep, fun n => ?_⟩
  · obtain ⟨calls', hcalls⟩ := exists_calls_of_start hstart
    have h₀ : m₀.state.motions = 0 := by
      rw [hcalls]
      rfl
    rw [motions_serveAll hr, h₀, Nat.zero_add]
  · obtain ⟨items, last, left, hyields, hlength, hstops⟩ := m.positions_yields (o := o) n
    have hmotions := motions_yields hr hyields
    refine ⟨items, last, left, hyields, hlength, hmotions, hstops, fun hplaced => ?_⟩
    obtain ⟨past₁, hcalls⟩ := m₀.reaches_serveAll (o := o) calls
    obtain ⟨past₂, hitems⟩ := hyields.reaches
    obtain ⟨past₃, hstopped⟩ := hstops.reaches
    have hreach := (hcalls.trans hitems).trans hstopped
    rw [motions_stopsIterating hr hstops (hreach.placed ((placed_of_start hstart).2 hplaced)),
      hmotions]

/-- A turtle lowers its pen and turns in one step. -/
theorem one_movement_per_step_turn :
    ∃ m₀ m, Machine.start {} [.pen .down none, .turn .right (.num 90) none] = .ok m₀ ∧
      m₀.stepOnce {} = (m, .ok true) ∧ m.state.JustMoved ∧
      (m₀.serveAll {} [.step]).1.state.motions = 1 := by
  let program : List Instr := [.pen .down none, .turn .right (.num 90) none]
  let m₀ : Machine := ⟨program, [], .start {}, .running⟩
  have hstart : Machine.start {} program = .ok m₀ := rfl
  have hpen : m₀.step {} = (_, .idle) := rfl
  have hrun : (match (m₀.step {}).1.step {} with
      | (_, .moved) => true
      | _ => false) = true := by
    decide +kernel
  split at hrun
  · rename_i m hturn
    have hproceed := (Machine.proceed_of_idle hpen).trans (Machine.proceed_of_ne_idle hturn nofun)
    have honce : m₀.stepOnce {} = (m, .ok true) := Machine.stepOnce_of_moved hproceed
    have hmotions := (one_movement_per_step rfl program hstart [.step]).1
    rw [Machine.stepReplies_step, honce] at hmotions
    exact ⟨m₀, m, hstart, honce, (one_movement_per_step rfl program hstart []).2.1 m honce, hmotions⟩
  · cases hrun

/-- A turtle that starts infinitely far away turns, and iterating hands out nothing. -/
theorem iterating_breaks_off :
    ∃ m₀ m reason,
      Machine.start { startX := 1 / 0 } [.turn .left (.num 90) (some 1)] = .ok m₀ ∧
      m₀.positions { startX := 1 / 0 } 1 = (m, .error (.noCell reason)) ∧
      m.state.motions = 1 := by
  let o : Options := { startX := 1 / 0 }
  let m₀ : Machine := ⟨[.turn .left (.num 90) (some 1)], [], .start o, .running⟩
  have hrun : (match m₀.step o with
      | (m, .moved) => m.position.toOption.isNone && m.state.motions == 1
      | _ => false) = true := by
    decide +kernel
  split at hrun
  · rename_i m hturn
    rw [Bool.and_eq_true, beq_iff_eq] at hrun
    have honce : m₀.stepOnce o = (m, .ok true) :=
      Machine.stepOnce_of_moved (Machine.proceed_of_ne_idle hturn nofun)
    cases hcell : m.position with
    | ok cell =>
      rw [hcell] at hrun
      cases hrun.1
    | error reason =>
      have hiter : m₀.positions o 1 = (m, .error (.noCell reason)) := by
        rw [Machine.positions, Machine.positionsFrom, honce]
        simp only [hcell]
      exact ⟨m₀, m, reason, rfl, hiter, hrun.2⟩
  · cases hrun

end PixelTurtle
