import PixelTurtle.Proofs.Changes

/-!
# Where the turtle is

A turtle that has a cell always keeps one, because it only moves to finite points. One that has none
never gets one, because no point that it could head for is finite.

* `Reaches.placed` and `Reaches.astray` say that this is settled at the start of a run.
-/

namespace PixelTurtle

/-! ## A turtle in a cell -/

section

variable {o : Options} {s s' : RunState} {m m₀ : Machine} {past : List Machine}

theorem placed_change (h : Change o s s') (hs : s.Placed) : s'.Placed := by
  cases h with
  | move _ _ hcell _ => exact ⟨_, hcell⟩
  | _ => exact hs

theorem placed_cut (h : Cut o s s') (hs : s.Placed) : s'.Placed := by
  cases h with
  | move _ _ hcell _ => exact ⟨_, hcell⟩
  | _ => exact hs

/-- A turtle that starts in a cell is always in one. -/
theorem Reaches.placed (h : Reaches o m₀ past m) (h₀ : m₀.state.Placed) : m.state.Placed :=
  h.invariant_of_cut (fun _ _ hchange => placed_change hchange) (fun _ _ hcut => placed_cut hcut) h₀

/-- Setting up does not move the turtle. -/
theorem placed_of_start {program : List Instr} (h : Machine.start o program = .ok m₀) :
    m₀.state.Placed ↔ (RunState.start o).Placed := by
  obtain ⟨calls, hcalls⟩ := exists_calls_of_start h
  rw [hcalls]
  rfl

end

/-! ## A turtle without a cell -/

/-- The turtle has no cell. -/
def RunState.Astray (s : RunState) : Prop := ¬ s.Placed

section

variable {o : Options} {s s' : RunState} {i : Instr}

/-- A turtle without a cell does not move: every target is as far away as the turtle is. -/
theorem Instr.Completes.astray {signal : Signal} (h : i.Completes o s signal s')
    (hs : s.Astray) : s'.Astray := by
  cases h with
  | move hfor hcell _ _ _ =>
    obtain ⟨hx, hy⟩ := Cell.isFinite_of_ofPoint hcell
    exact absurd (hfor.placed hx hy) hs
  | _ => exact hs

theorem Instr.Stops.astray {a : Abort} (h : i.Stops o s a s') (hs : s.Astray) : s'.Astray := by
  cases h with
  | brokenLine _ _ hline _ =>
    obtain ⟨c, -, hc, -⟩ := hline
    exact absurd ⟨c, hc⟩ hs
  | unloggedMove hfor hcell _ _ _ =>
    obtain ⟨hx, hy⟩ := Cell.isFinite_of_ofPoint hcell
    exact absurd (hfor.placed hx hy) hs
  | _ => exact hs

theorem Instr.Aborts.astray {a : Abort} (h : i.Aborts o s a s') (hs : s.Astray) : s'.Astray := by
  cases h with
  | stopped _ hstops => exact hstops.astray hs
  | _ => exact hs

/-- **A turtle that starts without a cell never gets one.** -/
theorem Reaches.astray {m m₀ : Machine} {past : List Machine} (h : Reaches o m₀ past m)
    (h₀ : m₀.state.Astray) : m.state.Astray := by
  induction h with
  | start => exact h₀
  | @step past m _ ih =>
    exact (comes_step o m).state_of ih ih (fun _ _ _ _ hdone => hdone.astray ih)
      fun _ _ _ _ haborts => haborts.astray ih
  | cancel _ ih =>
    rw [Machine.cancel_state]
    exact ih

end

end PixelTurtle
