import PixelTurtle.Proofs.Replay

/-!
# A log without room

The entry about a change is made at its end. When the log turns out to be full, the cell has been
drawn and reported already, the turtle has moved or turned, the pen or the color has changed. What
such a run hands out agrees with what others have seen of it except for one entry, and that is the
one there was no room for.

* `Tells` says that entries tell what was drawn and reported, `Truthful` that the log does, and that
  it tells how the turtle stands. Every change keeps this.
* `Instr.Logs` are the entries of an instruction. `Instr.Stops.exists_missing` finds the one that is
  missing from a full log.
* `RunResult.Misses` says what a result lacks, and `full_log_misses_one_entry` that it lacks nothing
  else.
-/

namespace PixelTurtle

/-! ## What the entries tell -/

/-- The cell that an entry plots, and its color. -/
def Operation.plot? : Operation → Option (Cell × Hsv)
  | .plot cell color => some (cell, color)
  | _ => none

/-- The cell that a call draws, and its color. -/
def Call.draw? : Call → Option (Cell × Hsv)
  | .drawPixel cell color => some (cell, color)
  | _ => none

/-- Whether there is a renderer that draws cells. -/
def Options.draws (o : Options) : Bool :=
  o.renderer.any (·.contains .drawPixel)

/-- The entries tell which cells were drawn and reported, in their order and in which color. -/
structure Tells (o : Options) (calls : Array Call) (pixels : Array (Cell × Hsv))
    (ops : List Operation) : Prop where
  drawn : o.draws = true → calls.toList.filterMap Call.draw? = ops.filterMap Operation.plot?
  reported : o.onPixel = true → pixels.toList = ops.filterMap Operation.plot?

/-- The log tells how the turtle stands, and what was drawn and reported. -/
structure Truthful (o : Options) (s : RunState) : Prop extends Faithful o s where
  tells : Tells o s.calls s.pixels s.log.toList

section Telling

variable {o : Options} {s : RunState} {ops : List Operation} {op : Operation} {c : Call}

theorem Tells.append {calls : Array Call} {pixels : Array (Cell × Hsv)}
    (h : Tells o calls pixels ops) (hop : op.plot? = none) :
    Tells o calls pixels (ops ++ [op]) where
  drawn hd := by simp [h.drawn hd, hop]
  reported hp := by simp [h.reported hp, hop]

theorem Tells.heard (h : Tells o s.calls s.pixels ops) (hc : c.draw? = none) :
    Tells o (s.heard o c).calls s.pixels ops where
  drawn hd := by
    rw [← h.drawn hd, RunState.heard]
    split_ifs
    · simp [hc]
    · rfl
  reported := h.reported

theorem Tells.told (h : Tells o s.calls s.pixels ops) (cell : Cell) :
    Tells o (s.told o cell).calls s.pixels ops := by
  have hpen : (if s.penDown then Call.penDown else .penUp).draw? = none := by
    split_ifs <;> rfl
  exact Tells.heard (Tells.heard (Tells.heard h rfl) hpen) rfl

theorem Tells.painted (h : Tells o s.calls s.pixels ops) (cell : Cell) :
    Tells o (s.painted o cell).calls (s.painted o cell).pixels (ops ++ [.plot cell s.color]) where
  drawn hd := by
    have htakes : o.takes (.drawPixel cell s.color) = true := hd
    simp [RunState.painted, RunState.heard, htakes, h.drawn hd, Call.draw?, Operation.plot?]
  reported hp := by
    simp [RunState.painted, RunState.heard, hp, h.reported hp, Operation.plot?]

theorem Tells.logged (h : Tells o s.calls s.pixels (s.log.toList ++ [op])) :
    Tells o (s.logged op).calls (s.logged op).pixels (s.logged op).log.toList := by
  rwa [RunState.logged, Array.toList_push]

end Telling

/-! ## Truthful states -/

namespace Truthful

variable {o : Options} {s : RunState} {cell : Cell}

theorem ticked (h : Truthful o s) : Truthful o s.ticked :=
  ⟨h.toFaithful.other _ _ _ _, h.tells⟩

theorem assign (h : Truthful o s) (vars : Env) : Truthful o { s with vars := vars } :=
  ⟨h.toFaithful.other _ _ _ _, h.tells⟩

theorem heard (h : Truthful o s) {c : Call} (hc : c.draw? = none) : Truthful o (s.heard o c) :=
  ⟨h.toFaithful.other _ _ _ _, h.tells.heard hc⟩

theorem told (h : Truthful o s) (cell : Cell) : Truthful o (s.told o cell) :=
  ⟨h.toFaithful.other _ _ _ _, h.tells.told cell⟩

theorem plot (h : Truthful o s) (hdown : s.penDown = true) (cell : Cell) :
    Truthful o ((s.painted o cell).logged (.plot cell s.color)) := by
  have hpainted : Faithful o (s.painted o cell) := h.toFaithful.other _ _ _ _
  exact ⟨hpainted.plot hdown cell, Tells.logged (h.tells.painted cell)⟩

theorem move (h : Truthful o s) {x y : Float} (hcell : Cell.ofPoint x y = .ok cell) :
    Truthful o (({ s with x := x, y := y }.told o cell).logged (.move cell)) := by
  have hrecounted : Recounted o ({ s with x := x, y := y }.told o cell) :=
    ⟨h.heading, h.penDown, h.color, h.plots⟩
  have htold := Tells.told (s := { s with x := x, y := y }) h.tells cell
  exact ⟨hrecounted.move hcell, Tells.logged (htold.append rfl)⟩

theorem turn (h : Truthful o s) (heading : Float) :
    Truthful o ({ s with heading := heading }.logged (.turn heading)) :=
  ⟨h.toFaithful.turn heading, Tells.logged (h.tells.append rfl)⟩

theorem pen (h : Truthful o s) (down : Bool) :
    Truthful o ({ s with penDown := down }.logged (.pen down)) :=
  ⟨h.toFaithful.pen down, Tells.logged (h.tells.append rfl)⟩

theorem hsv (h : Truthful o s) (color : Hsv) :
    Truthful o ({ s with color := color }.logged (.hsv color)) :=
  ⟨h.toFaithful.hsv color, Tells.logged (h.tells.append rfl)⟩

/-- **Every change keeps the log truthful.** -/
theorem change {s' : RunState} (h : Truthful o s) (hr : o.record = true)
    (hchange : Change o s s') : Truthful o s' := by
  cases hchange with
  | tick => exact h.ticked
  | plot hdown _ _ => exact noted_eq_logged hr _ _ ▸ h.plot hdown _
  | move _ _ hcell _ => exact noted_eq_logged hr _ _ ▸ h.move hcell
  | turn delta _ => exact (noted_eq_logged hr _ _ ▸ h.turn _).heard rfl
  | pen down _ _ => exact (noted_eq_logged hr _ _ ▸ h.pen down).told _
  | penAstray down _ _ => exact noted_eq_logged hr _ _ ▸ h.pen down
  | color _ _ => exact noted_eq_logged hr _ _ ▸ h.hsv _
  | assign name _ => exact h.assign _

theorem changes {s' : RunState} (h : Truthful o s) (hr : o.record = true)
    (hchanges : Changes o s s') : Truthful o s' :=
  hchanges.invariant (fun _ _ hchange hs => hs.change hr hchange) h

end Truthful

/-! ## The missing entry -/

/-- The entries that an instruction can make. -/
inductive Instr.Logs : Instr → Operation → Prop
  | plot (way : Way) (e : Expr) (line : Option Int) (cell : Cell) (color : Hsv) :
    Logs (.move way e line) (.plot cell color)
  | move (way : Way) (e : Expr) (line : Option Int) (cell : Cell) :
    Logs (.move way e line) (.move cell)
  | turn (side : Side) (e : Expr) (line : Option Int) (heading : Float) :
    Logs (.turn side e line) (.turn heading)
  | pen (state : PenState) (line : Option Int) : Logs (.pen state line) (.pen (state == .down))
  | hsv (h s v : HsvParam) (line : Option Int) (color : Hsv) : Logs (.hsv h s v line) (.hsv color)

section Missing

variable {o : Options} {s s' : RunState} {i : Instr} {m m' m₀ : Machine} {past : List Machine}
  {line : Option Int} {r : RunResult} {op : Operation} {program : List Instr}

/-- What a full log leaves of an instruction lacks one of its entries. -/
theorem Instr.Stops.exists_missing (h : i.Stops o s (.fault .outputLimit line) s')
    (hr : o.record = true) (hs : Truthful o s) : ∃ op, i.Logs op ∧ Truthful o (s'.logged op) := by
  cases h with
  | unread _ hunread => cases hunread
  | brokenLine hdown _ _ hbroken =>
    cases hbroken with
    | @outOfEntries before cell _ hafford _ _ _ =>
      have hstill := (s.sameTurtle_walked o before).penDown.trans hdown
      have hwalked := hs.changes hr (changes_walked hdown hafford)
      exact ⟨_, .plot .., hwalked.ticked.plot hstill cell⟩
  | @unloggedMove way e line x y path cell _ hcell hpath hafford _ =>
    have hwalked := hs.changes hr (changes_path hpath hafford)
    exact ⟨_, .move way e line cell, hwalked.move hcell⟩
  | unloggedTurn _ _ _ => exact ⟨_, .turn .., hs.turn _⟩
  | unloggedPen _ => exact ⟨_, .pen .., hs.pen _⟩
  | unloggedColor _ _ => exact ⟨_, .hsv .., hs.hsv _⟩

theorem Machine.Aborts.exists_missing (h : m.Aborts o (.fault .outputLimit line) s')
    (hr : o.record = true) (hs : Truthful o m.state) :
    ∃ i op, m.next? = some i ∧ i.Logs op ∧ Truthful o (s'.logged op) := by
  cases h with
  | @instr i _ _ hi haborts =>
    cases haborts with
    | stopped _ hstops =>
      obtain ⟨op, hop, htruthful⟩ := hstops.exists_missing hr hs.ticked
      exact ⟨i, op, hi, hop, htruthful⟩
  | unread _ hunread => cases hunread

/-- The result `r` of a run that ends in the state `s` lacks the entry `op`: with this entry, the
result could be told from its log, and the log tells what was drawn and reported. -/
structure RunResult.Misses (r : RunResult) (o : Options) (s : RunState) (op : Operation) :
    Prop where
  replays : ({ r with operations := r.operations.push op } : RunResult).Replays o
  tells : Tells o s.calls s.pixels (r.operations.toList ++ [op])

theorem misses_of_truthful (h : Truthful o (m.state.logged op)) (hres : m.result = .ok r) :
    r.Misses o m.state op := by
  obtain ⟨cell, hcell, rfl⟩ := exists_cell_of_result hres
  have hlogged := result_of_cell (m := { m with state := m.state.logged op }) hcell
  refine ⟨replays_of_result h.toFaithful hlogged, ?_⟩
  rw [← Array.toList_push]
  exact h.tells

/-! ## Runs -/

/-- Setting up draws and reports nothing. -/
theorem truthful_of_start (hstart : Machine.start o program = .ok m₀) : Truthful o m₀.state := by
  have hcleared : Truthful o (.cleared o) := by
    have hstarted : Truthful o (.start o) := ⟨faithful_start o, fun _ => rfl, fun _ => rfl⟩
    unfold RunState.cleared
    split_ifs
    · exact hstarted.heard rfl
    · exact hstarted
  cases hcell : Cell.ofPoint o.startX o.startY with
  | ok cell =>
    rw [start_of_cell hcell] at hstart
    cases hstart
    exact hcleared.told cell
  | error reason =>
    rw [start_of_astray hcell] at hstart
    split_ifs at hstart
    cases hstart
    exact hcleared

/-- A run that goes on has met no full log. -/
theorem Reaches.truthful (h : Reaches o m₀ past m) (hr : o.record = true)
    (hstart : Machine.start o program = .ok m₀) (hrun : m.status = .running) :
    Truthful o m.state := by
  refine h.invariant (fun _ _ hchange hs => hs.change hr hchange) (fun x hx => ?_)
    (truthful_of_start hstart)
  by_contra hfull
  have hfailed := h.failed_of_fault hx (isFault_of_isOutputLimit (by simpa using hfull))
  cases hrun.symm.trans hfailed

/-- An event that is stopped by a full log leaves a result that lacks an entry of its
instruction. -/
theorem Reaches.exists_misses (h : Reaches o m₀ past m) (hr : o.record = true)
    (hstart : Machine.start o program = .ok m₀)
    (hstep : m.step o = (m', .aborted (.fault .outputLimit line))) (hres : m'.result = .ok r) :
    ∃ i op, m.next? = some i ∧ i.Logs op ∧ r.Misses o m'.state op := by
  have hrun : m.status = .running := by
    by_contra hover
    rw [Machine.step_of_status_ne hover] at hstep
    cases hstep
  have htruthful := h.truthful hr hstart hrun
  obtain ⟨i, op, hi, hop, hlogged⟩ := (aborts_step hstep).1.exists_missing hr htruthful
  exact ⟨i, op, hi, hop, misses_of_truthful hlogged hres⟩

theorem exists_misses_of_interpretAsync (hr : o.record = true) {signal : CancelSignal}
    (h : (interpretAsync o signal program).run.outcome = .error (.runtime .outputLimit line r)) :
    ∃ op, r.Misses o (interpretAsync o signal program).run.state op := by
  cases hstart : Machine.start o program with
  | error start =>
    rw [interpretAsync, hstart] at h
    exact absurd (.inr ⟨_, _, h⟩) (not_gives_notStarted hstart)
  | ok m₀ =>
    rcases interpretAsync_ends hstart with hendless | ⟨past, m, hpast, hends⟩
    · rw [hendless] at h
      cases h
    · generalize (interpretAsync o signal program).run = run at h hends
      cases hends with
      | ended hstep =>
        simp only [Machine.success] at h
        split at h <;> cases h
      | aborted hstep =>
        obtain ⟨rfl, hres⟩ := result_of_failure (Except.error.inj h)
        obtain ⟨i, op, -, -, hmisses⟩ := hpast.1.exists_misses hr hstart hstep hres
        exact ⟨op, hmisses⟩
      | cancelled =>
        obtain ⟨hcancelled, -⟩ := result_of_failure (Except.error.inj h)
        cases hcancelled

/-- Drawing a line between two cells. -/
theorem drawLine_eq_drawWalk {x y : Float} {a b : Cell} (ha : Cell.ofPoint s.x s.y = .ok a)
    (hb : Cell.ofPoint x y = .ok b) :
    drawLine o line x y s = drawWalk o line (stepsBetween a b) (.start a b) s := by
  change (cellOf s.x s.y >>= fun a => cellOf x y >>= fun b =>
    drawWalk o line (stepsBetween a b) (.start a b)) s = _
  rw [cellOf, cellOf, ha, hb]
  rfl

/-- A run that is finished by a fault hands out what the fault has left. -/
theorem interpret_of_fault {f : Fault} (hstart : Machine.start o program = .ok m)
    (hfinish : m.finish o = some (m', .aborted (.fault f line))) (hres : m'.result = .ok r) :
    interpret o program = ⟨.error (.runtime f line r), m'.state⟩ := by
  rw [interpret_eq hstart, hfinish]
  simp only [Option.elim, Machine.outcome, Machine.failure, hres]

end Missing

/-- **A full log misses one entry.** If a run that is recorded is stopped because its log is full,
there is one entry with which its result agrees with all that others have seen of it: with this
entry, the cells that were drawn and those that were reported are those that the log plots, and the
cell, the heading, the pen and the color are what the latest entries of the log say. It is an entry
of the instruction that was stopped. -/
theorem full_log_misses_one_entry {o : Options} (hr : o.record = true) (program : List Instr) :
    (∀ m₀ past m m' line r, Machine.start o program = .ok m₀ → Reaches o m₀ past m →
      m.step o = (m', .aborted (.fault .outputLimit line)) → m'.result = .ok r →
      ∃ i op, m.next? = some i ∧ i.Logs op ∧ r.Misses o m'.state op) ∧
    (∀ line r, (interpret o program).outcome = .error (.runtime .outputLimit line r) →
      ∃ op, r.Misses o (interpret o program).state op) ∧
    (∀ signal line r,
      (interpretAsync o signal program).run.outcome = .error (.runtime .outputLimit line r) →
      ∃ op, r.Misses o (interpretAsync o signal program).run.state op) ∧
    (∀ line r, (interpretStepping o program).outcome = .error (.runtime .outputLimit line r) →
      ∃ op, r.Misses o (interpretStepping o program).state op) := by
  have honce (line : Option Int) (r : RunResult)
      (h : (interpret o program).outcome = .error (.runtime .outputLimit line r)) :
      ∃ op, r.Misses o (interpret o program).state op := by
    rw [← interpretAsync_never] at h ⊢
    exact exists_misses_of_interpretAsync hr h
  refine ⟨fun m₀ past m m' line r hstart hreach hstep hres => ?_, honce,
    fun signal line r h => exists_misses_of_interpretAsync hr h, ?_⟩
  · exact hreach.exists_misses hr hstart hstep hres
  · rw [interpretStepping_eq]
    exact honce

/-- The pen is lowered and raised again, with a log of one entry. -/
theorem full_log_misses_pen :
    ∃ r, (interpret { maxOperations := some 1 } [.pen .down (some 1), .pen .up (some 2)]).outcome =
        .error (.runtime .outputLimit (some 2) r) ∧
      r.operations = #[.pen true] ∧
      ∃ op, r.Misses { maxOperations := some 1 } (interpret { maxOperations := some 1 }
        [.pen .down (some 1), .pen .up (some 2)]).state op := by
  let o : Options := { maxOperations := some 1 }
  let m : Machine := ⟨[.pen .down (some 1), .pen .up (some 2)], [], .start o, .running⟩
  have hfst : m.step o = (_, .idle) := rfl
  have hsnd : (m.step o).1.step o = (_, .aborted (.fault .outputLimit (some 2))) := rfl
  have hfinish := (Machine.finish_of_goesOn hfst rfl).trans (Machine.finish_of_not_goesOn hsnd rfl)
  have hcell : Cell.ofPoint 0 0 = .ok ⟨0, 0⟩ := by decide +kernel
  have hout := congrArg Run.outcome (interpret_of_fault rfl hfinish (result_of_cell hcell))
  exact ⟨_, hout, rfl, (full_log_misses_one_entry rfl _).2.1 _ _ hout⟩

/-- A log without room tells neither that the pen was lowered nor that a cell of a line was
reported. -/
theorem full_log_lags_behind :
    (∃ r, (interpret { maxOperations := some 0 } [.pen .down (some 1)]).outcome =
        .error (.runtime .outputLimit (some 1) r) ∧
      r.penDown ≠ Options.penAfter { maxOperations := some 0 } r.operations.toList) ∧
    ∃ s, drawLine { maxOperations := some 0, onPixel := true } (some 2) 2 0 (.start {}) =
        .error (.fault .outputLimit (some 2)) s ∧
      s.pixels.toList ≠ s.log.toList.filterMap Operation.plot? := by
  let o : Options := { maxOperations := some 0 }
  let o' : Options := { maxOperations := some 0, onPixel := true }
  let m : Machine := ⟨[.pen .down (some 1)], [], .start o, .running⟩
  have hstep : m.step o = (_, .aborted (.fault .outputLimit (some 1))) := rfl
  have hfinish := Machine.finish_of_not_goesOn hstep rfl
  have hcell : Cell.ofPoint 0 0 = .ok ⟨0, 0⟩ := by decide +kernel
  have hout := congrArg Run.outcome (interpret_of_fault rfl hfinish (result_of_cell hcell))
  have hgoal : Cell.ofPoint 2 0 = .ok ⟨2, 0⟩ := by decide +kernel
  have hdraw : drawLine o' (some 2) 2 0 (.start {}) =
      .error (.fault .outputLimit (some 2)) ((RunState.start {}).ticked.painted o' ⟨1, 0⟩) := by
    rw [drawLine_eq_drawWalk (s := .start {}) hcell hgoal]
    rfl
  exact ⟨⟨_, hout, nofun⟩, _, hdraw, nofun⟩

end PixelTurtle
