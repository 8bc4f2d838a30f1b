import PixelTurtle.Proofs.Results

/-!
# Replaying the log

Every change of the turtle is logged, so that its cell, its heading, its pen and its color can be
told from the log alone: each is what the latest entry about it says, or as it was at the start. The
log runs ahead of the turtle or behind it only within an instruction. Whatever stops an instruction,
the two agree again, unless it was the log itself that was full.

* `latest` is the latest entry of a kind, and `Options.penAfter` and the like are what a replay of
  some entries comes to.
* `Faithful` is the invariant of a run. The position is a point and the log has its cell, which is
  why it speaks of points that have a cell only. `Faithful.change` says that every change keeps it.
* `result_replays` is the theorem for all results.
-/

namespace PixelTurtle

/-! ## Replays -/

namespace Operation

def cell? : Operation → Option Cell
  | .move cell => some cell
  | _ => none

def heading? : Operation → Option Float
  | .turn heading => some heading
  | _ => none

def pen? : Operation → Option Bool
  | .pen down => some down
  | _ => none

def color? : Operation → Option Hsv
  | .hsv color => some color
  | _ => none

end Operation

/-- What the latest of the entries that `f` is about says. -/
def latest {α : Type} (f : Operation → Option α) (ops : List Operation) : Option α :=
  (ops.filterMap f).getLast?

theorem latest_append {α : Type} (f : Operation → Option α) (ops : List Operation)
    (op : Operation) : latest f (ops ++ [op]) = (f op).or (latest f ops) := by
  unfold latest
  cases h : f op with
  | none => rw [List.filterMap_append, List.filterMap_cons_none h, List.filterMap_nil,
      List.append_nil, Option.none_or]
  | some a => rw [List.filterMap_append, List.filterMap_cons_some h, List.filterMap_nil,
      List.getLast?_concat, Option.some_or]

namespace Options

variable (o : Options) (ops : List Operation) (op : Operation)

/-- The cell of the turtle after some entries, if it started in one. -/
def cellAfter : Except Number.NoInteger Cell :=
  (latest Operation.cell? ops).elim (Cell.ofPoint o.startX o.startY) .ok

/-- The heading after some entries. -/
def headingAfter : Float :=
  (latest Operation.heading? ops).getD o.heading

/-- Whether the pen is down after some entries. -/
def penAfter : Bool :=
  (latest Operation.pen? ops).getD o.penDown

/-- The color after some entries. -/
def colorAfter : Hsv :=
  (latest Operation.color? ops).getD o.color

theorem cellAfter_append :
    o.cellAfter (ops ++ [op]) = op.cell?.elim (o.cellAfter ops) .ok := by
  rw [cellAfter, latest_append]
  cases op.cell? <;> rfl

theorem headingAfter_append :
    o.headingAfter (ops ++ [op]) = op.heading?.getD (o.headingAfter ops) := by
  rw [headingAfter, latest_append]
  cases op.heading? <;> rfl

theorem penAfter_append : o.penAfter (ops ++ [op]) = op.pen?.getD (o.penAfter ops) := by
  rw [penAfter, latest_append]
  cases op.pen? <;> rfl

theorem colorAfter_append : o.colorAfter (ops ++ [op]) = op.color?.getD (o.colorAfter ops) := by
  rw [colorAfter, latest_append]
  cases op.color? <;> rfl

/-- Every cell was drawn with the pen down and in the color of that moment. -/
def PlotsMatch : Prop :=
  ∀ before cell color after, ops = before ++ .plot cell color :: after →
    o.penAfter before = true ∧ color = o.colorAfter before

variable {o ops op}

theorem PlotsMatch.append (h : o.PlotsMatch ops)
    (hop : ∀ cell color, op = .plot cell color →
      o.penAfter ops = true ∧ color = o.colorAfter ops) :
    o.PlotsMatch (ops ++ [op]) := by
  intro before cell color after heq
  rcases List.eq_nil_or_concat after with rfl | ⟨after, last, rfl⟩
  · obtain ⟨rfl, hplot⟩ := List.append_inj' heq rfl
    exact hop cell color (List.head_eq_of_cons_eq hplot)
  · rw [List.concat_eq_append, ← List.cons_append, ← List.append_assoc] at heq
    exact h before cell color after (List.append_inj' heq rfl).1

end Options

/-! ## Faithful states -/

/-- The log says how the turtle stands, its cell apart. -/
structure Recounted (o : Options) (s : RunState) : Prop where
  heading : s.heading = o.headingAfter s.log.toList
  penDown : s.penDown = o.penAfter s.log.toList
  color : s.color = o.colorAfter s.log.toList
  plots : o.PlotsMatch s.log.toList

/-- The log says how and where the turtle stands. -/
structure Faithful (o : Options) (s : RunState) : Prop extends Recounted o s where
  cell : ∀ c, Cell.ofPoint s.x s.y = .ok c → o.cellAfter s.log.toList = .ok c

section Logged

variable {o : Options} {s t : RunState} {op : Operation}

theorem faithful_start (o : Options) : Faithful o (.start o) :=
  ⟨⟨rfl, rfl, rfl, fun before cell color after h => by cases before <;> cases h⟩, fun _ h => h⟩

/-- The log catches up with a change of the turtle from `s` to `t`: the entry is about what has
changed, and about nothing else. -/
theorem Recounted.logged (h : Recounted o s) (hlog : t.log = s.log)
    (hheading : t.heading = op.heading?.getD s.heading)
    (hpen : t.penDown = op.pen?.getD s.penDown) (hcolor : t.color = op.color?.getD s.color)
    (hplot : ∀ cell color, op = .plot cell color → s.penDown = true ∧ color = s.color)
    (hcell : ∀ c, Cell.ofPoint t.x t.y = .ok c →
      op.cell?.elim (o.cellAfter s.log.toList) .ok = .ok c) :
    Faithful o (t.logged op) := by
  have htoList : (t.logged op).log.toList = s.log.toList ++ [op] := by
    rw [← hlog]
    exact Array.toList_push
  constructor
  · constructor
    · rw [htoList, o.headingAfter_append, ← h.heading]
      exact hheading
    · rw [htoList, o.penAfter_append, ← h.penDown]
      exact hpen
    · rw [htoList, o.colorAfter_append, ← h.color]
      exact hcolor
    · rw [htoList]
      refine h.plots.append fun cell color hop => ?_
      rw [← h.penDown, ← h.color]
      exact hplot cell color hop
  · intro c hc
    rw [htoList, o.cellAfter_append]
    exact hcell c hc

/-- Nothing else matters. -/
theorem Faithful.other (h : Faithful o s) (vars : Env) (calls : Array Call)
    (pixels : Array (Cell × Hsv)) (steps : Nat) :
    Faithful o { s with vars := vars, calls := calls, pixels := pixels, steps := steps } :=
  ⟨⟨h.heading, h.penDown, h.color, h.plots⟩, h.cell⟩

theorem Faithful.turn (h : Faithful o s) (heading : Float) :
    Faithful o ({ s with heading := heading }.logged (.turn heading)) :=
  h.logged rfl rfl rfl rfl nofun h.cell

theorem Faithful.pen (h : Faithful o s) (down : Bool) :
    Faithful o ({ s with penDown := down }.logged (.pen down)) :=
  h.logged rfl rfl rfl rfl nofun h.cell

theorem Faithful.hsv (h : Faithful o s) (color : Hsv) :
    Faithful o ({ s with color := color }.logged (.hsv color)) :=
  h.logged rfl rfl rfl rfl nofun h.cell

theorem Recounted.move (h : Recounted o s) {cell : Cell} (hc : Cell.ofPoint s.x s.y = .ok cell) :
    Faithful o (s.logged (.move cell)) :=
  h.logged rfl rfl rfl rfl nofun fun _ hc' => hc.symm.trans hc'

theorem Faithful.plot (h : Faithful o s) (hdown : s.penDown = true) (cell : Cell) :
    Faithful o (s.logged (.plot cell s.color)) := by
  refine h.logged rfl rfl rfl rfl (fun c color hop => ?_) h.cell
  cases hop
  exact ⟨hdown, rfl⟩

end Logged

/-! ## Runs -/

section Runs

variable {o : Options} {s s' : RunState} {m m' m₀ : Machine} {past : List Machine} {r : RunResult}
  {program : List Instr}

theorem noted_eq_logged (hr : o.record = true) (s : RunState) (op : Operation) :
    s.noted o op = s.logged op := by
  rw [RunState.noted, hr]
  rfl

/-- **Every change keeps the log faithful.** -/
theorem Faithful.change (h : Faithful o s) (hr : o.record = true) (hchange : Change o s s') :
    Faithful o s' := by
  cases hchange with
  | tick => exact h.other _ _ _ _
  | @plot cell hdown _ _ =>
    have hpainted : Faithful o (s.painted o cell) := h.other _ _ _ _
    exact noted_eq_logged hr _ _ ▸ hpainted.plot hdown cell
  | @move x y cell _ _ hcell _ =>
    have htold : Recounted o ({ s with x := x, y := y }.told o cell) :=
      ⟨h.heading, h.penDown, h.color, h.plots⟩
    exact noted_eq_logged hr _ _ ▸ htold.move hcell
  | turn delta _ => exact (noted_eq_logged hr _ _ ▸ h.turn _).other _ _ _ _
  | pen down _ _ => exact (noted_eq_logged hr _ _ ▸ h.pen down).other _ _ _ _
  | penAstray down _ _ => exact noted_eq_logged hr _ _ ▸ h.pen down
  | color _ _ => exact noted_eq_logged hr _ _ ▸ h.hsv _
  | assign name _ => exact h.other _ _ _ _

/-- Setting up says nothing new about the turtle. -/
theorem faithful_of_start (h : Machine.start o program = .ok m₀) : Faithful o m₀.state := by
  obtain ⟨calls, hcalls⟩ := exists_calls_of_start h
  rw [hcalls]
  exact (faithful_start o).other _ _ _ _

/-- As long as the log was not full, it is faithful. -/
theorem Reaches.faithful (hr : o.record = true) (h : Reaches o m₀ past m)
    (hstart : Machine.start o program = .ok m₀)
    (hpast : ∀ x ∈ past, (x.step o).2.isOutputLimit = false) : Faithful o m.state :=
  h.invariant (fun _ _ hchange hs => hs.change hr hchange) hpast (faithful_of_start hstart)

/-- Only a run that has failed can have a log that is not faithful. -/
theorem Reaches.faithful_or_failed (hr : o.record = true) (h : Reaches o m₀ past m)
    (hstart : Machine.start o program = .ok m₀) : Faithful o m.state ∨ m.status = .failed := by
  by_cases hpast : ∀ x ∈ past, (x.step o).2.isOutputLimit = false
  · exact .inl (h.faithful hr hstart hpast)
  · obtain ⟨x, hx, hfull⟩ : ∃ x ∈ past, (x.step o).2.isOutputLimit = true := by simpa using hpast
    exact .inr (h.failed_of_fault hx (isFault_of_isOutputLimit hfull))

/-! ## Results -/

/-- The result can be told from its own log. -/
structure RunResult.Replays (o : Options) (r : RunResult) : Prop where
  final : o.cellAfter r.operations.toList = .ok r.final
  heading : r.heading = o.headingAfter r.operations.toList
  penDown : r.penDown = o.penAfter r.operations.toList
  color : r.color = o.colorAfter r.operations.toList
  plots : o.PlotsMatch r.operations.toList

theorem replays_of_result (h : Faithful o m.state) (hr : m.result = .ok r) : r.Replays o := by
  obtain ⟨cell, hcell, rfl⟩ := exists_cell_of_result hr
  exact ⟨h.cell cell hcell, h.heading, h.penDown, h.color, h.plots⟩

theorem replays_of_interpretAsync (hr : o.record = true) {signal : CancelSignal}
    (hout : (interpretAsync o signal program).run.HandsOut r) : r.Replays o := by
  obtain ⟨m₀, past, m, hstart, hreach, hres, -, hfull⟩ := exists_machine_of_gives hout.gives
  exact replays_of_result (hreach.faithful hr hstart (hfull hout)) hres

theorem replays_of_interpret (hr : o.record = true)
    (hout : (interpret o program).HandsOut r) : r.Replays o := by
  rw [← interpretAsync_never] at hout
  exact replays_of_interpretAsync hr hout

/-- What a host gets with a fault that stops one of its steps. -/
theorem replays_of_stepReplies (hr : o.record = true) (hstart : Machine.start o program = .ok m₀)
    {calls : List HostCall} {f : Fault} {line : Option Int} (hf : f ≠ .outputLimit)
    (hmem : .error (.runtime f line r) ∈ m₀.stepReplies o calls) : r.Replays o := by
  rcases Machine.exists_of_mem_stepReplies hmem with hu | ⟨past, last, m', a, hreach, hstep, hfail⟩
  · cases hu
  · obtain ⟨rfl, hres⟩ := result_of_failure hfail.symm
    rcases hreach.faithful_or_failed hr hstart with hlast | hfailed
    · have hchanges := (marks_step o last).changes
      rw [hstep] at hchanges
      rcases hchanges with hchanges | ⟨hfull, -⟩
      · exact replays_of_result
          (hchanges.invariant (fun _ _ hchange hs => hs.change hr hchange) hlast) hres
      · cases f with
        | outputLimit => exact absurd rfl hf
        | _ => cases hfull
    · rw [Machine.step_of_status_ne (by rw [hfailed]; nofun)] at hstep
      cases hstep

end Runs

/-- **Replaying the log reproduces the run.** At every moment of a run that is recorded, unless the
log was full before it, the cell, the heading, the pen and the color of its result are what the
latest entries of its log say, or as they were at the start, and each cell was drawn with the pen
down and in the color of the entries before it. This also holds of what the engines hand out at
their end, whenever their host cancels the run, and of what a host that makes one movement at a time
gets with a fault, unless the fault is that of a full log. -/
theorem result_replays {o : Options} (hr : o.record = true) (program : List Instr) :
    (∀ m₀ past m r, Machine.start o program = .ok m₀ → Reaches o m₀ past m →
      (∀ x ∈ past, (x.step o).2.isOutputLimit = false) → m.result = .ok r → r.Replays o) ∧
    (∀ r, (interpret o program).HandsOut r → r.Replays o) ∧
    (∀ signal r, (interpretAsync o signal program).run.HandsOut r → r.Replays o) ∧
    (∀ r, (interpretStepping o program).HandsOut r → r.Replays o) ∧
    (∀ m₀ calls f line r, Machine.start o program = .ok m₀ → f ≠ .outputLimit →
      .error (.runtime f line r) ∈ m₀.stepReplies o calls → r.Replays o) := by
  refine ⟨fun m₀ past m r hstart hreach hpast hres => ?_, fun r => replays_of_interpret hr,
    fun signal r => replays_of_interpretAsync hr, fun r hout => ?_,
    fun m₀ calls f line r hstart hf => replays_of_stepReplies hr hstart hf⟩
  · exact replays_of_result (hreach.faithful hr hstart hpast) hres
  · rw [interpretStepping_eq] at hout
    exact replays_of_interpret hr hout

/-- A pen that is lowered and a turn, told from the log. -/
theorem result_replays_turn :
    ∃ m₀ past m r,
      Machine.start {} [.pen .down none, .turn .right (.num 90) none] = .ok m₀ ∧
      Reaches {} m₀ past m ∧ m.result = .ok r ∧
      r.operations.toList = [.pen true, .turn 90] ∧ r.Replays {} := by
  have hrun : (match Machine.start {} [.pen .down none, .turn .right (.num 90) none] with
      | .error _ => false
      | .ok m =>
        match (m.after {} 2).result with
        | .error _ => false
        | .ok r => !(m.step {}).2.isOutputLimit && !((m.after {} 1).step {}).2.isOutputLimit &&
            r.operations.toList == [.pen true, .turn 90]) = true := by
    decide +kernel
  split at hrun
  · cases hrun
  · rename_i m hstart
    split at hrun
    · cases hrun
    · rename_i r hres
      simp only [Bool.and_eq_true, Bool.not_eq_true', beq_iff_eq] at hrun
      obtain ⟨⟨hfst, hsnd⟩, hops⟩ := hrun
      have hreach : Reaches {} m [m, m.after {} 1] (m.after {} 2) := .step (.step .start)
      have hpast : ∀ x ∈ [m, m.after {} 1], (x.step {}).2.isOutputLimit = false :=
        List.forall_mem_cons.2 ⟨hfst, List.forall_mem_singleton.2 hsnd⟩
      exact ⟨m, _, _, r, hstart, hreach, hres, hops,
        (result_replays rfl _).1 m _ _ r hstart hreach hpast hres⟩

end PixelTurtle
