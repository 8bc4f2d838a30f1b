import PixelTurtle.Proofs.Entries
import PixelTurtle.Proofs.LineCells
import PixelTurtle.Proofs.Replay

/-!
# The trail of the turtle

The turtle carries a position that is not rounded from one movement to the next, and each line is
drawn between the cells of its ends. The cell at the end of one movement is that at the beginning of
the next, so that the lines join, and the log tells a trail without gaps.

* `Options.trailEnd` is the cell that a reader of the log has come to.
* `Options.Connected` says that the entries tell a trail without gaps, and `Trailing` is the
  invariant of a run: the reader has come to where the turtle is.
* `trail_connected` is the theorem for all runs and all movements.
-/

namespace PixelTurtle

/-! ## Reading the log -/

/-- The cell that an entry names. -/
def Operation.place? : Operation → Option Cell
  | .plot cell _ => some cell
  | .move cell => some cell
  | _ => none

namespace Options

/-- The cell that a reader of some entries has come to, who follows the plots as well as the moves.
The first one is that of the start, if there is one. -/
def trailEnd (o : Options) (ops : List Operation) : Except Number.NoInteger Cell :=
  (latest Operation.place? ops).elim (Cell.ofPoint o.startX o.startY) .ok

/-- The entries tell a trail without gaps. -/
structure Connected (o : Options) (ops : List Operation) : Prop where
  /-- From the cell that a reader has come to, it is one step to the cell that is plotted. -/
  plots : ∀ before cell color after, ops = before ++ .plot cell color :: after →
    ∃ last, o.trailEnd before = .ok last ∧
      max (cell.x - last.x).natAbs (cell.y - last.y).natAbs = 1
  /-- The turtle arrives in the cell that was plotted last. -/
  moves : ∀ before cell color arrival after,
    ops = before ++ .plot cell color :: .move arrival :: after → arrival = cell

/-- The entries tell a trail without gaps, and that the turtle has arrived at its end. -/
structure Trailing (o : Options) (ops : List Operation) : Prop extends o.Connected ops where
  arrived : ∀ before cell color, ops ≠ before ++ [.plot cell color]

variable {o : Options} {ops ops' : List Operation} {op : Operation}

theorem trailEnd_append (o : Options) (ops : List Operation) (op : Operation) :
    o.trailEnd (ops ++ [op]) = op.place?.elim (o.trailEnd ops) .ok := by
  rw [trailEnd, latest_append]
  cases op.place? <;> rfl

/-- One more entry is no gap, if it is not further than one step away, or where it has to be. -/
theorem Connected.append (h : o.Connected ops)
    (hplot : ∀ cell color, op = .plot cell color →
      ∃ last, o.trailEnd ops = .ok last ∧ stepsBetween last cell = 1)
    (hmove : ∀ before cell color arrival, ops = before ++ [.plot cell color] →
      op = .move arrival → arrival = cell) : o.Connected (ops ++ [op]) where
  plots before cell color after heq := by
    rcases List.eq_nil_or_concat after with rfl | ⟨after, last, rfl⟩
    · obtain ⟨rfl, hop⟩ := List.append_inj' heq rfl
      exact hplot cell color (List.head_eq_of_cons_eq hop)
    · rw [List.concat_eq_append, ← List.cons_append, ← List.append_assoc] at heq
      exact h.plots before cell color after (List.append_inj' heq rfl).1
  moves before cell color arrival after heq := by
    rcases List.eq_nil_or_concat after with rfl | ⟨after, last, rfl⟩
    · rw [List.append_cons before] at heq
      obtain ⟨hops, hop⟩ := List.append_inj' heq rfl
      exact hmove before cell color arrival hops (List.head_eq_of_cons_eq hop)
    · rw [List.concat_eq_append, ← List.cons_append, ← List.cons_append, ← List.append_assoc]
        at heq
      exact h.moves before cell color arrival after (List.append_inj' heq rfl).1

/-- The beginning of a trail is a trail. -/
theorem Connected.of_prefix (h : o.Connected ops) (hops : ops' <+: ops) : o.Connected ops' := by
  obtain ⟨rest, rfl⟩ := hops
  constructor
  · rintro before cell color after rfl
    exact h.plots before cell color (after ++ rest) (List.append_assoc ..)
  · rintro before cell color arrival after rfl
    exact h.moves before cell color arrival (after ++ rest) (List.append_assoc ..)

/-- Entries that name no cell do not lead anywhere. -/
theorem Trailing.append_nowhere (h : o.Trailing ops) (hnowhere : ∀ op ∈ ops', op.place? = none) :
    o.Trailing (ops ++ ops') ∧ o.trailEnd (ops ++ ops') = o.trailEnd ops := by
  induction ops' generalizing ops with
  | nil =>
    rw [List.append_nil]
    exact ⟨h, rfl⟩
  | cons op ops' ih =>
    obtain ⟨hop, hops'⟩ := List.forall_mem_cons.1 hnowhere
    have hnext : o.Trailing (ops ++ [op]) := by
      refine ⟨h.toConnected.append ?_ ?_, ?_⟩
      · rintro cell color rfl
        cases hop
      · rintro before cell color arrival - rfl
        cases hop
      · intro before cell color heq
        obtain rfl := List.head_eq_of_cons_eq (List.append_inj' heq rfl).2
        cases hop
    rw [← List.singleton_append, ← List.append_assoc]
    obtain ⟨htrailing, hend⟩ := ih hnext hops'
    exact ⟨htrailing, by rw [hend, trailEnd_append, hop, Option.elim_none]⟩

/-- The plots of cells each of which is one step from the one before lead to the last of them. -/
theorem Connected.append_plots {a : Cell} {cells : List Cell} (h : o.Connected ops)
    (hend : o.trailEnd ops = .ok a) (color : Hsv)
    (hcells : (a :: cells).IsChain fun c d => stepsBetween c d = 1) :
    o.Connected (ops ++ cells.map (.plot · color)) := by
  induction cells generalizing ops a with
  | nil =>
    rw [List.map_nil, List.append_nil]
    exact h
  | cons cell cells ih =>
    obtain ⟨hstep, hrest⟩ := List.isChain_cons_cons.1 hcells
    have hnext : o.Connected (ops ++ [.plot cell color]) := by
      refine h.append ?_ nofun
      rintro _ _ ⟨⟩
      exact ⟨a, hend, hstep⟩
    rw [List.map_cons, ← List.singleton_append, ← List.append_assoc]
    exact ih hnext (o.trailEnd_append ops _) hrest

/-- Without a width and a height, every cell of a line is plotted. -/
theorem plots_of_unbounded (hr : o.record = true) (hwidth : o.width = none)
    (hheight : o.height = none) (color : Hsv) (cells : List Cell) :
    o.plots color cells = cells.map (.plot · color) := by
  have hin : ∀ cell ∈ cells, o.inBounds cell = true := by
    intro cell _
    rw [inBounds, hwidth, hheight]
    rfl
  rw [plots, if_pos hr, List.filter_eq_self.2 hin]

end Options

/-! ## The trail and the turtle -/

/-- The log tells a trail without gaps, and the turtle is at its end. -/
structure Trails (o : Options) (s : RunState) : Prop extends o.Trailing s.log.toList where
  cell : ∀ c, Cell.ofPoint s.x s.y = .ok c → o.trailEnd s.log.toList = .ok c

section States

variable {o : Options} {s s' : RunState} {i : Instr} {a : Abort}

theorem Operation.place?_of_isAside {op : Operation} (h : op.isAside = true) :
    op.place? = none := by
  cases op with
  | pen down => rfl
  | hsv color => rfl
  | _ => cases h

theorem Trails.nowhere {ops : List Operation} (h : Trails o s) (hx : s'.x = s.x) (hy : s'.y = s.y)
    (hlog : s'.log.toList = s.log.toList ++ ops) (hnowhere : ∀ op ∈ ops, op.place? = none) :
    Trails o s' := by
  obtain ⟨htrailing, hend⟩ := h.toTrailing.append_nowhere hnowhere
  rw [← hlog] at htrailing hend
  refine ⟨htrailing, fun c hc => ?_⟩
  rw [hx, hy] at hc
  exact hend.trans (h.cell c hc)

theorem Trails.aside (h : Trails o s) (haside : s.Aside s') : Trails o s' := by
  obtain ⟨ops, hops, hlog⟩ := haside.log
  exact h.nowhere haside.x haside.y hlog fun op hop => Operation.place?_of_isAside (hops op hop)

section Unbounded

variable (hr : o.record = true) (hwidth : o.width = none) (hheight : o.height = none)

include hr hwidth hheight

/-- The plots of a line go on from where the turtle is. -/
theorem Trails.line {x y : Float} {path : List Cell} (h : Trails o s) (hline : s.LineTo x y path) :
    o.Connected (s.log.toList ++ o.plots s.color path) := by
  obtain ⟨a, b, ha, -, rfl⟩ := hline
  rw [Options.plots_of_unbounded hr hwidth hheight]
  exact h.toConnected.append_plots (h.cell a ha) s.color (isChain_cellsBetween a b)

/-- A line ends in the cell in which the turtle arrives. -/
theorem Trails.plot_eq {x y : Float} {path : List Cell} {cell c : Cell} {color : Hsv}
    {before : List Operation} (h : Trails o s) (hline : s.LineTo x y path)
    (hcell : Cell.ofPoint x y = .ok cell)
    (hops : s.log.toList ++ o.plots s.color path = before ++ [.plot c color]) : cell = c := by
  obtain ⟨a, b, -, hb, rfl⟩ := hline
  obtain rfl := Except.ok.inj (hb.symm.trans hcell)
  have hlast := getLast?_cellsBetween a b
  rw [cellsBetween_eq_cons] at hlast
  rw [Options.plots_of_unbounded hr hwidth hheight] at hops
  rcases List.eq_nil_or_concat (cellsBetween a b).tail with hnil | ⟨init, last, hconcat⟩
  · rw [hnil, List.map_nil, List.append_nil] at hops
    exact absurd hops (h.arrived before c color)
  · rw [hconcat, List.concat_eq_append] at hops hlast
    rw [List.map_append, List.map_singleton, ← List.append_assoc] at hops
    rw [← List.cons_append, List.getLast?_concat] at hlast
    have heq := List.head_eq_of_cons_eq (List.append_inj' hops rfl).2
    cases heq
    exact (Option.some.inj hlast).symm

theorem Trails.movedBy (h : Trails o s) (hmoved : MovedBy o s i s') : Trails o s' := by
  cases hmoved with
  | @move way e line path cell _ hpath hcell hlog =>
    have hplots : o.Connected (s.log.toList ++ o.plots s.color path) ∧
        ∀ before c color, s.log.toList ++ o.plots s.color path = before ++ [.plot c color] →
          cell = c := by
      split_ifs at hpath
      · exact ⟨h.line hr hwidth hheight hpath, fun _ _ _ => h.plot_eq hr hwidth hheight hpath hcell⟩
      · rw [hpath, Options.plots_of_unbounded hr hwidth hheight, List.map_nil, List.append_nil]
        exact ⟨h.toConnected, fun before c color heq => absurd heq (h.arrived before c color)⟩
    refine ⟨⟨?_, fun before c color heq => ?_⟩, fun c hc => ?_⟩
    · rw [hlog]
      refine hplots.1.append nofun ?_
      rintro before c color _ hops ⟨⟩
      exact hplots.2 before c color hops
    · rw [hlog] at heq
      cases List.head_eq_of_cons_eq (List.append_inj' heq rfl).2
    · rw [hlog, Options.trailEnd_append, ← hc, hcell]
      rfl
  | turn hx hy hlog => exact h.nowhere hx hy hlog (List.forall_mem_singleton.2 rfl)

/-- Whatever stops an instruction, the trail has no gap. Unless it is a fault, the turtle is at the
end of the trail. -/
theorem Trails.stoppedAt (h : Trails o s) (hstop : StoppedAt o s a s') :
    o.Connected s'.log.toList ∧ ((Event.aborted a).isFault = true ∨ Trails o s') := by
  cases hstop with
  | aside haside => exact ⟨(h.aside haside).toConnected, .inr (h.aside haside)⟩
  | @line f line x y path before _ hline hbefore hlog =>
    have hwhole := h.line hr hwidth hheight hline
    obtain ⟨rest, rfl⟩ := hbefore
    rw [RunState.plots_append, ← List.append_assoc, ← hlog] at hwhole
    exact ⟨hwhole.of_prefix (List.prefix_append _ _), .inl rfl⟩
  | arrived hlog =>
    rw [hlog]
    exact ⟨h.toConnected, .inl rfl⟩

theorem trails_step {m : Machine} (h : Trails o m.state) :
    o.Connected (m.step o).1.state.log.toList ∧
      ((m.step o).1.status = .failed ∨ Trails o (m.step o).1.state) := by
  have hlogs := logs_step hr m
  have hfailed := (marks_step o m).failed
  generalize m.step o = r at hlogs hfailed
  obtain ⟨m', ev⟩ := r
  cases ev with
  | moved =>
    obtain ⟨i, -, hmoved⟩ := hlogs
    have := h.movedBy hr hwidth hheight hmoved
    exact ⟨this.toConnected, .inr this⟩
  | aborted a =>
    obtain ⟨hconnected, htrails⟩ := h.stoppedAt hr hwidth hheight hlogs
    exact ⟨hconnected, htrails.imp_left hfailed⟩
  | _ => exact ⟨(h.aside hlogs).toConnected, .inr (h.aside hlogs)⟩

/-- **Wherever a host arrives, the trail has no gap.** -/
theorem Reaches.connected {m m₀ : Machine} {past : List Machine} (h : Reaches o m₀ past m)
    (h₀ : Trails o m₀.state) :
    o.Connected m.state.log.toList ∧ (m.status = .failed ∨ Trails o m.state) := by
  induction h with
  | start => exact ⟨h₀.toConnected, .inr h₀⟩
  | @step past m _ ih =>
    rcases ih.2 with hfailed | htrails
    · rw [Machine.step_of_status_ne (by rw [hfailed]; nofun)]
      exact ih
    · exact trails_step hr hwidth hheight htrails
  | @cancel past m _ ih =>
    rw [Machine.cancel_state]
    refine ⟨ih.1, ih.2.imp_left fun hfailed => ?_⟩
    rw [Machine.cancel_of_status_ne (by rw [hfailed]; nofun)]
    exact hfailed

end Unbounded

theorem trails_of_start {m₀ : Machine} {program : List Instr}
    (h : Machine.start o program = .ok m₀) : Trails o m₀.state := by
  obtain ⟨calls, hcalls⟩ := exists_calls_of_start h
  rw [hcalls]
  refine ⟨⟨⟨?_, ?_⟩, ?_⟩, fun c hc => hc⟩
  · intro before cell color after heq
    cases before <;> cases heq
  · intro before cell color arrival after heq
    cases before <;> cases heq
  · intro before cell color heq
    cases before <;> cases heq

/-- The state `s'` is that after a line: the cells from that of the turtle to the one in which it
arrives were logged, as many as there are steps between the two, and the arrival after them. -/
def RunState.LogsLine (s s' : RunState) : Prop :=
  ∃ a b cells, Cell.ofPoint s.x s.y = .ok a ∧ Cell.ofPoint s'.x s'.y = .ok b ∧
    a :: cells = cellsBetween a b ∧
    cells.length = max (b.x - a.x).natAbs (b.y - a.y).natAbs ∧
    s'.log.toList = s.log.toList ++ cells.map (.plot · s.color) ++ [.move b]

end States

section Runs

variable {o : Options} {program : List Instr} {r : RunResult}

theorem connected_of_interpretAsync (hr : o.record = true) (hwidth : o.width = none)
    (hheight : o.height = none) {signal : CancelSignal}
    (h : (interpretAsync o signal program).run.Gives r) : o.Connected r.operations.toList := by
  obtain ⟨m₀, past, m, hstart, hreach, hres, -⟩ := exists_machine_of_gives h
  obtain ⟨cell, -, rfl⟩ := exists_cell_of_result hres
  exact (hreach.connected hr hwidth hheight (trails_of_start hstart)).1

theorem logsLine_of_moved (hr : o.record = true) (hwidth : o.width = none)
    (hheight : o.height = none) {m m' : Machine} {way : Way} {e : Expr} {line : Option Int}
    (hnext : m.next? = some (.move way e line)) (hdown : m.state.penDown = true)
    (hstep : m.step o = (m', .moved)) : m.state.LogsLine m'.state := by
  have hlogs := logs_step hr m
  rw [hstep] at hlogs
  obtain ⟨i, hi, hmoved⟩ := hlogs
  cases hi.symm.trans hnext
  cases hmoved with
  | @move _ _ _ path cell _ hpath hcell hlog =>
    rw [if_pos hdown] at hpath
    obtain ⟨a, b, ha, hb, rfl⟩ := hpath
    obtain rfl := Except.ok.inj (hb.symm.trans hcell)
    rw [Options.plots_of_unbounded hr hwidth hheight] at hlog
    exact ⟨a, b, _, ha, hb, (cellsBetween_eq_cons a b).symm, length_tail_cellsBetween a b, hlog⟩

end Runs

/-- **The trail is connected.** A run that is recorded and draws without bounds logs a trail without
gaps, wherever a host arrives, however the run ends and whatever it is that hands out the log: from
the cell that a reader of the log has come to, it is one step to each cell that is plotted, and a
movement arrives in the cell that it plotted last. A movement with the pen down logs as many cells as
there are steps from the cell of the turtle to the one in which it arrives. -/
theorem trail_connected {o : Options} (hr : o.record = true) (hwidth : o.width = none)
    (hheight : o.height = none) (program : List Instr) :
    (∀ m₀ past m, Machine.start o program = .ok m₀ → Reaches o m₀ past m →
      o.Connected m.state.log.toList) ∧
    (∀ r, (interpret o program).Gives r → o.Connected r.operations.toList) ∧
    (∀ signal r, (interpretAsync o signal program).run.Gives r →
      o.Connected r.operations.toList) ∧
    (∀ r, (interpretStepping o program).Gives r → o.Connected r.operations.toList) ∧
    (∀ (m m' : Machine) way e line, m.next? = some (.move way e line) → m.state.penDown = true →
      m.step o = (m', .moved) → m.state.LogsLine m'.state) := by
  have honce (r : RunResult) (h : (interpret o program).Gives r) :
      o.Connected r.operations.toList := by
    rw [← interpretAsync_never] at h
    exact connected_of_interpretAsync hr hwidth hheight h
  refine ⟨fun m₀ past m hstart hreach => ?_, honce, fun signal r => ?_, ?_,
    fun m m' way e line => logsLine_of_moved hr hwidth hheight⟩
  · exact (hreach.connected hr hwidth hheight (trails_of_start hstart)).1
  · exact connected_of_interpretAsync hr hwidth hheight
  · rw [interpretStepping_eq]
    exact honce

/-- A turtle that starts between two cells lowers its pen, turns, and is cancelled. -/
theorem trail_connected_turn :
    ∃ m₀ past m, Machine.start { startX := 0.75 } [.pen .down none, .turn .right (.num 90) none] =
        .ok m₀ ∧
      Reaches { startX := 0.75 } m₀ past m ∧ m.status = .failed ∧
      m.state.log.toList = [.pen true, .turn 90] ∧
      Options.Connected { startX := 0.75 } m.state.log.toList := by
  let o : Options := { startX := 0.75 }
  let program : List Instr := [.pen .down none, .turn .right (.num 90) none]
  let m₀ : Machine := ⟨program, [], .start o, .running⟩
  have hstart : Machine.start o program = .ok m₀ := rfl
  have hlog : (m₀.after o 2).cancel.state.log.toList = [.pen true, .turn 90] := by
    decide +kernel
  have hstatus : (m₀.after o 2).cancel.status = .failed := by
    decide +kernel
  have hreach : Reaches o m₀ [m₀, m₀.after o 1] (m₀.after o 2).cancel :=
    .cancel (.step (.step .start))
  exact ⟨m₀, _, _, hstart, hreach, hstatus, hlog,
    (trail_connected rfl rfl rfl program).1 m₀ _ _ hstart hreach⟩

end PixelTurtle
