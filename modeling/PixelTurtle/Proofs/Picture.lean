import PixelTurtle.Canvas.PixelGrid
import PixelTurtle.Proofs.Replay

/-!
# The picture and the log

A run that is logged and drawn on a grid tells the same story twice. The grid hears of a pixel by a
call and the log by an entry, which are made at different moments, but every change of the state
makes both.

* `PixelGrid.Shows` says that a grid shows what a log says, over what was there before.
* `PixelGrid.Shows.change` keeps it through a change.
* `PixelGrid.Depicts` says of a grid that it depicts a result, and `grid_depicts_result` that every
  grid that was drawn on does.
-/

namespace PixelTurtle

/-! ## Grids -/

instance : Std.TransCmp Cell.order :=
  inferInstanceAs (Std.TransCmp (compareLex (compareOn Cell.x) (compareOn Cell.y)))

/-- A cell comes before another if its column does, or its row within the same column. -/
def Cell.Before (a b : Cell) : Prop :=
  a.x < b.x ∨ a.x = b.x ∧ a.y < b.y

theorem Cell.order_eq_lt {a b : Cell} : Cell.order a b = .lt ↔ a.Before b := by
  rw [Cell.order, compareLex, Ordering.then_eq_lt, compareOn, compareOn, Int.compare_eq_lt,
    Int.compare_eq_eq, Int.compare_eq_lt, Cell.Before]

theorem Cell.order_eq_eq {a b : Cell} : Cell.order a b = .eq ↔ a = b := by
  obtain ⟨ax, ay⟩ := a
  obtain ⟨bx, bY⟩ := b
  rw [Cell.order, compareLex, Ordering.then_eq_eq, compareOn, compareOn, Int.compare_eq_eq,
    Int.compare_eq_eq, Cell.mk.injEq]

instance : Std.LawfulEqCmp Cell.order where
  compare_self := Cell.order_eq_eq.2 rfl
  eq_of_compare := Cell.order_eq_eq.1

namespace PixelGrid

variable (g : PixelGrid)

theorem receiveAll_push (calls : Array Call) (c : Call) :
    g.receiveAll (calls.push c) = (g.receiveAll calls).receive c :=
  Array.foldl_push

/-- Of the colors that a cell is drawn in, the last one stays. -/
theorem pixel?_drawPixel (cell a : Cell) (color : Hsv) :
    (g.receive (.drawPixel cell color)).pixel? a =
      if cell = a then some color else g.pixel? a := by
  show (g.painted.insert cell color)[a]? = _
  rw [Std.TreeMap.getElem?_insert]
  simp only [Cell.order_eq_eq]
  rfl

theorem pixel?_clearPixels (a : Cell) : (g.receive .clearPixels).pixel? a = none :=
  Std.TreeMap.getElem?_emptyc

/-- A document lists the painted cells in their order, and each of them once. -/
structure Lists (pixels : List (Cell × Hsv)) : Prop where
  json : g.toJson.get? "pixels" =
    some (.arr (pixels.map fun (cell, color) => pixelJson cell color))
  ordered : pixels.Pairwise fun p q => p.1.Before q.1
  mem : ∀ cell color, (cell, color) ∈ pixels ↔ g.pixel? cell = some color

theorem lists_toList : g.Lists g.painted.toList where
  json := rfl
  ordered := Std.TreeMap.ordered_keys_toList.imp Cell.order_eq_lt.1
  mem _ _ := Std.TreeMap.mem_toList_iff_getElem?_eq_some

end PixelGrid

/-! ## What a grid hears of a run -/

/-- The color in which an entry plots a cell, if it does. -/
def Operation.plotAt (cell : Cell) : Operation → Option Hsv
  | .plot c color => if c = cell then some color else none
  | _ => none

/-- Each pixel of the grid is as the latest entry for its cell says, or as it was before. -/
def PixelGrid.Matches (g : PixelGrid) (under : Cell → Option Hsv) (ops : List Operation) : Prop :=
  ∀ cell, g.pixel? cell = (latest (Operation.plotAt cell) ops).or (under cell)

namespace PixelGrid.Matches

variable {g : PixelGrid} {under : Cell → Option Hsv} {ops : List Operation}

/-- An entry that plots nothing needs no pixel. -/
theorem append_of_none (h : g.Matches under ops) {op : Operation}
    (hop : ∀ cell, op.plotAt cell = none) : g.Matches under (ops ++ [op]) := by
  intro cell
  rw [latest_append, hop, Option.none_or, h cell]

theorem append_plot (h : g.Matches under ops) (cell : Cell) (color : Hsv) :
    (g.receive (.drawPixel cell color)).Matches under (ops ++ [.plot cell color]) := by
  intro a
  rw [latest_append, pixel?_drawPixel, h a, Operation.plotAt]
  split_ifs
  · rfl
  · rfl

end PixelGrid.Matches

/-- The grid shows what the log says, and the turtle. -/
structure PixelGrid.Shows (g : PixelGrid) (under : Cell → Option Hsv) (s : RunState) : Prop where
  pixels : g.Matches under s.log.toList
  pen : Cell.ofPoint s.x s.y = .ok g.pen
  penDown : g.penDown = s.penDown
  heading : g.heading = wrapHue s.heading

section Hearing

variable {o : Options} {g : PixelGrid} {under : Cell → Option Hsv} {s s' : RunState}

theorem log_noted (hr : o.record = true) (op : Operation) :
    (s.noted o op).log.toList = s.log.toList ++ [op] := by
  rw [RunState.noted, hr, if_pos rfl, Array.toList_push]

theorem takes_full (h : o.renderer = some .full) (c : Call) : o.takes c = true := by
  rw [Options.takes, h]
  cases c with
  | _ => rfl

theorem receiveAll_heard (h : o.renderer = some .full) (c : Call) :
    g.receiveAll (s.heard o c).calls = (g.receiveAll s.calls).receive c := by
  rw [RunState.heard, takes_full h, if_pos rfl, PixelGrid.receiveAll_push]

theorem receiveAll_told (h : o.renderer = some .full) (cell : Cell) :
    g.receiveAll (s.told o cell).calls = { g.receiveAll s.calls with
      pen := cell, penDown := s.penDown, heading := wrapHue s.heading } := by
  rw [RunState.told, receiveAll_heard h, receiveAll_heard h, receiveAll_heard h]
  cases s.penDown with
  | true => rfl
  | false => rfl

/-- A renderer that is told about the turtle is told all that it shows of it. -/
theorem shows_told (h : o.renderer = some .full) {cell : Cell}
    (hcell : Cell.ofPoint s.x s.y = .ok cell)
    (hpixels : (g.receiveAll s.calls).Matches under s.log.toList) :
    (g.receiveAll (s.told o cell).calls).Shows under (s.told o cell) := by
  rw [receiveAll_told h]
  exact ⟨hpixels, hcell, rfl, rfl⟩

/-- The grid shows what the log says, with one more entry that plots nothing. -/
theorem matches_noted (hr : o.record = true) {op : Operation} (hop : ∀ a, op.plotAt a = none)
    (hpixels : (g.receiveAll s.calls).Matches under s.log.toList) :
    (g.receiveAll (s.noted o op).calls).Matches under (s.noted o op).log.toList := by
  rw [log_noted hr]
  exact hpixels.append_of_none hop

/-- **Every change shows on a grid what it logs.** -/
theorem PixelGrid.Shows.change (hs : (g.receiveAll s.calls).Shows under s)
    (hr : o.record = true) (h : o.renderer = some .full) (hchange : Change o s s') :
    (g.receiveAll s'.calls).Shows under s' := by
  have hquiet (op : Operation) (hop : ∀ a, op.plotAt a = none) :=
    matches_noted hr hop hs.pixels
  cases hchange with
  | tick => exact ⟨hs.pixels, hs.pen, hs.penDown, hs.heading⟩
  | @plot cell _ _ _ =>
    have hcalls : g.receiveAll ((s.painted o cell).noted o (.plot cell s.color)).calls =
        (g.receiveAll s.calls).receive (.drawPixel cell s.color) :=
      receiveAll_heard h _
    rw [hcalls]
    refine ⟨?_, hs.pen, hs.penDown, hs.heading⟩
    rw [log_noted hr]
    exact hs.pixels.append_plot cell s.color
  | @move x y cell _ _ hcell _ =>
    have htold := shows_told (s := { s with x := x, y := y }) h hcell hs.pixels
    exact ⟨matches_noted hr (fun _ => rfl) htold.pixels, htold.pen, htold.penDown, htold.heading⟩
  | turn delta _ =>
    rw [receiveAll_heard h]
    exact ⟨hquiet _ fun _ => rfl, hs.pen, hs.penDown, rfl⟩
  | pen down hcell _ => exact shows_told h hcell (hquiet _ fun _ => rfl)
  -- a renderer has been told about the turtle before, so that it has a cell
  | penAstray down hastray _ => cases hastray.symm.trans hs.pen
  | color _ _ => exact ⟨hquiet _ fun _ => rfl, hs.pen, hs.penDown, hs.heading⟩
  | assign name _ => exact ⟨hs.pixels, hs.pen, hs.penDown, hs.heading⟩

end Hearing

/-! ## Runs -/

/-- The picture that a run draws over. -/
def PixelGrid.under (g : PixelGrid) (o : Options) (cell : Cell) : Option Hsv :=
  if o.clear then none else g.pixel? cell

/-- The grid depicts the result of a run that was drawn on the grid `before`. -/
structure PixelGrid.Depicts (g : PixelGrid) (o : Options) (before : PixelGrid) (r : RunResult) :
    Prop where
  pixels : g.Matches (before.under o) r.operations.toList
  pen : g.pen = r.final
  penDown : g.penDown = r.penDown
  heading : g.heading = wrapHue r.heading
  listed : ∃ pixels, g.Lists pixels

section Runs

variable {o : Options} {g : PixelGrid} {m m₀ : Machine} {past : List Machine} {r : RunResult}
  {program : List Instr}

theorem matches_cleared (h : o.renderer = some .full) :
    (g.receiveAll (RunState.cleared o).calls).Matches (g.under o)
      (RunState.cleared o).log.toList := by
  intro cell
  unfold RunState.cleared PixelGrid.under
  split_ifs
  · rw [receiveAll_heard h]
    exact g.pixel?_clearPixels cell
  · rfl

/-- A renderer that was told where the turtle starts shows an empty log. -/
theorem shows_start (h : o.renderer = some .full) (hstart : Machine.start o program = .ok m₀) :
    (g.receiveAll m₀.state.calls).Shows (g.under o) m₀.state := by
  cases hcell : Cell.ofPoint o.startX o.startY with
  | error reason =>
    rw [start_of_astray hcell, h] at hstart
    cases hstart
  | ok cell =>
    rw [start_of_cell hcell] at hstart
    cases hstart
    obtain ⟨calls, hcalls⟩ := cleared_eq o
    refine shows_told h ?_ (matches_cleared h)
    rw [hcalls]
    exact hcell

theorem depicts_of_shows (hs : (g.receiveAll m.state.calls).Shows (g.under o) m.state)
    (hr : m.result = .ok r) : (g.receiveAll m.state.calls).Depicts o g r := by
  rw [result_of_cell hs.pen] at hr
  cases hr
  exact ⟨hs.pixels, rfl, hs.penDown, hs.heading, _, PixelGrid.lists_toList _⟩

theorem Reaches.depicts (hr : o.record = true) (h : o.renderer = some .full)
    (hstart : Machine.start o program = .ok m₀) (hreach : Reaches o m₀ past m)
    (hpast : ∀ x ∈ past, (x.step o).2.isOutputLimit = false) (hres : m.result = .ok r) :
    (g.receiveAll m.state.calls).Depicts o g r := by
  refine depicts_of_shows ?_ hres
  exact hreach.invariant (I := fun s => (g.receiveAll s.calls).Shows (g.under o) s)
    (fun _ _ hchange hs => hs.change hr h hchange) hpast (shows_start h hstart)

theorem depicts_of_interpretAsync (hr : o.record = true) (h : o.renderer = some .full)
    {signal : CancelSignal} (hout : (interpretAsync o signal program).run.HandsOut r) :
    (g.receiveAll (interpretAsync o signal program).run.state.calls).Depicts o g r := by
  obtain ⟨m₀, past, m, hstart, hreach, hres, hstate, hpast⟩ := exists_machine_of_gives hout.gives
  rw [← hstate]
  exact hreach.depicts hr h hstart (hpast hout) hres

end Runs

/-- **A grid and a log tell the same story.** At every moment of a run that is recorded and drawn on
a grid, unless the log was full before it, each pixel of the grid has the color of the latest entry
of the log that plots it, or is as it was before the run, and not painted if the grid was cleared.
The pen of the grid and its heading are those of the result, and a document of the grid lists the
pixels by column and row, each of them once. This also holds when an engine has handed out its
result, whenever its host cancels the run. -/
theorem grid_depicts_result {o : Options} (hr : o.record = true) (h : o.renderer = some .full)
    (program : List Instr) (g : PixelGrid) :
    (∀ m₀ past m r, Machine.start o program = .ok m₀ → Reaches o m₀ past m →
      (∀ x ∈ past, (x.step o).2.isOutputLimit = false) → m.result = .ok r →
      (g.receiveAll m.state.calls).Depicts o g r) ∧
    (∀ r, (interpret o program).HandsOut r →
      (g.receiveAll (interpret o program).state.calls).Depicts o g r) ∧
    (∀ signal r, (interpretAsync o signal program).run.HandsOut r →
      (g.receiveAll (interpretAsync o signal program).run.state.calls).Depicts o g r) ∧
    (∀ r, (interpretStepping o program).HandsOut r →
      (g.receiveAll (interpretStepping o program).state.calls).Depicts o g r) := by
  have honce (r : RunResult) (hout : (interpret o program).HandsOut r) :
      (g.receiveAll (interpret o program).state.calls).Depicts o g r := by
    rw [← interpretAsync_never] at hout ⊢
    exact depicts_of_interpretAsync hr h hout
  refine ⟨fun m₀ past m r hstart hreach hpast hres => ?_, honce, fun signal r hout => ?_, ?_⟩
  · exact hreach.depicts hr h hstart hpast hres
  · exact depicts_of_interpretAsync hr h hout
  · rw [interpretStepping_eq]
    exact honce

/-- A pen that is lowered and a turn, drawn on a grid with a cell that the pen does not touch. -/
theorem grid_depicts_turn :
    ∃ (o : Options) (g : PixelGrid) (m₀ m : Machine) (past : List Machine) (r : RunResult),
      o.record = true ∧ o.renderer = some .full ∧
      Machine.start o [.pen .down none, .turn .right (.num 90) none] = .ok m₀ ∧
      Reaches o m₀ past m ∧ (∀ x ∈ past, (x.step o).2.isOutputLimit = false) ∧
      m.result = .ok r ∧ r.operations.toList = [.pen true, .turn 90] ∧
      g.pixel? ⟨1, 2⟩ = some {} ∧ (g.receiveAll m.state.calls).Depicts o g r := by
  let o : Options := { renderer := some .full }
  let g : PixelGrid := ({} : PixelGrid).receive (.drawPixel ⟨1, 2⟩ {})
  have hrun : (Machine.start o [.pen .down none, .turn .right (.num 90) none]).toOption.any
      fun m => (m.after o 2).result.toOption.any fun r =>
        !(m.step o).2.isOutputLimit && !((m.after o 1).step o).2.isOutputLimit &&
          r.operations.toList == [.pen true, .turn 90] := by
    decide +kernel
  obtain ⟨m, hstart, hrun⟩ := exists_of_any_toOption hrun
  obtain ⟨r, hres, hrun⟩ := exists_of_any_toOption hrun
  simp only [Bool.and_eq_true, Bool.not_eq_true', beq_iff_eq] at hrun
  obtain ⟨⟨hfst, hsnd⟩, hops⟩ := hrun
  have hreach : Reaches o m [m, m.after o 1] (m.after o 2) := .step (.step .start)
  have hpast : ∀ x ∈ [m, m.after o 1], (x.step o).2.isOutputLimit = false :=
    List.forall_mem_cons.2 ⟨hfst, List.forall_mem_singleton.2 hsnd⟩
  have hkept : g.pixel? ⟨1, 2⟩ = some {} := by
    rw [PixelGrid.pixel?_drawPixel, if_pos rfl]
  exact ⟨o, g, m, _, _, r, rfl, rfl, hstart, hreach, hpast, hres, hops, hkept,
    (grid_depicts_result rfl rfl _ g).1 m _ _ r hstart hreach hpast hres⟩

end PixelTurtle
