import Mathlib.Tactic.SplitIfs
import PixelTurtle.Proofs.Action
import PixelTurtle.Proofs.Rounding

/-!
# Lines that are drawn

A turtle with its pen down visits the cells on its way, one after the other. Each of them costs a
step, and those within the bounds are drawn and logged. There may be no step left for a cell, or no
entry for one that has been drawn already; then the line is broken off there.

* `RunState.Placed` says that the turtle has a cell, and `placed_iff` when that is so.
* `RunState.walked` is the state after the cells of a line were visited, and `RunState.Affords` says
  that the limits allow it.
* `BrokenLine` is what is left of a line that was broken off.
* `ensures_drawLine_walked` says that a line comes to one of these.
-/

namespace PixelTurtle

/-! ## The place of the turtle -/

/-- A turtle that has a cell. -/
def RunState.Placed (s : RunState) : Prop :=
  ∃ cell, Cell.ofPoint s.x s.y = .ok cell

theorem placed_iff {s : RunState} : s.Placed ↔ s.x.isFinite = true ∧ s.y.isFinite = true :=
  ⟨fun ⟨_, h⟩ => Cell.isFinite_of_ofPoint h, fun ⟨hx, hy⟩ => Cell.exists_ofPoint hx hy⟩

theorem exists_reason_of_not_placed {s : RunState} (h : ¬ s.Placed) :
    ∃ reason, Cell.ofPoint s.x s.y = .error reason := by
  cases hcell : Cell.ofPoint s.x s.y with
  | ok cell => exact absurd ⟨cell, hcell⟩ h
  | error reason => exact ⟨reason, rfl⟩

/-- The cells on the line to a point, without that of the turtle. -/
def RunState.LineTo (s : RunState) (x y : Float) (path : List Cell) : Prop :=
  ∃ a b, Cell.ofPoint s.x s.y = .ok a ∧ Cell.ofPoint x y = .ok b ∧ path = (cellsBetween a b).tail

/-- The turtle and the variables are the same. -/
structure RunState.SameTurtle (s s' : RunState) : Prop where
  x : s'.x = s.x
  y : s'.y = s.y
  heading : s'.heading = s.heading
  penDown : s'.penDown = s.penDown
  color : s'.color = s.color
  vars : s'.vars = s.vars

/-! ## Visited cells -/

/-- The entries for the cells of a line that were visited: those within the bounds are plotted. -/
def Options.plots (o : Options) (color : Hsv) (cells : List Cell) : List Operation :=
  if o.record then (cells.filter o.inBounds).map (.plot · color) else []

namespace RunState

/-- The state after a cell of a line was visited. -/
def visited (o : Options) (s : RunState) (cell : Cell) : RunState :=
  if o.inBounds cell then (s.ticked.painted o cell).noted o (.plot cell s.color) else s.ticked

/-- The state after some cells of a line were visited. -/
def walked (o : Options) (s : RunState) (cells : List Cell) : RunState :=
  cells.foldl (visited o) s

/-- There is a step left for each of the cells, and an entry for each of those that are plotted. -/
def Affords (o : Options) : RunState → List Cell → Prop
  | _, [] => True
  | s, cell :: cells => o.allows (s.steps + 1) = true ∧
    (o.inBounds cell = true → o.fits s = true) ∧ Affords o (s.visited o cell) cells

theorem SameTurtle.refl (s : RunState) : s.SameTurtle s :=
  ⟨rfl, rfl, rfl, rfl, rfl, rfl⟩

theorem SameTurtle.trans {s s₁ s₂ : RunState} (h : s.SameTurtle s₁) (h' : s₁.SameTurtle s₂) :
    s.SameTurtle s₂ :=
  ⟨h'.x.trans h.x, h'.y.trans h.y, h'.heading.trans h.heading, h'.penDown.trans h.penDown,
    h'.color.trans h.color, h'.vars.trans h.vars⟩

variable (o : Options) (s : RunState) (cell : Cell) (cells : List Cell)

theorem sameTurtle_visited : s.SameTurtle (s.visited o cell) := by
  unfold visited
  split_ifs
  · exact ⟨rfl, rfl, rfl, rfl, rfl, rfl⟩
  · exact ⟨rfl, rfl, rfl, rfl, rfl, rfl⟩

theorem sameTurtle_walked : s.SameTurtle (s.walked o cells) := by
  induction cells generalizing s with
  | nil => exact .refl s
  | cons cell cells ih => exact (s.sameTurtle_visited o cell).trans (ih (s.visited o cell))

theorem steps_visited : (s.visited o cell).steps = s.steps + 1 := by
  unfold visited
  split_ifs <;> rfl

theorem plots_append (color : Hsv) (before after : List Cell) :
    o.plots color (before ++ after) = o.plots color before ++ o.plots color after := by
  unfold Options.plots
  split_ifs
  · rw [List.filter_append, List.map_append]
  · rfl

theorem log_visited : (s.visited o cell).log.toList = s.log.toList ++ o.plots s.color [cell] := by
  unfold visited Options.plots noted painted heard
  cases h : o.inBounds cell <;> cases o.record <;> simp [ticked, h]

/-- The log gains the entries for the cells that were visited. -/
theorem log_walked :
    (s.walked o cells).log.toList = s.log.toList ++ o.plots s.color cells := by
  induction cells generalizing s with
  | nil => simp [walked, Options.plots]
  | cons cell cells ih =>
    have hcolor := (s.sameTurtle_visited o cell).color
    rw [← List.singleton_append, plots_append, ← List.append_assoc, ← log_visited, ← hcolor]
    exact ih (s.visited o cell)

end RunState

/-! ## Drawing -/

section Drawing

variable {o : Options} {s s' : RunState} {line : Option Int} {path : List Cell} {a : Abort}
  {cell : Cell}

/-- A line over the cells of `path` was broken off: there was no step left for a cell, or no entry
for a cell that had been drawn. -/
inductive BrokenLine (o : Options) (s : RunState) (line : Option Int) (path : List Cell) :
    Abort → RunState → Prop
  | outOfSteps {before : List Cell} {cell : Cell} : before ++ [cell] <+: path →
    s.Affords o before → o.allows ((s.walked o before).steps + 1) = false →
    BrokenLine o s line path (.fault .stepLimit line) (s.walked o before).ticked
  | outOfEntries {before : List Cell} {cell : Cell} : before ++ [cell] <+: path →
    s.Affords o before → o.allows ((s.walked o before).steps + 1) = true →
    o.inBounds cell = true → o.fits (s.walked o before) = false →
    BrokenLine o s line path (.fault .outputLimit line) ((s.walked o before).ticked.painted o cell)

theorem BrokenLine.mono {path' : List Cell} (h : BrokenLine o s line path a s')
    (hpath : path <+: path') : BrokenLine o s line path' a s' := by
  cases h with
  | outOfSteps hbefore hafford hover => exact .outOfSteps (hbefore.trans hpath) hafford hover
  | outOfEntries hbefore hafford hstep hcell hfull =>
    exact .outOfEntries (hbefore.trans hpath) hafford hstep hcell hfull

/-- A line is broken off after its first cell. -/
theorem BrokenLine.cons (h : BrokenLine o (s.visited o cell) line path a s')
    (hstep : o.allows (s.steps + 1) = true) (hfits : o.inBounds cell = true → o.fits s = true) :
    BrokenLine o s line (cell :: path) a s' := by
  cases h with
  | @outOfSteps before last hbefore hafford hover =>
    have hlonger : cell :: before ++ [last] <+: cell :: path :=
      List.prefix_cons_inj cell |>.2 hbefore
    exact .outOfSteps hlonger ⟨hstep, hfits, hafford⟩ hover
  | @outOfEntries before last hbefore hafford hstep' hlast hfull =>
    have hlonger : cell :: before ++ [last] <+: cell :: path :=
      List.prefix_cons_inj cell |>.2 hbefore
    exact .outOfEntries hlonger ⟨hstep, hfits, hafford⟩ hstep' hlast hfull

theorem ensures_draw_visited (o : Options) (line : Option Int) (cell : Cell) (s : RunState) :
    Ensures (draw o line cell) s (fun _ s' => s.Affords o [cell] ∧ s' = s.visited o cell)
      (BrokenLine o s line [cell]) := by
  have hpath : [] ++ [cell] <+: [cell] := List.prefix_rfl
  rw [Ensures, draw_eq, tick_eq]
  unfold RunState.visited
  cases hstep : o.allows (s.steps + 1) with
  | false => exact .outOfSteps hpath trivial hstep
  | true =>
    cases hcell : o.inBounds cell with
    | false =>
      have hfits (h : o.inBounds cell = true) : o.fits s = true := by cases hcell.symm.trans h
      exact ⟨⟨hstep, hfits, trivial⟩, rfl⟩
    | true =>
      show Ensures (record o line (.plot cell s.color)) (s.ticked.painted o cell) _ _
      refine ensures_record_noted (fun hfits => ⟨⟨hstep, fun _ => hfits, trivial⟩, rfl⟩)
        fun hfull => ?_
      exact .outOfEntries hpath trivial hstep hcell hfull

/-- A walk visits its cells in their order, until it is broken off. -/
theorem ensures_drawWalk_walked (o : Options) (line : Option Int) (n : Nat) (w : Walk)
    (s : RunState) :
    Ensures (drawWalk o line n w) s
      (fun _ s' => s.Affords o (w.next.take n) ∧ s' = s.walked o (w.next.take n))
      (BrokenLine o s line (w.next.take n)) := by
  induction n generalizing w s with
  | zero => exact ⟨trivial, rfl⟩
  | succ n ih =>
    rw [drawWalk, ensures_bind, Walk.take]
    refine (ensures_draw_visited o line w.next.cell s).mono ?_ ?_
    · rintro _ _ ⟨⟨hstep, hfits, -⟩, rfl⟩
      exact (ih w.next _).mono (fun _ _ h => ⟨⟨hstep, hfits, h.1⟩, h.2⟩)
        fun _ _ h => h.cons hstep hfits
    · exact fun _ _ h => h.mono ⟨_, rfl⟩

/-- **A line visits its cells until it is broken off.** -/
theorem ensures_drawLine_walked {x y : Float} (hs : s.Placed) (hx : x.isFinite = true)
    (hy : y.isFinite = true) :
    Ensures (drawLine o line x y) s
      (fun _ s' => ∃ path, s.LineTo x y path ∧ s.Affords o path ∧ s' = s.walked o path)
      (fun a s' => ∃ path, s.LineTo x y path ∧ BrokenLine o s line path a s') := by
  obtain ⟨c, hc⟩ := hs
  obtain ⟨d, hd⟩ := Cell.exists_ofPoint hx hy
  have hline : s.LineTo x y ((Walk.start c d).next.take (stepsBetween c d)) :=
    ⟨c, d, hc, hd, rfl⟩
  unfold drawLine
  rw [ensures_bind, ensures_get]
  simp only [ensures_bind, cellOf, hc, hd]
  refine (ensures_drawWalk_walked o line (stepsBetween c d) (.start c d) s).mono ?_ ?_
  · exact fun _ _ h => ⟨_, hline, h⟩
  · exact fun _ _ h => ⟨_, hline, h⟩

end Drawing

end PixelTurtle
