import PixelTurtle.Proofs.Observers

/-!
# Bounds of the grid

A run with bounds draws what the run without them draws within the bounds. The turtle does not
notice: a cell outside costs its step like any other, and nothing else depends on the bounds.

* `crop` is the view that leaves out the cells outside.
* `mirrors_boundedBy` says that every entry, call and cell of a line is cropped like that.
* `bounds_only_crop` says it of whole runs.
-/

namespace PixelTurtle

/-- The same run with other bounds. -/
def Options.boundedBy (o : Options) (width height : Option Int) : Options :=
  { o with width := width, height := height }

/-- Whether an entry is kept: a plot must be of a cell inside. -/
def Operation.isKept (inside : Cell → Bool) : Operation → Bool
  | .plot cell _ => inside cell
  | _ => true

/-- Whether a call is kept: a cell that is drawn must be inside. -/
def Call.isKept (inside : Cell → Bool) : Call → Bool
  | .drawPixel cell _ => inside cell
  | _ => true

/-- What is left of a run when the cells that are not inside are left out. -/
def crop (inside : Cell → Bool) : View where
  log := Array.filter (Operation.isKept inside)
  calls := Array.filter (Call.isKept inside)
  pixels := Array.filter fun (cell, _) => inside cell

theorem Operation.isKept_of_not_plot (inside : Cell → Bool) {op : Operation}
    (h : op.isPlot = false) : op.isKept inside = true := by
  cases op with
  | plot cell color => cases h
  | _ => rfl

theorem Call.isKept_of_not_draw (inside : Cell → Bool) {c : Call} (h : c.isDraw = false) :
    c.isKept inside = true := by
  cases c with
  | drawPixel cell color => cases h
  | _ => rfl

/-! ## Single cells -/

section

variable {o : Options} (width height : Option Int) (inside : Cell → Bool) (s : RunState)

/-- An entry is logged if it is kept. -/
theorem crop_noted (op : Operation) :
    (crop inside).see (s.noted (o.boundedBy none none) op) =
      if op.isKept inside then
        ((crop inside).see s).noted (o.boundedBy width height) op
      else (crop inside).see s := by
  have hrecord (w h : Option Int) : (o.boundedBy w h).record = o.record := rfl
  simp only [RunState.noted, View.see, crop, hrecord]
  cases o.record with
  | false => simp only [Bool.false_eq_true, if_false, ite_self]
  | true =>
    simp only [if_true, Array.filter_push]
    split_ifs
    · rfl
    · rfl

/-- A call is made if it is kept. -/
theorem crop_heard (c : Call) :
    (crop inside).see (s.heard (o.boundedBy none none) c) =
      if c.isKept inside then ((crop inside).see s).heard (o.boundedBy width height) c
      else (crop inside).see s := by
  have htakes (w h : Option Int) : (o.boundedBy w h).takes c = o.takes c := rfl
  simp only [RunState.heard, View.see, crop, htakes]
  cases o.takes c with
  | false => simp only [Bool.false_eq_true, if_false, ite_self]
  | true =>
    simp only [if_true, Array.filter_push]
    split_ifs
    · rfl
    · rfl

/-- A cell is reported if it is inside. -/
theorem crop_reported (report : Bool) (cell : Cell) (color : Hsv) :
    (crop inside).see
        { s with pixels := if report then s.pixels.push (cell, color) else s.pixels } =
      if inside cell then
        { (crop inside).see s with
          pixels := if report then ((crop inside).see s).pixels.push (cell, color)
            else ((crop inside).see s).pixels }
      else (crop inside).see s := by
  simp only [View.see, crop]
  cases report with
  | false => simp only [Bool.false_eq_true, if_false, ite_self]
  | true =>
    simp only [if_true, Array.filter_push]
    split_ifs
    · rfl
    · rfl

/-- A cell is reported and drawn if it is inside. -/
theorem crop_painted (cell : Cell) :
    (crop inside).see (s.painted (o.boundedBy none none) cell) =
      if inside cell then ((crop inside).see s).painted (o.boundedBy width height) cell
      else (crop inside).see s := by
  rw [RunState.painted, crop_heard width height, crop_reported]
  show (if inside cell then _ else _) = _
  by_cases hcell : inside cell = true
  · simp only [if_pos hcell]
    rfl
  · simp only [if_neg hcell]

end

section

variable {o : Options} (width height : Option Int)

section Unlimited

variable (hn : o.maxOperations = none)

include hn

/-- An entry other than a plot is logged with bounds as without. -/
theorem crop_record {op : Operation} (hop : op.isPlot = false) (line : Option Int) (s : RunState) :
    Sees (crop (o.boundedBy width height).inBounds) s (record (o.boundedBy none none) line op)
      (record (o.boundedBy width height) line op) := by
  have hnoted := crop_noted (o := o) width height (o.boundedBy width height).inBounds s op
  rw [Operation.isKept_of_not_plot _ hop, if_pos rfl] at hnoted
  rw [Sees, record_eq_noted, record_eq_noted, fits_of_none (o.boundedBy width height) _ hn,
    fits_of_none (o.boundedBy none none) _ hn, if_pos rfl, if_pos rfl, ← hnoted]
  rfl

/-- A cell of a line costs a step, and is drawn with bounds if it lies within them. -/
theorem crop_draw (line : Option Int) (cell : Cell) (s : RunState) :
    Sees (crop (o.boundedBy width height).inBounds) s (draw (o.boundedBy none none) line cell)
      (draw (o.boundedBy width height) line cell) := by
  have htick : Sees (crop (o.boundedBy width height).inBounds) s
      (tick (o.boundedBy none none) line) (tick (o.boundedBy width height) line) := sees_tick rfl
  rw [Sees, draw_eq, draw_eq, htick]
  cases tick (o.boundedBy none none) line s with
  | error a s₁ => rfl
  | ok _ s₁ =>
    show (if (o.boundedBy width height).inBounds cell then _ else _) = View.seeEnd _
      (record (o.boundedBy none none) line (.plot cell s₁.color) _)
    have hnoted := crop_noted (o := o) width height (o.boundedBy width height).inBounds
      (s₁.painted (o.boundedBy none none) cell) (.plot cell s₁.color)
    rw [Operation.isKept, crop_painted width height] at hnoted
    rw [record_eq_noted, record_eq_noted, fits_of_none (o.boundedBy width height) _ hn,
      fits_of_none (o.boundedBy none none) _ hn, if_pos rfl, if_pos rfl]
    show _ = EStateM.Result.ok () ((crop _).see _)
    rw [hnoted]
    show (if _ then _ else EStateM.Result.ok () ((crop _).see s₁)) = _
    split_ifs
    · rfl
    · rfl

/-- **Whatever lies within the bounds is as it is without them, and nothing else is left.** -/
theorem mirrors_boundedBy : Mirrors (crop (o.boundedBy width height).inBounds)
    (o.boundedBy none none) (o.boundedBy width height) where
  start := rfl
  clear := rfl
  maxSteps := rfl
  record op hop := crop_record width height hn hop
  heard c hc s := by
    rw [crop_heard width height, Call.isKept_of_not_draw _ hc, if_pos rfl]
  draw := crop_draw width height hn

/-! ## Runs -/

/-- **Bounds do nothing but cut out what lies outside.** With a log without a limit, a run with
bounds is the run without them, except that the plots of the cells outside are missing in its log,
and that these cells are neither drawn nor reported: the turtle, the variables, the steps and the
outcome, with its fault and line, are the same. This holds of all engines, also when the host cancels
the run, if it does so without a look at the pixels. -/
theorem bounds_only_crop (program : List Instr) :
    interpret (o.boundedBy width height) program =
      (crop (o.boundedBy width height).inBounds).seeRun
        (interpret (o.boundedBy none none) program) ∧
    interpretStepping (o.boundedBy width height) program =
      (crop (o.boundedBy width height).inBounds).seeRun
        (interpretStepping (o.boundedBy none none) program) ∧
    ∀ signal : Nat → Bool → Bool,
      interpretAsync (o.boundedBy width height) (.blind signal) program =
        (crop (o.boundedBy width height).inBounds).seeAsync
          (interpretAsync (o.boundedBy none none) (.blind signal) program) := by
  have hmirrors := mirrors_boundedBy width height hn
  have hattuned : Attuned (o.boundedBy none none) (o.boundedBy width height)
      (.start (o.boundedBy none none)) := .inr rfl
  have honce := interpret_of_mirrors hmirrors hattuned program
  refine ⟨honce, ?_, fun signal => ?_⟩
  · rw [interpretStepping_eq, interpretStepping_eq, honce]
  · exact interpretAsync_of_mirrors hmirrors _ _ (fun _ _ _ => rfl) hattuned program

end Unlimited

end

/-- A line that leaves a grid of three columns, and a jump outside of a loop, which is a fault. -/
theorem bounds_only_crop_line :
    ({} : Options).maxOperations = none ∧
    interpret (({} : Options).boundedBy (some 3) (some 1))
        [.pen .down none, .move .forward (.num 5) none, .breakLoop (some 3)] =
      (crop (({} : Options).boundedBy (some 3) (some 1)).inBounds).seeRun
        (interpret (({} : Options).boundedBy none none)
          [.pen .down none, .move .forward (.num 5) none, .breakLoop (some 3)]) :=
  ⟨rfl, (bounds_only_crop (o := {}) (some 3) (some 1) rfl _).1⟩

end PixelTurtle
