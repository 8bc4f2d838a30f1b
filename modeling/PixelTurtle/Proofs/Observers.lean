import PixelTurtle.Proofs.View

/-!
# Observers of a run

A run may be watched by a renderer, by a watcher of the pixels and by a log. None of them has a say
in what the run does: what one of them sees of a run is what it would have seen of a run that is
watched by all.

* `Watchers` are the observers of a run, and `Watchers.view` is what they see of it.
* `mirrors_watchedBy` says that every entry, call and cell is seen under the eyes of some as it is
  under the eyes of all.
* `interpret_see` and `interpretAsync_see` say it of the engines.
-/

namespace PixelTurtle

/-! ## What is seen of a run -/

/-- The observers of a run. -/
structure Watchers where
  renderer : Option Renderer := some .full
  onPixel : Bool := true
  record : Bool := true

/-- The same run with other observers. -/
def Options.watchedBy (o : Options) (w : Watchers) : Options :=
  { o with renderer := w.renderer, onPixel := w.onPixel, record := w.record }

namespace Watchers

/-- Every observer there can be. -/
def all : Watchers := {}

/-- Whether there is a renderer that takes a call. -/
def hears (w : Watchers) (c : Call) : Bool :=
  w.renderer.any (·.contains c.method)

/-- What is seen of a run that is watched by all. -/
def view (w : Watchers) : View where
  log entries := if w.record then entries else #[]
  calls calls := calls.filter w.hears
  pixels pixels := if w.onPixel then pixels else #[]

variable (w : Watchers) (o : Options) (s : RunState)

theorem see_noted (op : Operation) :
    w.view.see (s.noted (o.watchedBy all) op) = (w.view.see s).noted (o.watchedBy w) op := by
  obtain ⟨renderer, onPixel, record⟩ := w
  cases record with
  | false => rfl
  | true => rfl

theorem see_heard (c : Call) :
    w.view.see (s.heard (o.watchedBy all) c) = (w.view.see s).heard (o.watchedBy w) c := by
  have htakes : (o.watchedBy all).takes c = true := by
    cases c with
    | _ => rfl
  have hhears : (o.watchedBy w).takes c = w.hears c := rfl
  simp only [RunState.heard, htakes, hhears, if_true, view, View.see, Array.filter_push]

theorem see_painted (cell : Cell) :
    w.view.see (s.painted (o.watchedBy all) cell) =
      (w.view.see s).painted (o.watchedBy w) cell := by
  rw [RunState.painted, see_heard]
  obtain ⟨renderer, onPixel, record⟩ := w
  cases onPixel with
  | false => rfl
  | true => rfl

end Watchers

section

variable {o : Options} (w : Watchers)

section Unlimited

variable (hn : o.maxOperations = none)

include hn

/-- A log without a limit never stops a run. -/
theorem sees_record (op : Operation) (line : Option Int) (s : RunState) :
    Sees w.view s (record (o.watchedBy .all) line op) (record (o.watchedBy w) line op) := by
  rw [Sees, record_eq_noted, record_eq_noted, fits_of_none (o.watchedBy w) _ hn,
    fits_of_none (o.watchedBy .all) _ hn, if_pos rfl, if_pos rfl, ← Watchers.see_noted]
  rfl

theorem sees_draw (line : Option Int) (cell : Cell) (s : RunState) :
    Sees w.view s (draw (o.watchedBy .all) line cell) (draw (o.watchedBy w) line cell) := by
  have htick : Sees w.view s (tick (o.watchedBy .all) line) (tick (o.watchedBy w) line) :=
    sees_tick rfl
  rw [Sees, draw_eq, draw_eq, htick]
  cases tick (o.watchedBy .all) line s with
  | error a s₁ => rfl
  | ok _ s₁ =>
    show (if o.inBounds cell then _ else _) = w.view.seeEnd (if o.inBounds cell then _ else _)
    split_ifs
    · rw [← Watchers.see_painted]
      exact sees_record w hn _ _ _
    · rfl

/-- **Whatever is seen under the eyes of some is as it is under the eyes of all.** -/
theorem mirrors_watchedBy : Mirrors w.view (o.watchedBy .all) (o.watchedBy w) where
  start := by
    obtain ⟨renderer, onPixel, record⟩ := w
    cases onPixel <;> cases record <;> rfl
  clear := rfl
  maxSteps := rfl
  record op _ := sees_record w hn op
  heard c _ s := w.see_heard o s c
  draw := sees_draw w hn

end Unlimited

/-- A signal that does not look at the reported pixels. -/
def CancelSignal.blind (signal : Nat → Bool → Bool) : CancelSignal :=
  fun c => signal c.movements c.paused

variable (hx : o.startX.isFinite = true) (hy : o.startY.isFinite = true)
  (hn : o.maxOperations = none) (program : List Instr)

include hx hy hn

/-- **What is seen of a program that is run in one go.** -/
theorem interpret_see :
    interpret (o.watchedBy w) program = w.view.seeRun (interpret (o.watchedBy .all) program) :=
  interpret_of_mirrors (mirrors_watchedBy w hn) (.inl (Cell.exists_ofPoint hx hy)) program

/-- **What is seen of a program that is run with pauses.** -/
theorem interpretAsync_see (signal : Nat → Bool → Bool) :
    interpretAsync (o.watchedBy w) (.blind signal) program =
      w.view.seeAsync (interpretAsync (o.watchedBy .all) (.blind signal) program) :=
  interpretAsync_of_mirrors (mirrors_watchedBy w hn) (.blind signal) (.blind signal)
    (fun _ _ _ => rfl) (.inl (Cell.exists_ofPoint hx hy)) program

end

/-! ## What does not depend on observers -/

/-- A result without its log. -/
def RunResult.unlogged (r : RunResult) : RunResult :=
  { r with operations := #[] }

/-- A failure without the log of its result. -/
def Failure.unlogged : Failure → Failure
  | .runtime f line r => .runtime f line r.unlogged
  | e => e

/-- A run without its log and without what the observers were told. -/
def Run.unobserved (run : Run) : Run where
  outcome :=
    match run.outcome with
    | .ok r => .ok r.unlogged
    | .error e => .error e.unlogged
  state := { run.state with log := #[], calls := #[], pixels := #[] }

theorem unobserved_see (w : Watchers) (run : Run) :
    (w.view.seeRun run).unobserved = run.unobserved := by
  obtain ⟨outcome, state⟩ := run
  cases outcome with
  | ok r => rfl
  | error e =>
    cases e with
    | _ => rfl

/-- Without a log, nothing but the log is missing from an outcome. -/
theorem outcome_see_unlogged {w : Watchers} (h : w.record = false) (run : Run) :
    (w.view.seeRun run).outcome = run.unobserved.outcome := by
  have hresult (r : RunResult) : w.view.seeResult r = r.unlogged := by
    show ({ r with operations := if w.record then r.operations else #[] } : RunResult) = _
    rw [h]
    rfl
  obtain ⟨outcome, state⟩ := run
  cases outcome with
  | ok r => exact congrArg Except.ok (hresult r)
  | error e =>
    cases e with
    | runtime f line r => exact congrArg (Except.error ∘ Failure.runtime f line) (hresult r)
    | _ => rfl

/-- The runs `run w`, which are watched by `w`, differ in nothing but what is told to `w`: they have
the same outcome and leave the same state, all that are logged have the same log, and those that are
not have none. What a renderer and a watcher of the pixels are told does not depend on the rest. -/
structure Unaffected (run : Watchers → Run) : Prop where
  same : ∀ w w', (run w).unobserved = (run w').unobserved
  log : ∀ w w', w.record = w'.record →
    (run w).outcome = (run w').outcome ∧ (run w).state.log = (run w').state.log
  unlogged : ∀ w, w.record = false →
    (run w).outcome = (run w).unobserved.outcome ∧ (run w).state.log = #[]
  calls : ∀ w w', w.renderer = w'.renderer → (run w).state.calls = (run w').state.calls
  pixels : ∀ w w', w.onPixel = w'.onPixel → (run w).state.pixels = (run w').state.pixels

/-- Runs are not affected by observers who see parts of one run. -/
theorem unaffected_of_see {run : Watchers → Run} (h : ∀ w, run w = w.view.seeRun (run .all)) :
    Unaffected run where
  same w w' := by rw [h w, h w', unobserved_see, unobserved_see]
  log w w' hrecord := by
    rw [h w, h w']
    have hlog : w.view.log = w'.view.log := by
      unfold Watchers.view
      rw [hrecord]
    constructor
    · show w.view.seeOutcome _ = w'.view.seeOutcome _
      unfold View.seeOutcome View.seeFailure View.seeResult
      rw [hlog]
    · show (if w.record then _ else _) = if w'.record then _ else _
      rw [hrecord]
  unlogged w hrecord := by
    rw [h w, unobserved_see]
    constructor
    · exact outcome_see_unlogged hrecord _
    · show (if w.record then _ else _) = _
      rw [hrecord]
      rfl
  calls w w' hrenderer := by
    rw [h w, h w']
    show Array.filter w.hears _ = Array.filter w'.hears _
    unfold Watchers.hears
    rw [hrenderer]
  pixels w w' honPixel := by
    rw [h w, h w']
    show (if w.onPixel then _ else _) = if w'.onPixel then _ else _
    rw [honPixel]

/-- **Observers have no say.** For a turtle that starts at a finite point and a log without a limit,
neither the outcome of a run nor the state that it leaves depends on whether there is a renderer and
which calls it takes, on whether the pixels are reported, and on whether the run is logged. This
holds of all engines, also when the host cancels the run, if it does so without a look at the
pixels. -/
theorem observers_have_no_say {o : Options} (hx : o.startX.isFinite = true)
    (hy : o.startY.isFinite = true) (hn : o.maxOperations = none) (program : List Instr) :
    Unaffected (fun w => interpret (o.watchedBy w) program) ∧
    Unaffected (fun w => interpretStepping (o.watchedBy w) program) ∧
    ∀ signal : Nat → Bool → Bool,
      Unaffected (fun w => (interpretAsync (o.watchedBy w) (.blind signal) program).run) ∧
      ∀ w w', (interpretAsync (o.watchedBy w) (.blind signal) program).pauses =
        (interpretAsync (o.watchedBy w') (.blind signal) program).pauses := by
  have honce : Unaffected (fun w => interpret (o.watchedBy w) program) :=
    unaffected_of_see fun w => interpret_see w hx hy hn program
  refine ⟨honce, ?_, fun signal => ⟨unaffected_of_see fun w => ?_, fun w w' => ?_⟩⟩
  · simpa only [interpretStepping_eq] using honce
  · rw [interpretAsync_see w hx hy hn program signal]
    rfl
  · rw [interpretAsync_see w hx hy hn program signal, interpretAsync_see w' hx hy hn program signal]
    rfl

/-- A turn and a jump outside of a loop, which is a fault. -/
theorem observers_have_no_say_jump :
    (0.5 : Float).isFinite = true ∧ (-3 : Float).isFinite = true ∧
    Unaffected fun w => interpret (({ startX := 0.5, startY := -3 } : Options).watchedBy w)
      [.pen .down none, .turn .right (.num 90) none, .breakLoop (some 3)] := by
  have hx : (0.5 : Float).isFinite = true := by decide +kernel
  have hy : (-3 : Float).isFinite = true := by decide +kernel
  exact ⟨hx, hy,
    (observers_have_no_say (o := { startX := 0.5, startY := -3 }) hx hy rfl _).1⟩

end PixelTurtle
