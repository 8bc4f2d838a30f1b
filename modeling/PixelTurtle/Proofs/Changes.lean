import Mathlib.Logic.Relation
import PixelTurtle.Proofs.Events

/-!
# What a run does with its state

A run changes its state in a few ways only: a step is counted, a cell is drawn, the turtle moves or
turns, the pen or the color changes, a variable gets a value. Each of these comes with its log entry
and its calls to the renderer, so that between them the state, the log and the renderer are in step.
The one exception is a log that is full, and then the run is over.

* `Change` are these ways, and `Cut` is what is left of one when the log has no room for its entry.
* `Instr.Completes.changes` and `Instr.Aborts.breaksOff` say that every instruction consists of
  changes.
* `marks_step` says it of an event, and `Reaches.invariant` is the induction over a run: what every
  change keeps holds of every reachable machine.
-/

namespace PixelTurtle

open Relation (ReflTransGen)

/-! ## Changes -/

/-- The ways in which a run changes its state. -/
inductive Change (o : Options) : RunState → RunState → Prop
  | tick (s : RunState) : Change o s s.ticked
  | plot {s : RunState} {cell : Cell} : s.penDown = true → o.inBounds cell = true →
    o.fits s = true → Change o s ((s.painted o cell).noted o (.plot cell s.color))
  | move {s : RunState} {x y : Float} {cell : Cell} : x.isFinite = true → y.isFinite = true →
    Cell.ofPoint x y = .ok cell → o.fits s = true →
    Change o s (({ s with x := x, y := y }.told o cell).noted o (.move cell))
  | turn {s : RunState} (delta : Float) : o.fits s = true →
    Change o s (({ s with heading := wrapHue (s.heading + delta) }.noted o
      (.turn (wrapHue (s.heading + delta)))).heard o (.setHeading (wrapHue (s.heading + delta))))
  | pen {s : RunState} {cell : Cell} (down : Bool) : Cell.ofPoint s.x s.y = .ok cell →
    o.fits s = true → Change o s (({ s with penDown := down }.noted o (.pen down)).told o cell)
  /-- A turtle without a cell changes its pen, and no renderer is told. -/
  | penAstray {s : RunState} {reason : Number.NoInteger} (down : Bool) :
    Cell.ofPoint s.x s.y = .error reason → o.fits s = true →
    Change o s ({ s with penDown := down }.noted o (.pen down))
  | color {s : RunState} {h sat v : HsvParam} {color : Hsv} :
    Hsv.change s.vars s.color h sat v = .ok color → o.fits s = true →
    Change o s ({ s with color := color }.noted o (.hsv color))
  | assign {s : RunState} (name : String) {x : Float} : x.isFinite = true →
    Change o s { s with vars := s.vars.set name x }

/-- What is left of a change when the log has no room for its entry. -/
inductive Cut (o : Options) : RunState → RunState → Prop
  | plot {s : RunState} {cell : Cell} : s.penDown = true → o.inBounds cell = true →
    o.fits s = false → Cut o s (s.painted o cell)
  | move {s : RunState} {x y : Float} {cell : Cell} : x.isFinite = true → y.isFinite = true →
    Cell.ofPoint x y = .ok cell → o.fits s = false →
    Cut o s ({ s with x := x, y := y }.told o cell)
  | turn {s : RunState} (delta : Float) : o.fits s = false →
    Cut o s { s with heading := wrapHue (s.heading + delta) }
  | pen {s : RunState} (down : Bool) : o.fits s = false → Cut o s { s with penDown := down }
  | color {s : RunState} {h sat v : HsvParam} {color : Hsv} :
    Hsv.change s.vars s.color h sat v = .ok color → o.fits s = false →
    Cut o s { s with color := color }

/-- From `s` to `s'` there were any number of changes. -/
abbrev Changes (o : Options) : RunState → RunState → Prop :=
  ReflTransGen (Change o)

/-! ## Instructions -/

/-- Whether an action was aborted because the log was full. -/
def Abort.isOutputLimit : Abort → Bool
  | .fault .outputLimit _ => true
  | _ => false

/-- The run has come from `s` to `s'` by changes, the last of which may have been cut off by a full
log. -/
def BreaksOff (o : Options) (s : RunState) (a : Abort) (s' : RunState) : Prop :=
  Changes o s s' ∨ a.isOutputLimit = true ∧ ∃ s₁, Changes o s s₁ ∧ Cut o s₁ s'

section Instructions

variable {o : Options} {s s' : RunState} {i : Instr} {signal : Signal} {a : Abort}
  {path : List Cell} {cell : Cell} {x y : Float}

theorem changes_ticked (o : Options) (s : RunState) : Changes o s s.ticked :=
  .single (.tick s)

theorem changes_visited (hdown : s.penDown = true)
    (hfits : o.inBounds cell = true → o.fits s = true) : Changes o s (s.visited o cell) := by
  unfold RunState.visited
  split_ifs with hcell
  · exact (changes_ticked o s).tail (.plot hdown hcell (hfits hcell))
  · exact changes_ticked o s

theorem changes_walked (hdown : s.penDown = true) (h : s.Affords o path) :
    Changes o s (s.walked o path) := by
  induction path generalizing s with
  | nil => exact .refl
  | cons cell path ih =>
    obtain ⟨-, hfits, hrest⟩ := h
    have hstill := (s.sameTurtle_visited o cell).penDown.trans hdown
    exact (changes_visited hdown hfits).trans (ih hstill hrest)

/-- A movement draws its line, if the pen is down. -/
theorem changes_path (hpath : if s.penDown then s.LineTo x y path else path = [])
    (h : s.Affords o path) : Changes o s (s.walked o path) := by
  split_ifs at hpath with hdown
  · exact changes_walked hdown h
  · rw [hpath]
    exact .refl

/-- **An instruction that is carried out consists of changes.** -/
theorem Instr.Completes.changes (h : i.Completes o s signal s') : Changes o s s' := by
  cases h with
  | move _ hcell hpath hafford hfits =>
    obtain ⟨hx, hy⟩ := Cell.isFinite_of_ofPoint hcell
    exact (changes_path hpath hafford).tail (.move hx hy hcell hfits)
  | turn _ _ hfits => exact .single (.turn _ hfits)
  | pen hcell hfits => exact .single (.pen _ hcell hfits)
  | penAstray hcell _ hfits => exact .single (.penAstray _ hcell hfits)
  | hsv hcolor hfits => exact .single (.color hcolor hfits)
  | assign _ hx _ => exact .single (.assign _ hx)
  | _ => exact .refl

/-- **So does what was done of one that is stopped**, unless its last change was cut off. -/
theorem Instr.Stops.breaksOff (h : i.Stops o s a s') : BreaksOff o s a s' := by
  cases h with
  | brokenLine hdown _ _ hbroken =>
    have hwalked {before : List Cell} (h : s.Affords o before) :
        Changes o s (s.walked o before).ticked :=
      (changes_walked hdown h).tail (.tick _)
    cases hbroken with
    | outOfSteps _ hafford _ => exact .inl (hwalked hafford)
    | @outOfEntries before cell _ hafford _ hcell hfull =>
      have hstill := (s.sameTurtle_walked o before).penDown.trans hdown
      exact .inr ⟨rfl, _, hwalked hafford, .plot hstill hcell hfull⟩
  | unloggedMove _ hcell hpath hafford hfull =>
    obtain ⟨hx, hy⟩ := Cell.isFinite_of_ofPoint hcell
    exact .inr ⟨rfl, _, changes_path hpath hafford, .move hx hy hcell hfull⟩
  | unloggedTurn _ _ hfull => exact .inr ⟨rfl, _, .refl, .turn _ hfull⟩
  | unloggedPen hfull => exact .inr ⟨rfl, _, .refl, .pen _ hfull⟩
  | untoldPen hcell _ hfits => exact .inl (.single (.penAstray _ hcell hfits))
  | unloggedColor hcolor hfull => exact .inr ⟨rfl, _, .refl, .color hcolor hfull⟩
  | _ => exact .inl .refl

theorem BreaksOff.after {s₀ : RunState} (hbefore : Changes o s₀ s) (h : BreaksOff o s a s') :
    BreaksOff o s₀ a s' := by
  rcases h with hchanges | ⟨hfull, s₁, hchanges, hcut⟩
  · exact .inl (hbefore.trans hchanges)
  · exact .inr ⟨hfull, s₁, hbefore.trans hchanges, hcut⟩

theorem Instr.Aborts.breaksOff (h : i.Aborts o s a s') : BreaksOff o s a s' := by
  cases h with
  | unknown => exact .inl .refl
  | outOfSteps _ => exact .inl (changes_ticked o s)
  | stopped _ hstops => exact hstops.breaksOff.after (changes_ticked o s)

end Instructions

/-! ## Events -/

/-- Whether an event was aborted because the log was full. -/
def Event.isOutputLimit : Event → Bool
  | .aborted a => a.isOutputLimit
  | _ => false

/-- Whether an event was aborted by a fault. -/
def Event.isFault : Event → Bool
  | .aborted (.fault ..) => true
  | _ => false

theorem isFault_of_isOutputLimit {ev : Event} (h : ev.isOutputLimit = true) :
    ev.isFault = true := by
  unfold Event.isOutputLimit at h
  split at h
  · rename_i a
    cases a with
    | fault f line => rfl
    | _ => cases h
  · cases h

/-- What an event comes to that starts in the state `s`: it consists of changes, the last of which
may have been cut off by a full log, and a fault ends the run. -/
structure Marks (o : Options) (s : RunState) (r : Machine × Event) : Prop where
  changes : Changes o s r.1.state ∨
    r.2.isOutputLimit = true ∧ ∃ s₁, Changes o s s₁ ∧ Cut o s₁ r.1.state
  failed : r.2.isFault = true → r.1.status = .failed

section Events

variable {o : Options} {s s' : RunState} {m m₀ : Machine} {past : List Machine}

theorem marks_abort (rest : List Instr) (frames : List Frame) {a : Abort} (h : BreaksOff o s a s') :
    Marks o s (Machine.abort rest frames s' a) := by
  cases a with
  | fault f line => exact ⟨h, fun _ => rfl⟩
  | expr e => exact ⟨h, nofun⟩
  | noDirection => exact ⟨h, nofun⟩
  | noCell reason => exact ⟨h, nofun⟩

/-- **Every event consists of changes.** -/
theorem Machine.Comes.marks {r : Machine × Event} (h : m.Comes o r) : Marks o m.state r := by
  have counted {i : Instr} {signal : Signal} {s : RunState}
      (hdone : i.Completes o m.state.ticked signal s) : Changes o m.state s :=
    (changes_ticked o _).trans hdone.changes
  cases h with
  | halted _ => exact ⟨.inl .refl, nofun⟩
  | completed => exact ⟨.inl .refl, nofun⟩
  | aborted _ haborts => exact marks_abort _ _ haborts.breaksOff
  | next _ _ hdone => exact ⟨.inl (counted hdone), nofun⟩
  | moved _ _ hdone => exact ⟨.inl (counted hdone), nofun⟩
  | enter _ _ hdone => exact ⟨.inl (counted hdone), nofun⟩
  | breakLoop _ _ hdone _ => exact ⟨.inl (counted hdone), nofun⟩
  | continueLoop _ _ hdone _ => exact ⟨.inl (counted hdone), nofun⟩
  | outsideLoop _ _ hdone _ => exact marks_abort _ _ (.inl (counted hdone))
  | left _ => exact ⟨.inl .refl, nofun⟩
  | again _ _ _ => exact ⟨.inl (changes_ticked o _), nofun⟩
  | outOfSteps _ _ _ => exact marks_abort _ _ (.inl (changes_ticked o _))
  | unread _ _ _ => exact marks_abort _ _ (.inl .refl)

theorem marks_step (o : Options) (m : Machine) : Marks o m.state (m.step o) :=
  (comes_step o m).marks

/-! ## Runs -/

theorem Changes.invariant {I : RunState → Prop} (hI : ∀ s s', Change o s s' → I s → I s')
    (h : Changes o s s') (hs : I s) : I s' := by
  induction h with
  | refl => exact hs
  | tail _ hchange ih => exact hI _ _ hchange ih

/-- **What every change keeps holds wherever a host arrives**, unless the log was full before. -/
theorem Reaches.invariant {I : RunState → Prop} (hI : ∀ s s', Change o s s' → I s → I s')
    (h : Reaches o m₀ past m) (hpast : ∀ x ∈ past, (x.step o).2.isOutputLimit = false)
    (h₀ : I m₀.state) : I m.state := by
  induction h with
  | start => exact h₀
  | @step past m _ ih =>
    have hm := ih fun x hx => hpast x (List.mem_append_left _ hx)
    rcases (marks_step o m).changes with hchanges | ⟨hfull, -⟩
    · exact Changes.invariant hI hchanges hm
    · have := hpast m (List.mem_append_right _ List.mem_cons_self)
      cases hfull.symm.trans this
  | cancel _ ih =>
    rw [Machine.cancel_state]
    exact ih hpast

/-- **What every change keeps, cut off or not, holds wherever a host arrives.** -/
theorem Reaches.invariant_of_cut {I : RunState → Prop}
    (hI : ∀ s s', Change o s s' → I s → I s') (hcut : ∀ s s', Cut o s s' → I s → I s')
    (h : Reaches o m₀ past m) (h₀ : I m₀.state) : I m.state := by
  induction h with
  | start => exact h₀
  | @step past m _ ih =>
    rcases (marks_step o m).changes with hchanges | ⟨-, s₁, hchanges, hs₁⟩
    · exact Changes.invariant hI hchanges ih
    · exact hcut _ _ hs₁ (Changes.invariant hI hchanges ih)
  | cancel _ ih =>
    rw [Machine.cancel_state]
    exact ih

/-- A run that has met a fault has failed. -/
theorem Reaches.failed_of_fault (h : Reaches o m₀ past m) {x : Machine} (hx : x ∈ past)
    (hfault : (x.step o).2.isFault = true) : m.status = .failed := by
  induction h with
  | start => cases hx
  | @step past m _ ih =>
    rcases List.mem_append.1 hx with hpast | hlast
    · have hfailed := ih hpast
      rw [Machine.step_of_status_ne (by rw [hfailed]; nofun)]
      exact hfailed
    · rw [List.mem_singleton.1 hlast] at hfault
      exact (marks_step o m).failed hfault
  | @cancel past m _ ih =>
    have hfailed := ih hx
    obtain ⟨rest, frames, s, status⟩ := m
    subst hfailed
    rfl

end Events

end PixelTurtle
