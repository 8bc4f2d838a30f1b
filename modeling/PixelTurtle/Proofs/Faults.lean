import Mathlib.Data.List.Forall2
import PixelTurtle.Proofs.Events

/-!
# What a fault leaves behind

An instruction evaluates and checks everything before it changes the turtle, so that a fault finds
the turtle as it was. There are two exceptions. A movement draws its line cell by cell, and may run
out of steps on the way. And a log that is full is noticed only when the entry is due: then the
change has been made and its entry is missing.

* `Frame.Resumes` says that a frame still runs the same body.
* `Instr.Aborts.spares` says what a fault leaves of an instruction, `Machine.Comes.resumes` what an
  abort leaves of the frames.
* `fault_spares_turtle` is the theorem about all faults but that of a full log.
-/

namespace PixelTurtle

/-! ## Frames -/

/-- The frame runs the same body for the same reason. How far it has come may differ, and how many
rounds are left. -/
structure Frame.Resumes (f g : Frame) : Prop where
  kind : match f.kind, g.kind with
    | .count _, .count _ => True
    | .until c, .until d => c = d
    | .branch, .branch => True
    | _, _ => False
  body : g.body = f.body
  line : g.line = f.line

section Frames

variable {o : Options} {m : Machine} {i : Instr} {rest : List Instr} {frames : List Frame}

theorem Frame.Resumes.refl (f : Frame) : f.Resumes f := by
  refine ⟨?_, rfl, rfl⟩
  cases f.kind <;> trivial

theorem forall₂_resumes_refl (frames : List Frame) : List.Forall₂ Frame.Resumes frames frames :=
  List.forall₂_same.2 fun f _ => .refl f

theorem Frame.Repeats.resumes {f g : Frame} (h : f.Repeats g) : f.Resumes g := by
  cases h with
  | count => exact ⟨trivial, rfl, rfl⟩
  | «until» => exact .refl _

/-- An instruction that is started is taken off its frame. -/
theorem Machine.Fetches.resumes (h : m.Fetches i rest frames) :
    List.Forall₂ Frame.Resumes m.frames frames := by
  cases h with
  | top => exact .nil
  | inside => exact .cons ⟨(Frame.Resumes.refl _).kind, rfl, rfl⟩ (forall₂_resumes_refl _)

/-- An abort leaves the frames with their bodies. -/
theorem Machine.Comes.resumes {r : Machine × Event} (h : m.Comes o r) {a : Abort}
    (ha : r.2 = .aborted a) : List.Forall₂ Frame.Resumes m.frames r.1.frames := by
  cases h with
  | aborted hfetch _ => exact abort_frames .. ▸ hfetch.resumes
  | outsideLoop hfetch _ _ _ => exact hfetch.resumes
  | outOfSteps _ hrepeats _ => exact .cons hrepeats.resumes (forall₂_resumes_refl _)
  | unread _ _ _ => exact abort_frames .. ▸ forall₂_resumes_refl _
  | _ => cases ha

end Frames

/-! ## Instructions -/

/-- The log has gained the plots of the first cells of a line that the instruction draws. -/
def PlotsLine (o : Options) (s : RunState) (i : Instr) (s' : RunState) : Prop :=
  ∃ way e line x y path visited, i = .move way e line ∧ s.penDown = true ∧
    s.HeadsFor way e x y ∧ s.LineTo x y path ∧ visited <+: path ∧
    s'.log.toList = s.log.toList ++ o.plots s.color visited

section Instructions

variable {o : Options} {s s' : RunState} {i : Instr} {f : Fault} {line : Option Int}

/-- Only a full log comes too late for the turtle. -/
theorem Instr.Stops.spares (h : i.Stops o s (.fault f line) s') (hf : f ≠ .outputLimit) :
    s.SameTurtle s' ∧ (s'.log = s.log ∨ PlotsLine o s i s') := by
  cases h with
  | @brokenLine way e _ x y path _ _ hdown hfor hline hbroken =>
    cases hbroken with
    | @outOfSteps before cell hbefore _ _ =>
      have hsame := s.sameTurtle_walked o before
      refine ⟨⟨hsame.x, hsame.y, hsame.heading, hsame.penDown, hsame.color, hsame.vars⟩, .inr ?_⟩
      exact ⟨way, e, _, x, y, path, before, rfl, hdown, hfor, hline,
        (List.prefix_append before [cell]).trans hbefore, s.log_walked o before⟩
    | outOfEntries _ _ _ _ _ => exact absurd rfl hf
  | unloggedMove _ _ _ _ _ => exact absurd rfl hf
  | unloggedTurn _ _ _ => exact absurd rfl hf
  | unloggedPen _ => exact absurd rfl hf
  | unloggedColor _ _ => exact absurd rfl hf
  | _ => exact ⟨.refl s, .inl rfl⟩

theorem sameTurtle_ticked (s : RunState) : s.SameTurtle s.ticked :=
  ⟨rfl, rfl, rfl, rfl, rfl, rfl⟩

theorem Instr.Aborts.spares (h : i.Aborts o s (.fault f line) s') (hf : f ≠ .outputLimit) :
    s.SameTurtle s' ∧ (s'.log = s.log ∨ PlotsLine o s i s') := by
  cases h with
  | unknown => exact ⟨.refl s, .inl rfl⟩
  | outOfSteps _ => exact ⟨sameTurtle_ticked s, .inl rfl⟩
  | stopped _ hstops =>
    obtain ⟨hturtle, hlog⟩ := hstops.spares hf
    exact ⟨(sameTurtle_ticked s).trans hturtle, hlog⟩

/-- Nor does anything else that aborts an event. -/
theorem Machine.Aborts.spares {m : Machine} (h : m.Aborts o (.fault f line) s')
    (hf : f ≠ .outputLimit) :
    m.state.SameTurtle s' ∧
      (s'.log = m.state.log ∨ ∃ i, m.next? = some i ∧ PlotsLine o m.state i s') := by
  cases h with
  | instr hi haborts =>
    obtain ⟨hturtle, hlog⟩ := haborts.spares hf
    exact ⟨hturtle, hlog.imp_right fun hline => ⟨_, hi, hline⟩⟩
  | outsideLoop _ => exact ⟨sameTurtle_ticked _, .inl rfl⟩
  | outOfSteps _ => exact ⟨sameTurtle_ticked _, .inl rfl⟩
  | unread _ _ => exact ⟨.refl _, .inl rfl⟩

end Instructions

/-- **A fault changes nothing but the plots of the log.** Whatever fault stops an event, unless it
is that of a full log, the position, the heading, the pen, the color and the variables are as before
the event, and the frames have the same bodies. The log has gained no entry, except that a movement
with the pen down may have plotted the first cells of its line, in their order. -/
theorem fault_spares_turtle {o : Options} {m m' : Machine} {f : Fault} {line : Option Int}
    (h : m.step o = (m', .aborted (.fault f line))) (hf : f ≠ .outputLimit) :
    m.state.SameTurtle m'.state ∧ List.Forall₂ Frame.Resumes m.frames m'.frames ∧
    (m'.state.log = m.state.log ∨ ∃ i, m.next? = some i ∧ PlotsLine o m.state i m'.state) := by
  obtain ⟨hturtle, hlog⟩ := (aborts_step h).1.spares hf
  have hcomes := comes_step o m
  rw [h] at hcomes
  exact ⟨hturtle, hcomes.resumes rfl, hlog⟩

/-- A color command in a loop: its first two components have values, the third one has none. -/
theorem fault_spares_turtle_color :
    ∃ m m' : Machine, m.frames ≠ [] ∧
      m.step {} = (m', .aborted (.fault (.param (.undefined "x")) (some 2))) ∧
      m.state.SameTurtle m'.state ∧ List.Forall₂ Frame.Resumes m.frames m'.frames := by
  let hue : HsvParam := .absolute (.lit 10)
  let body : List Instr := [.hsv hue (.offset .plus (.lit 5)) (.absolute (.var "x")) (some 2)]
  let m : Machine :=
    ⟨[], [.enter (.count 2) body (some 1)], .start {}, .running⟩
  have hstep : m.step {} = (_, .aborted (.fault (.param (.undefined "x")) (some 2))) := rfl
  obtain ⟨hturtle, hframes, -⟩ := fault_spares_turtle hstep nofun
  exact ⟨m, _, nofun, hstep, hturtle, hframes⟩

end PixelTurtle
