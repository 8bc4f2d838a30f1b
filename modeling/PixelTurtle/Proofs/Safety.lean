import PixelTurtle.Proofs.Endings
import PixelTurtle.Proofs.Events
import PixelTurtle.Proofs.Proper

/-!
# Programs that were read do not get stuck

A proper program stays proper while it runs: the frames hold bodies of the program, and
whenever a jump comes up there is a frame of a loop. It therefore aborts only for its values and its
limits, and a fault of its own has the line of an instruction.

* `Abort.Regular` are the aborts of a program that does not get stuck. `Instr.Aborts.regular` says
  that those of a proper instruction are.
* `Machine.Proper` is the invariant of a run. `safe_step` says what one event does with it, and
  `Reaches.proper` that it holds of all reachable machines.
* `parsed_never_stuck` is the theorem for the engines.
-/

namespace PixelTurtle

/-! ## Regular aborts -/

/-- Whether a fault is that of a value or of a limit. The others are those of a program from outside
the language, and that of a host which has cancelled the run. -/
def Fault.isRegular : Fault → Bool
  | .outsideLoop _ => false
  | .unknownInstr _ => false
  | .param (.unknown _) => false
  | .cancelled => false
  | _ => true

/-- The program did not get stuck. If it stopped with a fault, `p` holds of the line. -/
def Abort.Regular (p : Option Int → Prop) : Abort → Prop
  | .fault f line => f.isRegular = true ∧ p line
  | .expr _ => False
  | .noDirection => True
  | .noCell _ => True

/-! ## Instructions -/

section Instructions

variable {p : Option Int → Prop} {inLoop : Bool} {o : Options} {s s' : RunState} {i : Instr}
  {a : Abort}

/-- What a proper instruction evaluates belongs to the language. -/
theorem Instr.Proper.given (h : i.Proper p inLoop) {q : Quantity} {e : Option Expr}
    (he : i.reads? = some (q, e)) : Expr.Given e := by
  cases i with
  | move way x line =>
    cases he
    exact ⟨x, rfl, h.1⟩
  | turn side x line =>
    cases he
    exact ⟨x, rfl, h.1⟩
  | assign name x reassign line =>
    cases he
    exact ⟨x, rfl, h.1⟩
  | loop mode count until? body line =>
    cases mode with
    | _ =>
      cases he
      exact h.1
  | branch test body line =>
    cases he
    exact ⟨test, rfl, h.1⟩
  | _ => cases he

/-- An expression of the language fails only for its value. -/
theorem Unread.regular {env : Env} {q : Quantity} {line : Option Int} {e : Option Expr}
    (h : Unread env q line e a) (he : Expr.Given e) (hl : p line) : a.Regular p := by
  cases h with
  | expr herror =>
    obtain ⟨e, rfl, hknown⟩ := he
    obtain ⟨x, hx⟩ := Expr.exists_evaluate hknown env
    cases hx.symm.trans herror
  | notFinite => exact ⟨rfl, hl⟩

theorem Instr.Stops.regular (h : i.Stops o s a s') (hi : i.Proper p inLoop) : a.Regular p := by
  have hl := hi.line
  cases h with
  | unread hreads hunread => exact hunread.regular (hi.given hreads) hl
  | noDirection _ => trivial
  | brokenLine _ _ _ hbroken =>
    cases hbroken with
    | _ => exact ⟨rfl, hl⟩
  | untoldPen _ _ _ => trivial
  | @noColor _ _ _ _ f hcolor =>
    refine ⟨?_, hl⟩
    obtain ⟨⟨hh, hs, hv⟩, -⟩ := hi
    cases f with
    | undefined name => rfl
    | unknown kind => exact absurd hcolor (Hsv.change_ne_unknown _ kind _ hh hs hv)
  | _ => exact ⟨rfl, hl⟩

/-- **A proper instruction aborts only regularly.** -/
theorem Instr.Aborts.regular (h : i.Aborts o s a s') (hi : i.Proper p inLoop) : a.Regular p := by
  cases h with
  | unknown => exact hi.elim
  | outOfSteps _ => exact ⟨rfl, hi.line⟩
  | stopped _ hstops => exact hstops.regular hi

/-- A proper instruction jumps only inside a loop. -/
theorem Instr.Completes.jump_inLoop {j : Jump} (h : i.Completes o s (.jump j) s')
    (hi : i.Proper p inLoop) : inLoop = true := by
  cases h with
  | breakLoop => exact hi.1
  | continueLoop => exact hi.1

end Instructions

/-! ## Frames -/

variable {p : Option Int → Prop} {inLoop : Bool} {o : Options}

/-- The frame is that of a body of a proper instruction; `outer` tells whether a loop surrounds
the instruction. -/
structure Frame.Proper (p : Option Int → Prop) (outer : Bool) (f : Frame) : Prop where
  body : ProperAll p (f.isLoop || outer) f.body
  rest : ProperAll p (f.isLoop || outer) f.rest
  condition : ∀ e, f.kind = .until e → Expr.Given e
  line : p f.line

/-- The frames are proper, the innermost one first. -/
def FramesProper (p : Option Int → Prop) : List Frame → Prop
  | [] => True
  | f :: fs => f.Proper p (fs.any Frame.isLoop) ∧ FramesProper p fs

theorem proper_enter {kind : FrameKind} {body : List Instr} {line : Option Int}
    (hbody : ProperAll p ((Frame.enter kind body line).isLoop || inLoop) body)
    (hkind : ∀ e, kind = .until e → Expr.Given e) (hl : p line) :
    (Frame.enter kind body line).Proper p inLoop :=
  ⟨hbody, hbody, hkind, hl⟩

/-- A proper instruction opens a proper frame. -/
theorem Instr.Opens.proper {env : Env} {i : Instr} {f : Frame} (h : i.Opens env f)
    (hi : i.Proper p inLoop) : f.Proper p inLoop := by
  cases h with
  | count _ _ _ _ => exact proper_enter hi.2.1 nofun hi.2.2
  | @«until» mode count until? body line hmode =>
    refine proper_enter hi.2.1 (fun e he => ?_) hi.2.2
    cases he
    cases mode with
    | first => exact absurd rfl hmode
    | second => exact hi.1
    | other word hw => exact hi.1
  | branch _ => exact proper_enter hi.2.1 nofun hi.2.2

theorem Frame.Repeats.proper {f g : Frame} (h : f.Repeats g) (hf : f.Proper p inLoop) :
    g.Proper p inLoop := by
  cases h with
  | count => exact ⟨hf.body, hf.rest, nofun, hf.line⟩
  | «until» => exact hf

/-! ## Events -/

/-- What is left to run is proper. -/
structure Machine.Proper (p : Option Int → Prop) (m : Machine) : Prop where
  rest : ProperAll p false m.rest
  frames : FramesProper p m.frames

/-- If the event was aborted, then regularly. -/
def Event.Regular (p : Option Int → Prop) : Event → Prop
  | .aborted a => a.Regular p
  | _ => True

/-- The event was regular, and left a proper machine behind. -/
def Safe (p : Option Int → Prop) (r : Machine × Event) : Prop :=
  r.1.Proper p ∧ r.2.Regular p

section Events

variable {i : Instr} {rest : List Instr} {frames : List Frame} {m : Machine}

theorem safe_abort (frames : List Frame) (hrest : ProperAll p false rest)
    (hframes : FramesProper p frames) (state : RunState) {a : Abort} (ha : a.Regular p) :
    Safe p (Machine.abort rest frames state a) := by
  cases a with
  | _ => exact ⟨⟨hrest, hframes⟩, ha⟩

/-- Inside a loop there is a frame to jump to, with proper frames around it. -/
theorem exists_unwind (hframes : FramesProper p frames)
    (hloop : frames.any Frame.isLoop = true) :
    ∃ f outer, unwind frames = some (f, outer) ∧ f.Proper p (outer.any Frame.isLoop) ∧
      FramesProper p outer := by
  induction frames with
  | nil => cases hloop
  | cons f fs ih =>
    obtain ⟨hf, hfs⟩ := hframes
    rw [unwind]
    split
    · exact ⟨f, fs, rfl, hf, hfs⟩
    · rename_i hnot
      refine ih hfs ?_
      rwa [List.any_cons, Bool.eq_false_of_not_eq_true hnot, Bool.false_or] at hloop

/-- The next instruction of a proper machine is proper, and so is what comes after it. -/
theorem Machine.Fetches.proper (h : m.Fetches i rest frames) (hm : m.Proper p) :
    i.Proper p (frames.any Frame.isLoop) ∧ ProperAll p false rest ∧ FramesProper p frames := by
  obtain ⟨hrest, hframes⟩ := hm
  cases h with
  | top => exact ⟨hrest.1, hrest.2, trivial⟩
  | inside =>
    obtain ⟨hf, houter⟩ := hframes
    exact ⟨hf.rest.1, hrest, ⟨hf.body, hf.rest.2, hf.condition, hf.line⟩, houter⟩

theorem Machine.Comes.safe {r : Machine × Event} (h : m.Comes o r) (hm : m.Proper p) :
    Safe p r := by
  cases h with
  | halted _ => exact ⟨hm, trivial⟩
  | completed => exact ⟨⟨trivial, trivial⟩, trivial⟩
  | aborted hfetch haborts =>
    obtain ⟨hi, hrest, hframes⟩ := hfetch.proper hm
    exact safe_abort _ hrest hframes _ (haborts.regular hi)
  | next hfetch _ _ =>
    obtain ⟨-, hrest, hframes⟩ := hfetch.proper hm
    exact ⟨⟨hrest, hframes⟩, trivial⟩
  | moved hfetch _ _ =>
    obtain ⟨-, hrest, hframes⟩ := hfetch.proper hm
    exact ⟨⟨hrest, hframes⟩, trivial⟩
  | enter hfetch _ hdone =>
    obtain ⟨hi, hrest, hframes⟩ := hfetch.proper hm
    cases hdone with
    | enter hopens => exact ⟨⟨hrest, hopens.proper hi, hframes⟩, trivial⟩
  | breakLoop hfetch _ hdone hunwind =>
    obtain ⟨hi, hrest, hframes⟩ := hfetch.proper hm
    obtain ⟨f, outer, hunwind', -, houter⟩ := exists_unwind hframes (hdone.jump_inLoop hi)
    cases hunwind.symm.trans hunwind'
    exact ⟨⟨hrest, houter⟩, trivial⟩
  | continueLoop hfetch _ hdone hunwind =>
    obtain ⟨hi, hrest, hframes⟩ := hfetch.proper hm
    obtain ⟨f, outer, hunwind', hf, houter⟩ := exists_unwind hframes (hdone.jump_inLoop hi)
    cases hunwind.symm.trans hunwind'
    exact ⟨⟨hrest, ⟨hf.body, trivial, hf.condition, hf.line⟩, houter⟩, trivial⟩
  | outsideLoop hfetch _ hdone hunwind =>
    obtain ⟨hi, -, hframes⟩ := hfetch.proper hm
    obtain ⟨f, outer, hunwind', -, -⟩ := exists_unwind hframes (hdone.jump_inLoop hi)
    cases hunwind.symm.trans hunwind'
  | left _ => exact ⟨⟨hm.rest, hm.frames.2⟩, trivial⟩
  | again _ hrepeats _ =>
    have hg := hrepeats.proper hm.frames.1
    exact ⟨⟨hm.rest, ⟨hg.body, hg.body, hg.condition, hg.line⟩, hm.frames.2⟩, trivial⟩
  | outOfSteps _ hrepeats _ =>
    have hg := hrepeats.proper hm.frames.1
    exact safe_abort (_ :: _) hm.rest ⟨hg, hm.frames.2⟩ _ ⟨rfl, hg.line⟩
  | unread _ hkind hunread =>
    obtain ⟨hf, -⟩ := hm.frames
    exact safe_abort _ hm.rest hm.frames _ (hunread.regular (hf.condition _ hkind) hf.line)

end Events

variable {m m₀ : Machine} {past : List Machine}

/-- **An event keeps a machine proper, and aborts only regularly.** -/
theorem safe_step (h : m.Proper p) : Safe p (m.step o) :=
  (comes_step o m).safe h

theorem Machine.Proper.cancel (h : m.Proper p) : m.cancel.Proper p := by
  obtain ⟨rest, frames, state, status⟩ := m
  cases status <;> exact ⟨h.1, h.2⟩

/-- All that a host arrives at is proper. -/
theorem Reaches.proper (h : Reaches o m₀ past m) (h₀ : m₀.Proper p) : m.Proper p := by
  induction h with
  | start => exact h₀
  | step _ ih => exact (safe_step ih).1
  | cancel _ ih => exact ih.cancel

/-! ## Engines -/

/-- The run did not fail because the program got stuck. If it stopped with a fault, then `p` holds
of the line, or the host has cancelled it. -/
def Failure.Regular (p : Option Int → Prop) : Failure → Prop
  | .runtime f line _ => f = .cancelled ∨ f.isRegular = true ∧ p line
  | .expr _ => False
  | .noDirection => True
  | .noCell _ => True
  | .unfinished => True

section Engines

variable {program : List Instr}

theorem regular_failure {a : Abort} (ha : a.Regular p) (m : Machine) : (m.failure a).Regular p := by
  cases a with
  | fault f line =>
    unfold Machine.failure
    cases m.result with
    | ok r => exact .inr ha
    | error reason => trivial
  | expr e => exact ha
  | noDirection => trivial
  | noCell reason => trivial

theorem regular_of_step {m' : Machine} {a : Abort} (hm : m.Proper p)
    (h : m.step o = (m', .aborted a)) : a.Regular p := by
  have hsafe := safe_step (o := o) hm
  rw [h] at hsafe
  exact hsafe.2

theorem regular_of_ends {r : Run} (hm : m.Proper p) (h : m.Ends o r) {e : Failure}
    (he : r.outcome = .error e) : e.Regular p := by
  cases h with
  | @ended m' _ =>
    simp only [Machine.success] at he
    split at he
    · cases he
    · cases he
      trivial
  | @aborted m' a hstep =>
    cases he
    exact regular_failure (regular_of_step hm hstep) m'
  | cancelled =>
    cases he
    unfold Machine.failure
    cases m.cancel.result with
    | ok r => exact .inl rfl
    | error reason => trivial

theorem proper_start (hp : ProperAll p false program)
    (h : Machine.start o program = .ok m₀) : m₀.Proper p := by
  unfold Machine.start at h
  split at h
  · cases h
    exact ⟨hp, trivial⟩
  · cases h

theorem regular_notStarted {a : Abort} {state : RunState}
    (h : Machine.start o program = .error (a, state)) {e : Failure}
    (he : (Run.notStarted a state).outcome = .error e) : e.Regular p := by
  cases hcell : Cell.ofPoint o.startX o.startY with
  | ok cell =>
    rw [start_of_cell hcell] at h
    cases h
  | error reason =>
    rw [start_of_astray hcell] at h
    split_ifs at h
    cases h
    cases he
    have hastray : (Abort.noCell reason).Regular p := trivial
    exact regular_failure hastray _

theorem regular_interpretAsync (hp : ProperAll p false program) {signal : CancelSignal}
    {e : Failure} (he : (interpretAsync o signal program).run.outcome = .error e) :
    e.Regular p := by
  cases h : Machine.start o program with
  | error start =>
    rw [interpretAsync, h] at he
    exact regular_notStarted h he
  | ok m₀ =>
    rcases interpretAsync_ends h with hendless | ⟨past, m, hpast, hends⟩
    · rw [hendless] at he
      cases he
      trivial
    · exact regular_of_ends (hpast.1.proper (proper_start hp h)) hends he

theorem regular_interpret (hp : ProperAll p false program) {e : Failure}
    (he : (interpret o program).outcome = .error e) : e.Regular p := by
  rw [← interpretAsync_never] at he
  exact regular_interpretAsync hp he

theorem regular_stepReplies (hm : m.Proper p) {calls : List HostCall} {e : Failure}
    (he : .error e ∈ m.stepReplies o calls) : e.Regular p := by
  rcases Machine.exists_of_mem_stepReplies he with rfl | ⟨past, last, m', a, hpast, hstep, rfl⟩
  · trivial
  · exact regular_failure (regular_of_step (hpast.proper hm) hstep) m'

end Engines

/-- **A program that was read from a text does not get stuck.** No event of any run aborts for an
expression, a jump, an instruction or a parameter from outside the language, and if it stops the run
with a fault, then at the line of a statement. Hence no engine fails in such a way, whenever its
host cancels the run, and no host that makes one movement at a time meets such a failure. -/
theorem parsed_never_stuck {source : String} {program : List Instr}
    (h : Source.parse source = .ok program) (o : Options) :
    (∀ m₀ past m a, Machine.start o program = .ok m₀ → Reaches o m₀ past m →
      (m.step o).2 = .aborted a → a.Regular (Source.IsStatementLine source)) ∧
    (∀ e, (interpret o program).outcome = .error e →
      e.Regular (Source.IsStatementLine source)) ∧
    (∀ signal e, (interpretAsync o signal program).run.outcome = .error e →
      e.Regular (Source.IsStatementLine source)) ∧
    (∀ e, (interpretStepping o program).outcome = .error e →
      e.Regular (Source.IsStatementLine source)) ∧
    (∀ m₀ calls e, Machine.start o program = .ok m₀ → .error e ∈ m₀.stepReplies o calls →
      e.Regular (Source.IsStatementLine source)) := by
  have hp := Source.properAll_of_parse h
  refine ⟨fun m₀ past m a hstart hreach ha => ?_, fun e he => regular_interpret hp he,
    fun signal e he => regular_interpretAsync hp he, fun e he => ?_, fun m₀ calls e hstart he => ?_⟩
  · exact regular_of_step (hreach.proper (proper_start hp hstart)) (Prod.ext rfl ha)
  · rw [interpretStepping_eq] at he
    exact regular_interpret hp he
  · exact regular_stepReplies (proper_start hp hstart) he

/-- A loop whose body is run once more than the budget allows stops at the line of a statement. -/
theorem rewind_never_stuck :
    ∃ program m₀ past m line, Source.parse "repeat 2:\n  pen down" = .ok program ∧
      Machine.start { maxSteps := some 2 } program = .ok m₀ ∧
      Reaches { maxSteps := some 2 } m₀ past m ∧
      (m.step { maxSteps := some 2 }).2 = .aborted (.fault .stepLimit line) ∧
      (Abort.fault .stepLimit line).Regular (Source.IsStatementLine "repeat 2:\n  pen down") := by
  have hrun : ((Source.parse "repeat 2:\n  pen down").toOption.bind fun program =>
      (Machine.start { maxSteps := some 2 } program).toOption.map fun m =>
        ((m.after { maxSteps := some 2 } 2).step { maxSteps := some 2 }).2.overrun) = some 1 := by
    decide +kernel
  cases hparse : Source.parse "repeat 2:\n  pen down" with
  | error e =>
    rw [hparse] at hrun
    cases hrun
  | ok program =>
    rw [hparse] at hrun
    have hover : ((Machine.mk program [] (.start { maxSteps := some 2 }) .running).after
        { maxSteps := some 2 } 2 |>.step { maxSteps := some 2 }).2.overrun = 1 :=
      Option.some.inj hrun
    obtain ⟨line, hline⟩ := hitsLimit_of_overrun (by rw [hover]; exact Nat.one_ne_zero)
    exact ⟨program, _, _, _, line, rfl, rfl, .step (.step .start), hline,
      (parsed_never_stuck hparse _).1 _ _ _ _ rfl (.step (.step .start)) hline⟩

end PixelTurtle
