import PixelTurtle.Proofs.Events

/-!
# What an event adds to the log

An event makes an entry about the way of the turtle only if it is a movement: one entry when the
turtle turns, and one when it arrives somewhere, after those of the line it has drawn. A movement
that is stopped makes none but those of the line, and nothing else makes any.

* `RunState.Aside` says that the turtle has stayed where it was and that the new entries are about
  its pen and its color only.
* `MovedBy` is what a movement adds, and `StoppedAt` what an abort leaves of the log.
* `Machine.Logs` puts the cases together, and `logs_step` says that they are all.
-/

namespace PixelTurtle

/-! ## Entries about the way of the turtle -/

/-- Whether an entry is about the pen or the color. -/
def Operation.isAside : Operation → Bool
  | .pen _ => true
  | .hsv _ => true
  | _ => false

/-- From `s` to `s'` the turtle has stayed where it was, and the log has only gained entries about
its pen and its color. -/
structure RunState.Aside (s s' : RunState) : Prop where
  x : s'.x = s.x
  y : s'.y = s.y
  log : ∃ ops, (∀ op ∈ ops, op.isAside = true) ∧ s'.log.toList = s.log.toList ++ ops

/-- The instruction `i`, which is a movement, was carried out in the state `s` and led to `s'`. -/
inductive MovedBy (o : Options) (s : RunState) : Instr → RunState → Prop
  | move {way : Way} {e : Expr} {line : Option Int} {path : List Cell} {cell : Cell}
    {s' : RunState} : (if s.penDown then s.LineTo s'.x s'.y path else path = []) →
    Cell.ofPoint s'.x s'.y = .ok cell →
    s'.log.toList = s.log.toList ++ o.plots s.color path ++ [.move cell] →
    MovedBy o s (.move way e line) s'
  | turn {side : Side} {e : Expr} {line : Option Int} {s' : RunState} : s'.x = s.x → s'.y = s.y →
    s'.log.toList = s.log.toList ++ [.turn s'.heading] → MovedBy o s (.turn side e line) s'

/-- What the abort `a` leaves of what was begun in the state `s`. A fault may have stopped a
movement on its line, or when the turtle had arrived; then the log has gained the plots of the line
that far. Otherwise, nothing that was done is about the way of the turtle. -/
inductive StoppedAt (o : Options) (s : RunState) : Abort → RunState → Prop
  | aside {a : Abort} {s' : RunState} : s.Aside s' → StoppedAt o s a s'
  | line {f : Fault} {line : Option Int} {x y : Float} {path before : List Cell} {s' : RunState} :
    s.LineTo x y path → before <+: path →
    s'.log.toList = s.log.toList ++ o.plots s.color before → StoppedAt o s (.fault f line) s'
  | arrived {f : Fault} {line : Option Int} {s' : RunState} : s'.log = s.log →
    StoppedAt o s (.fault f line) s'

/-- What is added when an instruction has been carried out: by a movement what belongs to it, by the
others nothing about the way of the turtle. -/
def Instr.Adds (o : Options) (s : RunState) (i : Instr) : Signal → RunState → Prop
  | .moved, s' => MovedBy o s i s'
  | _, s' => s.Aside s'

/-- What an event of the machine `m` adds to the log. -/
def Machine.Logs (o : Options) (m : Machine) (r : Machine × Event) : Prop :=
  match r.2 with
  | .moved => ∃ i, m.next? = some i ∧ MovedBy o m.state i r.1.state
  | .aborted a => StoppedAt o m.state a r.1.state
  | _ => m.state.Aside r.1.state

section Instructions

variable {o : Options} {s s' : RunState} {i : Instr} {signal : Signal} {a : Abort}

theorem RunState.Aside.of_log (hx : s'.x = s.x) (hy : s'.y = s.y) (hlog : s'.log = s.log) :
    s.Aside s' :=
  ⟨hx, hy, [], nofun, by rw [hlog, List.append_nil]⟩

theorem RunState.Aside.refl (s : RunState) : s.Aside s :=
  .of_log rfl rfl rfl

theorem toList_log_noted (hr : o.record = true) (s : RunState) (op : Operation) :
    (s.noted o op).log.toList = s.log.toList ++ [op] := by
  rw [RunState.noted, if_pos hr, Array.toList_push]

/-- The log of a turtle that has arrived: the plots of its line, and the entry about its place. -/
theorem toList_log_arrived (hr : o.record = true) {x y : Float} {path : List Cell} {cell : Cell} :
    (({ s.walked o path with x := x, y := y }.told o cell).noted o (.move cell)).log.toList =
      s.log.toList ++ o.plots s.color path ++ [.move cell] := by
  rw [toList_log_noted hr, ← s.log_walked o path]
  rfl

/-- **What an instruction that is carried out adds.** -/
theorem Instr.Completes.adds (hr : o.record = true) (h : i.Completes o s signal s') :
    i.Adds o s signal s' := by
  cases h with
  | move _ hcell hpath _ _ => exact .move hpath hcell (toList_log_arrived hr)
  | turn _ _ _ => exact .turn rfl rfl (toList_log_noted hr _ _)
  | pen _ _ =>
    exact ⟨rfl, rfl, [.pen _], List.forall_mem_singleton.2 rfl, toList_log_noted hr _ _⟩
  | penAstray _ _ _ =>
    exact ⟨rfl, rfl, [.pen _], List.forall_mem_singleton.2 rfl, toList_log_noted hr _ _⟩
  | hsv _ _ =>
    exact ⟨rfl, rfl, [.hsv _], List.forall_mem_singleton.2 rfl, toList_log_noted hr _ _⟩
  | assign _ _ _ => exact .of_log rfl rfl rfl
  | _ => exact .refl s

/-- What one that is stopped leaves of the log. -/
theorem Instr.Stops.stoppedAt (hr : o.record = true) (h : i.Stops o s a s') :
    StoppedAt o s a s' := by
  cases h with
  | brokenLine _ _ hline hbroken =>
    cases hbroken with
    | @outOfSteps before last hbefore _ _ =>
      exact .line hline ((List.prefix_append before [last]).trans hbefore) (s.log_walked o before)
    | @outOfEntries before last hbefore _ _ _ _ =>
      exact .line hline ((List.prefix_append before [last]).trans hbefore) (s.log_walked o before)
  | @unloggedMove _ _ _ _ _ path _ _ _ hpath _ _ =>
    split_ifs at hpath
    · exact .line hpath List.prefix_rfl (s.log_walked o path)
    · rw [hpath]
      exact .arrived rfl
  | untoldPen _ _ _ =>
    exact .aside ⟨rfl, rfl, [.pen _], List.forall_mem_singleton.2 rfl, toList_log_noted hr _ _⟩
  | _ => exact .aside (.of_log rfl rfl rfl)

/-- Counting the step is no part of the way. -/
theorem StoppedAt.of_ticked {a : Abort} (h : StoppedAt o s.ticked a s') : StoppedAt o s a s' := by
  cases h with
  | aside h => exact .aside ⟨h.x, h.y, h.log⟩
  | line hline hbefore hlog => exact .line hline hbefore hlog
  | arrived hlog => exact .arrived hlog

theorem Instr.Adds.of_ticked {signal : Signal} (h : i.Adds o s.ticked signal s') :
    i.Adds o s signal s' := by
  cases signal with
  | moved =>
    cases h with
    | move hpath hcell hlog => exact .move hpath hcell hlog
    | turn hx hy hlog => exact .turn hx hy hlog
  | _ => exact ⟨h.x, h.y, h.log⟩

theorem Instr.Aborts.stoppedAt (hr : o.record = true) (h : i.Aborts o s a s') :
    StoppedAt o s a s' := by
  cases h with
  | unknown => exact .aside (.refl s)
  | outOfSteps _ => exact .aside (.of_log rfl rfl rfl)
  | stopped _ hstops => exact (hstops.stoppedAt hr).of_ticked

end Instructions

/-! ## Events -/

section Events

variable {o : Options} {s' : RunState} {m : Machine}

theorem logs_abort (rest : List Instr) (frames : List Frame) {a : Abort}
    (h : StoppedAt o m.state a s') : m.Logs o (Machine.abort rest frames s' a) := by
  cases a with
  | _ => exact h

theorem Machine.Comes.logs (hr : o.record = true) {r : Machine × Event} (h : m.Comes o r) :
    m.Logs o r := by
  have added {i : Instr} {signal : Signal} {s : RunState}
      (hdone : i.Completes o m.state.ticked signal s) : i.Adds o m.state signal s :=
    (hdone.adds hr).of_ticked
  have hticked : m.state.Aside m.state.ticked := .of_log rfl rfl rfl
  cases h with
  | halted _ => exact .refl m.state
  | completed => exact .refl _
  | aborted _ haborts => exact logs_abort _ _ (haborts.stoppedAt hr)
  | next _ _ hdone => exact added hdone
  | moved hfetch _ hdone => exact ⟨_, hfetch.next?, added hdone⟩
  | enter _ _ hdone => exact added hdone
  | breakLoop _ _ hdone _ => exact added hdone
  | continueLoop _ _ hdone _ => exact added hdone
  | outsideLoop _ _ hdone _ => exact .aside (added hdone)
  | left _ => exact .refl _
  | again _ _ _ => exact hticked
  | outOfSteps _ _ _ => exact .aside hticked
  | unread _ _ _ => exact logs_abort _ _ (.aside (.refl _))

/-- **What every event adds to the log of a run that is recorded.** -/
theorem logs_step (hr : o.record = true) (m : Machine) : m.Logs o (m.step o) :=
  (comes_step o m).logs hr

end Events

end PixelTurtle
