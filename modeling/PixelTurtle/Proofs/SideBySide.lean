import PixelTurtle.Proofs.Plan
import PixelTurtle.Proofs.Spending

/-!
# Two runs side by side

Two runs of one program with different options do the same instructions, and differ only in what
comes of counting steps, logging, calling the renderer and drawing. So what relates these actions of
the one run to those of the other, and goes along with the ways to build actions, relates all
instructions and events of the two.

* `Attuned` says that the two runs get on alike with telling their renderers where the turtle is.
* `SideBySide` says what a relation between actions has to satisfy.
* `SideBySide.rel_perform` follows from it for instructions, `SideBySide.rel_plan` for events.
-/

namespace PixelTurtle

/-! ## Relations between actions -/

/-- Where the turtle is, both runs or neither can tell their renderer: it has a cell, or the one has
a renderer if the other has. -/
def Attuned (o o' : Options) (s : RunState) : Prop :=
  s.Placed ∨ o'.renderer.isSome = o.renderer.isSome

def Operation.isPlot : Operation → Bool
  | .plot _ _ => true
  | _ => false

/-- A change of the turtle or the variables, which has nothing to do with the steps, the log, the
calls and the reported cells. -/
def OfTurtle (g : RunState → RunState) : Prop :=
  ∀ s log calls pixels steps,
    g { s with log := log, calls := calls, pixels := pixels, steps := steps } =
      { g s with log := log, calls := calls, pixels := pixels, steps := steps }

/-- `R s x x'` relates an action of a run with the options `o`, which is in the state `s`, to one of
a run with the options `o'`, which has the same turtle and the same variables. It holds of the
actions for which the options matter, and goes along with the ways to build actions. -/
structure SideBySide (R : ∀ {α : Type}, RunState → Action α → Action α → Prop) (o o' : Options) :
    Prop where
  rel_pure : ∀ {α : Type} (s : RunState) (a : α), R s (pure a) (pure a)
  rel_throw : ∀ {α : Type} (s : RunState) (e : Abort), R s (throw e : Action α) (throw e)
  rel_bind : ∀ {α β : Type} {s : RunState} {x x' : Action α} {f f' : α → Action β}, R s x x' →
    (∀ a s', x s = .ok a s' → R s' (f a) (f' a)) → R s (x >>= f) (x' >>= f')
  rel_get : ∀ {β : Type} {s : RunState} {f f' : RunState → Action β},
    (∀ t, s.SameTurtle t → R s (f s) (f' t)) → R s (get >>= f) (get >>= f')
  rel_modify : ∀ {g : RunState → RunState} (s : RunState), OfTurtle g → R s (modify g) (modify g)
  rel_tick : ∀ s line, R s (tick o line) (tick o' line)
  rel_record : ∀ {op : Operation} s line, op.isPlot = false →
    R s (record o line op) (record o' line op)
  rel_call : ∀ {c : Call} s, c.isDraw = false → R s (call o c) (call o' c)
  rel_sync : ∀ {s : RunState}, Attuned o o' s → R s (sync o) (sync o')
  rel_draw : ∀ s line cell, R s (draw o line cell) (draw o' line cell)

namespace OfTurtle

variable {g : RunState → RunState} (hg : OfTurtle g) (s : RunState)

include hg

theorem log : (g s).log = s.log :=
  (congrArg RunState.log (hg s s.log s.calls s.pixels s.steps) :)

theorem calls : (g s).calls = s.calls :=
  (congrArg RunState.calls (hg s s.log s.calls s.pixels s.steps) :)

theorem pixels : (g s).pixels = s.pixels :=
  (congrArg RunState.pixels (hg s s.log s.calls s.pixels s.steps) :)

theorem steps : (g s).steps = s.steps :=
  (congrArg RunState.steps (hg s s.log s.calls s.pixels s.steps) :)

end OfTurtle

section Attuned

variable {o o' : Options} {s s' : RunState}

theorem Attuned.of_position (h : Attuned o o' s) (hx : s'.x = s.x) (hy : s'.y = s.y) :
    Attuned o o' s' := by
  rcases h with ⟨cell, hcell⟩ | h
  · exact .inl ⟨cell, by rw [hx, hy, hcell]⟩
  · exact .inr h

theorem Attuned.of_tick {line : Option Int} {u : Unit} (hs : Attuned o o' s)
    (h : tick o line s = .ok u s') : Attuned o o' s' := by
  rw [tick_eq] at h
  split_ifs at h
  cases h
  exact hs.of_position rfl rfl

end Attuned

namespace SideBySide

variable {R : ∀ {α : Type}, RunState → Action α → Action α → Prop} {o o' : Options}
  (h : SideBySide R o o') {s : RunState} {line : Option Int}

include h

/-! ## Values -/

theorem rel_number (s : RunState) (q : Quantity) (line : Option Int) (e : Option Expr) :
    R s (number q line e) (number q line e) := by
  refine h.rel_get fun t ht => ?_
  rw [ht.vars]
  cases (e.getD (.foreign "NoneType")).evaluate s.vars with
  | error err => exact h.rel_throw s _
  | ok x =>
    simp only
    split_ifs
    · exact h.rel_pure s x
    · exact h.rel_throw s _

theorem rel_holds (s : RunState) (line : Option Int) (condition : Option Expr) :
    R s (holds line condition) (holds line condition) :=
  h.rel_bind (h.rel_number s _ _ _) fun _ s _ => h.rel_pure s _

theorem rel_direction (s : RunState) (heading : Float) :
    R s (direction heading) (direction heading) := by
  unfold direction
  simp only
  split_ifs
  · exact h.rel_throw s _
  · exact h.rel_pure s _

theorem rel_cellOf (s : RunState) (x y : Float) : R s (cellOf x y) (cellOf x y) := by
  unfold cellOf
  cases Cell.ofPoint x y with
  | ok cell => exact h.rel_pure s cell
  | error reason => exact h.rel_throw s _

/-! ## Instructions -/

theorem rel_drawWalk (s : RunState) (line : Option Int) (n : Nat) (walk : Walk) :
    R s (drawWalk o line n walk) (drawWalk o' line n walk) := by
  induction n generalizing walk s with
  | zero => exact h.rel_pure s ()
  | succ n ih => exact h.rel_bind (h.rel_draw s _ _) fun _ s _ => ih s _

theorem rel_drawLine (s : RunState) (line : Option Int) (x y : Float) :
    R s (drawLine o line x y) (drawLine o' line x y) := by
  refine h.rel_get fun t ht => ?_
  rw [ht.x, ht.y]
  refine h.rel_bind (h.rel_cellOf s _ _) fun a s _ => ?_
  exact h.rel_bind (h.rel_cellOf s _ _) fun b s _ => h.rel_drawWalk s _ _ _

/-- The turtle arrives at a point, which is finite and therefore has a cell. -/
theorem rel_arrive (s : RunState) (line : Option Int) {x y : Float} (hx : x.isFinite = true)
    (hy : y.isFinite = true) :
    R s (do
      modify fun s => { s with x := x, y := y }
      sync o
      let cell ← cellOf x y
      record o line (.move cell)) (do
      modify fun s => { s with x := x, y := y }
      sync o'
      let cell ← cellOf x y
      record o' line (.move cell)) := by
  refine h.rel_bind (h.rel_modify s fun _ _ _ _ _ => rfl) fun _ s₁ hs₁ => ?_
  cases hs₁
  refine h.rel_bind (h.rel_sync (.inl (Cell.exists_ofPoint hx hy))) fun _ s₂ _ => ?_
  exact h.rel_bind (h.rel_cellOf s₂ _ _) fun _ s _ => h.rel_record s line rfl

theorem rel_move (s : RunState) (way : Way) (e : Expr) (line : Option Int) :
    R s (move o way e line) (move o' way e line) := by
  refine h.rel_bind (h.rel_number s _ _ _) fun amount s _ => h.rel_get fun t ht => ?_
  simp only
  rw [ht.x, ht.y, ht.heading, ht.penDown]
  refine h.rel_bind (h.rel_direction s _) fun d s _ => ?_
  split_ifs with hfar hdown hdown
  · exact h.rel_bind (h.rel_throw s _) nofun
  · exact h.rel_bind (h.rel_throw s _) nofun
  · rw [Bool.not_eq_true', Bool.not_eq_false, Bool.and_eq_true] at hfar
    exact h.rel_bind (h.rel_drawLine s line _ _) fun _ s _ => h.rel_arrive s line hfar.1 hfar.2
  · rw [Bool.not_eq_true', Bool.not_eq_false, Bool.and_eq_true] at hfar
    exact h.rel_arrive s line hfar.1 hfar.2

theorem rel_turn (s : RunState) (side : Side) (e : Expr) (line : Option Int) :
    R s (turn o side e line) (turn o' side e line) := by
  refine h.rel_bind (h.rel_number s _ _ _) fun amount s _ => ?_
  refine h.rel_bind (h.rel_modify s fun _ _ _ _ _ => rfl) fun _ s _ => h.rel_get fun t ht => ?_
  simp only
  rw [ht.heading]
  exact h.rel_bind (h.rel_record s line rfl) fun _ s _ => h.rel_call s rfl

/-- Neither the pen nor its entry moves the turtle, which is still where it was when the renderer is
told. -/
theorem rel_setPen (hs : Attuned o o' s) (down : Bool) (line : Option Int) :
    R s (setPen o down line) (setPen o' down line) := by
  refine h.rel_bind (h.rel_modify s fun _ _ _ _ _ => rfl) fun _ s₁ hs₁ => ?_
  cases hs₁
  refine h.rel_bind (h.rel_record _ line rfl) fun _ s₂ hs₂ => h.rel_sync ?_
  rw [record_eq_noted] at hs₂
  split_ifs at hs₂
  cases hs₂
  exact hs.of_position rfl rfl

theorem rel_setColor (s : RunState) (hue sat val : HsvParam) (line : Option Int) :
    R s (setColor o hue sat val line) (setColor o' hue sat val line) := by
  refine h.rel_get fun t ht => ?_
  rw [ht.vars, ht.color]
  cases Hsv.change s.vars s.color hue sat val with
  | error f => exact h.rel_throw s _
  | ok color =>
    exact h.rel_bind (h.rel_modify s fun _ _ _ _ _ => rfl) fun _ s _ => h.rel_record s line rfl

theorem rel_assign (s : RunState) (name : String) (e : Expr) (reassign : Bool)
    (line : Option Int) :
    R s (assign name e reassign line) (assign name e reassign line) := by
  refine h.rel_bind (h.rel_number s _ _ _) fun x s _ => h.rel_get fun t ht => ?_
  simp only
  rw [ht.vars]
  split_ifs
  · exact h.rel_bind (h.rel_throw s _) nofun
  · exact h.rel_modify s fun _ _ _ _ _ => rfl

theorem rel_startLoop (s : RunState) (mode : LoopMode) (count until? : Option Expr)
    (body : List Instr) (line : Option Int) :
    R s (startLoop mode count until? body line) (startLoop mode count until? body line) := by
  have wait : R s (do
      if ← holds line until? then return .next
      else return .enter (.enter (.until until?) body line) : Action Signal) (do
      if ← holds line until? then return .next
      else return .enter (.enter (.until until?) body line)) := by
    refine h.rel_bind (h.rel_holds s _ _) fun b s _ => ?_
    cases b with
    | _ => exact h.rel_pure s _
  cases mode with
  | first =>
    refine h.rel_bind (h.rel_number s _ _ _) fun x s _ => ?_
    cases Number.floor x with
    | error reason => exact h.rel_throw s _
    | ok times =>
      simp only
      split_ifs
      · exact h.rel_pure s _
      · exact h.rel_pure s _
  | second => exact wait
  | other word hw => exact wait

theorem rel_startBranch (s : RunState) (test : Expr) (body : List Instr) (line : Option Int) :
    R s (startBranch test body line) (startBranch test body line) := by
  refine h.rel_bind (h.rel_number s _ _ _) fun x s _ => ?_
  split_ifs
  · exact h.rel_pure s _
  · exact h.rel_pure s _

theorem rel_effect (hs : Attuned o o' s) (i : Instr) : R s (effect o i) (effect o' i) := by
  have done {x x' : Action Unit} (hx : R s x x') (signal : Signal) : R s (do
      x
      return signal) (do
      x'
      return signal) :=
    h.rel_bind hx fun _ s _ => h.rel_pure s _
  cases i with
  | move way e line => exact done (h.rel_move s way e line) _
  | turn side e line => exact done (h.rel_turn s side e line) _
  | pen state line => exact done (h.rel_setPen hs _ line) _
  | hsv hue sat val line => exact done (h.rel_setColor s hue sat val line) _
  | assign name e reassign line => exact done (h.rel_assign s name e reassign line) _
  | loop mode count until? body line => exact h.rel_startLoop s mode count until? body line
  | branch test body line => exact h.rel_startBranch s test body line
  | breakLoop line => exact h.rel_pure s _
  | continueLoop line => exact h.rel_pure s _
  | foreign kind => exact h.rel_throw s _

/-- **Every instruction of the one run is related to that of the other.** -/
theorem rel_perform (hs : Attuned o o' s) (i : Instr) : R s (perform o i) (perform o' i) := by
  cases i with
  | foreign kind => exact h.rel_throw s _
  | _ => exact h.rel_bind (h.rel_tick s _) fun _ s₁ hs₁ => h.rel_effect (hs.of_tick hs₁) _

/-! ## Events -/

/-- **So is every event.** -/
theorem rel_plan {m : Machine} (hm : Attuned o o' m.state) :
    R m.state (m.plan.action o) (m.plan.action o') := by
  refine Machine.action_plan (P := fun x => ∀ s, Attuned o o' s → R s (x o) (x o'))
    (fun s _ => h.rel_pure s _) (fun i s hs => h.rel_perform hs i)
    (fun line s _ => h.rel_tick s line) (fun line condition s _ => ?_) m m.state hm
  refine h.rel_bind (h.rel_holds s line condition) fun b s _ => ?_
  cases b with
  | true => exact h.rel_pure s _
  | false => exact h.rel_bind (h.rel_tick s line) fun _ s _ => h.rel_pure s _

end SideBySide

end PixelTurtle
