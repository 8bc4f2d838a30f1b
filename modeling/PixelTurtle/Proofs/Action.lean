import PixelTurtle.Run.Perform

/-!
# Reasoning about actions

An action ends with a value or with an abort, and with a state either way. What holds of both ends
is said by `Ensures`, and followed through an action step by step with the equivalences for the ways
to build one. The primitive actions are told by the state they lead to.

* `Options.allows`, `Options.fits` and `Options.takes` are the conditions on the budget, the log and
  the renderer.
* `RunState.ticked`, `noted`, `heard`, `told` and `painted` are the states after a step, an entry, a
  call, the calls about the pen, and the report and the call about a cell.
* `tick_eq`, `record_eq_noted`, `call_eq_heard`, `sync_of_cell`, `sync_of_astray` and `draw_eq` are
  the equations.
-/

namespace PixelTurtle

variable {α β : Type}

/-- Started in `s`, the action `x` ends with a value and a state of which `Q` holds, or with an
abort and a state of which `E` holds. -/
def Ensures (x : Action α) (s : RunState) (Q : α → RunState → Prop)
    (E : Abort → RunState → Prop) : Prop :=
  match x s with
  | .ok a s' => Q a s'
  | .error e s' => E e s'

variable {s : RunState} {Q : α → RunState → Prop} {E : Abort → RunState → Prop}

theorem Ensures.mono {x : Action α} {Q' : α → RunState → Prop} {E' : Abort → RunState → Prop}
    (h : Ensures x s Q E) (hQ : ∀ a s', Q a s' → Q' a s') (hE : ∀ e s', E e s' → E' e s') :
    Ensures x s Q' E' := by
  unfold Ensures at h ⊢
  cases hx : x s with
  | ok a s' =>
    rw [hx] at h
    exact hQ a s' h
  | error e s' =>
    rw [hx] at h
    exact hE e s' h

@[simp] theorem ensures_bind (x : Action α) (f : α → Action β) {Q : β → RunState → Prop} :
    Ensures (x >>= f) s Q E ↔ Ensures x s (fun a s' => Ensures (f a) s' Q E) E := by
  simp only [Ensures, bind, EStateM.bind]
  cases x s <;> rfl

@[simp] theorem ensures_get {Q : RunState → RunState → Prop} :
    Ensures get s Q E ↔ Q s s := Iff.rfl

@[simp] theorem ensures_modify (g : RunState → RunState) {Q : Unit → RunState → Prop} :
    Ensures (modify g) s Q E ↔ Q () (g s) := Iff.rfl

/-! ## The primitive actions -/

namespace Options

/-- Whether the budget allows a number of steps. -/
def allows (o : Options) (steps : Nat) : Bool :=
  match o.maxSteps with
  | none => true
  | some n => decide (steps ≤ n)

/-- Whether there is room in a log of the given size. -/
def hasRoom (o : Options) (size : Nat) : Bool :=
  match o.maxOperations with
  | none => true
  | some n => decide (size < n)

/-- Whether there is a renderer that takes a call. -/
def takes (o : Options) (c : Call) : Bool :=
  o.renderer.any (·.contains c.method)

end Options

namespace RunState

/-- The state after a step was counted. -/
def ticked (s : RunState) : RunState := { s with steps := s.steps + 1 }

/-- The state after an operation was logged. -/
def logged (s : RunState) (op : Operation) : RunState := { s with log := s.log.push op }

/-- The state after a call to the renderer. -/
def called (s : RunState) (c : Call) : RunState := { s with calls := s.calls.push c }

variable (s : RunState) (o : Options)

/-- The state after an operation was logged, if there is a log. -/
def noted (op : Operation) : RunState :=
  { s with log := if o.record then s.log.push op else s.log }

/-- The state after a call to the renderer, if there is one that takes it. -/
def heard (c : Call) : RunState :=
  { s with calls := if o.takes c then s.calls.push c else s.calls }

/-- The state after the renderer was told about the pen, which is over the given cell. -/
def told (cell : Cell) : RunState :=
  ((s.heard o (.penSet cell)).heard o (if s.penDown then .penDown else .penUp)).heard o
    (.setHeading s.heading)

/-- The state after a cell was reported and drawn. -/
def painted (cell : Cell) : RunState :=
  { s with pixels := if o.onPixel then s.pixels.push (cell, s.color) else s.pixels }.heard o
    (.drawPixel cell s.color)

end RunState

/-- Whether there is room for an entry in the log, if there is a log. -/
def Options.fits (o : Options) (s : RunState) : Bool :=
  !o.record || o.hasRoom s.log.size

theorem tick_eq (o : Options) (line : Option Int) (s : RunState) :
    tick o line s =
      if o.allows (s.steps + 1) then .ok () s.ticked
      else .error (.fault .stepLimit line) s.ticked := by
  unfold tick Options.allows
  cases o.maxSteps with
  | none => rfl
  | some n =>
    by_cases h : n < (s.steps + 1 : Nat)
    · have h' : ¬((s.steps + 1 : Nat) ≤ n) := by omega
      simp only [h', decide_false, Bool.false_eq_true, if_false]
      exact congrFun (if_pos h) _
    · have h' : (s.steps + 1 : Nat) ≤ n := by omega
      simp only [h', decide_true, if_true]
      exact congrFun (if_neg h) _

theorem record_eq (o : Options) (line : Option Int) (op : Operation) (s : RunState) :
    record o line op s =
      if !o.record then .ok () s
      else if o.hasRoom s.log.size then .ok () (s.logged op)
      else .error (.fault .outputLimit line) s := by
  unfold record Options.hasRoom
  cases o.record with
  | false => rfl
  | true =>
    cases o.maxOperations with
    | none => rfl
    | some n =>
      by_cases h : n ≤ s.log.size
      · have h' : ¬((s.log.size : Int) < n) := by omega
        simp only [h', decide_false, Bool.not_true, Bool.false_eq_true, if_false, if_true]
        exact congrFun (if_pos h) s
      · have h' : (s.log.size : Int) < n := by omega
        simp only [h', decide_true, Bool.not_true, Bool.false_eq_true, if_false, if_true]
        exact congrFun (if_neg h) s

theorem call_eq (o : Options) (c : Call) (s : RunState) :
    call o c s = .ok () (if o.takes c then s.called c else s) := by
  unfold call Options.takes
  cases o.renderer with
  | none => rfl
  | some methods =>
    by_cases h : methods.contains c.method = true
    · simp only [Option.any_some, if_pos h]
      rfl
    · simp only [Option.any_some, if_neg h]
      rfl

section Primitive

variable (o : Options) (s : RunState)

theorem record_eq_noted (line : Option Int) (op : Operation) :
    record o line op s =
      if o.fits s then .ok () (s.noted o op) else .error (.fault .outputLimit line) s := by
  rw [record_eq, Options.fits, RunState.noted]
  cases o.record with
  | false => rfl
  | true => rfl

/-- A log without a limit has room. -/
theorem fits_of_none (h : o.maxOperations = none) : o.fits s = true := by
  rw [Options.fits, Options.hasRoom, h, Bool.or_true]

theorem call_eq_heard (c : Call) : call o c s = .ok () (s.heard o c) := by
  rw [call_eq, RunState.heard]
  cases o.takes c with
  | false => rfl
  | true => rfl

theorem takes_eq_false (h : o.renderer = none) (c : Call) : o.takes c = false := by
  rw [Options.takes, h]
  rfl

theorem told_of_none (h : o.renderer = none) (cell : Cell) : s.told o cell = s := by
  simp only [RunState.told, RunState.heard, takes_eq_false o h, Bool.false_eq_true, if_false]

/-- Where there is nobody to tell, nothing is told. -/
theorem sync_of_none (h : o.renderer = none) : sync o s = .ok () s := by
  simp only [sync, h]
  rfl

theorem sync_of_some (h : o.renderer.isSome = true) :
    sync o s = (do
      let cell ← cellOf s.x s.y
      call o (.penSet cell)
      call o (if s.penDown then .penDown else .penUp)
      call o (.setHeading s.heading)) s := by
  simp only [sync, h]
  rfl

theorem sync_of_cell {cell : Cell} (h : Cell.ofPoint s.x s.y = .ok cell) :
    sync o s = .ok () (s.told o cell) := by
  cases hr : o.renderer with
  | none => rw [sync_of_none o s hr, told_of_none o s hr]
  | some methods =>
    rw [sync_of_some o s (by rw [hr]; rfl), cellOf, h]
    simp only [bind, EStateM.bind, pure, EStateM.pure, call_eq_heard]
    rfl

theorem sync_of_astray {reason : Number.NoInteger} (h : Cell.ofPoint s.x s.y = .error reason) :
    sync o s = if o.renderer.isSome then .error (.noCell reason) s else .ok () s := by
  cases hr : o.renderer with
  | none => exact sync_of_none o s hr
  | some methods =>
    rw [sync_of_some o s (by rw [hr]; rfl), cellOf, h]
    rfl

/-- A cell costs a step; if it is drawn, it is reported, drawn and logged, in this order. -/
theorem draw_eq (line : Option Int) (cell : Cell) :
    draw o line cell s = match tick o line s with
      | .error a s => .error a s
      | .ok _ s =>
        if o.inBounds cell then record o line (.plot cell s.color) (s.painted o cell)
        else .ok () s := by
  show EStateM.bind (tick o line) _ s = _
  rw [EStateM.bind]
  cases tick o line s with
  | error a s => rfl
  | ok u s =>
    simp only [RunState.painted]
    cases o.inBounds cell with
    | false => rfl
    | true =>
      cases o.onPixel with
      | false =>
        show EStateM.bind (call o (.drawPixel cell s.color)) _ s = _
        rw [EStateM.bind, call_eq_heard]
        rfl
      | true =>
        show EStateM.bind (call o (.drawPixel cell s.color)) _
          { s with pixels := s.pixels.push (cell, s.color) } = _
        rw [EStateM.bind, call_eq_heard]
        rfl

variable {o s}

theorem ensures_record_noted {line : Option Int} {op : Operation} {Q : Unit → RunState → Prop}
    (hQ : o.fits s = true → Q () (s.noted o op))
    (hE : o.fits s = false → E (.fault .outputLimit line) s) :
    Ensures (record o line op) s Q E := by
  rw [Ensures, record_eq_noted]
  cases h : o.fits s with
  | true => exact hQ h
  | false => exact hE h

theorem ensures_sync_of_cell {cell : Cell} {Q : Unit → RunState → Prop}
    (h : Cell.ofPoint s.x s.y = .ok cell) (hQ : Q () (s.told o cell)) :
    Ensures (sync o) s Q E := by
  rw [Ensures, sync_of_cell o s h]
  exact hQ

theorem ensures_sync_of_astray {reason : Number.NoInteger} {Q : Unit → RunState → Prop}
    (h : Cell.ofPoint s.x s.y = .error reason) (hQ : o.renderer.isSome = false → Q () s)
    (hE : o.renderer.isSome = true → E (.noCell reason) s) : Ensures (sync o) s Q E := by
  rw [Ensures, sync_of_astray o s h]
  cases hr : o.renderer.isSome with
  | true => exact hE hr
  | false => exact hQ hr

end Primitive

end PixelTurtle
