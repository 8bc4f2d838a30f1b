import PixelTurtle.Proofs.Lines

/-!
# How an instruction ends

An instruction is carried out, or it is stopped on the way. There are only a few ways to end for
each kind of instructions, and they are listed here with the conditions on the state that the
instruction was started in. Whatever is to be known of an instruction follows from these lists.

* `Instr.Completes` are the ways to be carried out, with the signal for the machine and the state
  that is left. `Instr.Stops` are the ways to be stopped, once the step has been counted, and
  `Instr.Aborts` are those together with the ways in which it does not come so far.
* `Instr.reads?` is the expression that an instruction evaluates, and `Unread` says why an
  expression has no value that could be used.
* `RunState.HeadsFor` is where a movement leads, and `Instr.Opens` the frame of a body.
* `perform_ends` says that the lists are complete. There is one lemma for each action, such as
  `move_ends`.
-/

namespace PixelTurtle

/-! ## What instructions are about -/

/-- What is covered by a movement that has an amount. -/
def Way.distance : Way → Float → Float
  | .back, amount => -amount
  | _, amount => amount

/-- What a turn adds to the heading. -/
def Side.delta : Side → Float → Float
  | .left, amount => -amount
  | _, amount => amount

/-- The movement by `e` leads to the point. -/
def RunState.HeadsFor (s : RunState) (way : Way) (e : Expr) (x y : Float) : Prop :=
  ∃ amount, e.evaluate s.vars = .ok amount ∧
    x = s.x + way.distance amount * (s.heading * degree).cos ∧
    y = s.y + way.distance amount * (s.heading * degree).sin

/-- A turtle that heads for a finite point has a cell. -/
theorem RunState.HeadsFor.placed {s : RunState} {way : Way} {e : Expr} {x y : Float}
    (h : s.HeadsFor way e x y) (hx : x.isFinite = true) (hy : y.isFinite = true) : s.Placed := by
  obtain ⟨amount, -, rfl, rfl⟩ := h
  refine placed_iff.2 ⟨?_, ?_⟩
  · by_contra hfar
    cases hx.symm.trans (Number.isFinite_add _ (Bool.eq_false_iff.2 hfar))
  · by_contra hfar
    cases hy.symm.trans (Number.isFinite_add _ (Bool.eq_false_iff.2 hfar))

/-- The expression that an instruction evaluates, and what its value is needed for. -/
def Instr.reads? : Instr → Option (Quantity × Option Expr)
  | .move _ e _ => some (.distance, some e)
  | .turn _ e _ => some (.angle, some e)
  | .assign name e _ _ => some (.value name, some e)
  | .loop .count count _ _ _ => some (.count, count)
  | .loop _ _ until? _ _ => some (.until, until?)
  | .branch test _ _ => some (.test, some test)
  | _ => none

/-- Why an expression has no value that could be used: it has none, or one that is not finite. -/
inductive Unread (env : Env) (q : Quantity) (line : Option Int) (e : Option Expr) : Abort → Prop
  | expr {err : EvalError} : (e.getD (.foreign "NoneType")).evaluate env = .error err →
    Unread env q line e (.expr err)
  | notFinite : Unread env q line e (.fault (.notFinite q) line)

/-- The frame that a loop or conditional opens when the variables are those of `env`. A loop that
counts makes as many rounds as the whole part of its count says. -/
inductive Instr.Opens (env : Env) : Instr → Frame → Prop
  | count {count until? : Option Expr} {body : List Instr} {line : Option Int} {x : Float}
    {n : Int} : (count.getD (.foreign "NoneType")).evaluate env = .ok x → Number.floor x = .ok n →
    0 < n → body ≠ [] →
    Opens env (.loop .count count until? body line) (.enter (.count n.toNat) body line)
  | until {mode : LoopMode} {count until? : Option Expr} {body : List Instr} {line : Option Int} :
    mode ≠ .count →
    Opens env (.loop mode count until? body line) (.enter (.until until?) body line)
  | branch {test : Expr} {body : List Instr} {line : Option Int} : body ≠ [] →
    Opens env (.branch test body line) (.enter .branch body line)

/-! ## Outcomes -/

/-- `i.Completes o s signal s'`: from the state `s`, in which its step has been counted, the
instruction `i` is carried out. It gives the signal and leaves the state `s'`. -/
inductive Instr.Completes (o : Options) (s : RunState) : Instr → Signal → RunState → Prop
  | move {way : Way} {e : Expr} {line : Option Int} {x y : Float} {path : List Cell} {cell : Cell} :
    s.HeadsFor way e x y → Cell.ofPoint x y = .ok cell →
    (if s.penDown then s.LineTo x y path else path = []) → s.Affords o path →
    o.fits (s.walked o path) = true →
    Completes o s (.move way e line) .moved
      (({ s.walked o path with x := x, y := y }.told o cell).noted o (.move cell))
  | turn {side : Side} {e : Expr} {line : Option Int} {amount : Float} :
    e.evaluate s.vars = .ok amount → amount.isFinite = true → o.fits s = true →
    Completes o s (.turn side e line) .moved
      (({ s with heading := wrapHue (s.heading + side.delta amount) }.noted o
        (.turn (wrapHue (s.heading + side.delta amount)))).heard o
        (.setHeading (wrapHue (s.heading + side.delta amount))))
  | pen {state : PenState} {line : Option Int} {cell : Cell} : Cell.ofPoint s.x s.y = .ok cell →
    o.fits s = true →
    Completes o s (.pen state line) .next
      (({ s with penDown := state == PenState.down }.noted o (.pen (state == PenState.down))).told
        o cell)
  /-- The pen of a turtle without a cell, of which no renderer has to be told. -/
  | penAstray {state : PenState} {line : Option Int} {reason : Number.NoInteger} :
    Cell.ofPoint s.x s.y = .error reason → o.renderer.isSome = false → o.fits s = true →
    Completes o s (.pen state line) .next
      ({ s with penDown := state == PenState.down }.noted o (.pen (state == PenState.down)))
  | hsv {h sat v : HsvParam} {line : Option Int} {color : Hsv} :
    Hsv.change s.vars s.color h sat v = .ok color → o.fits s = true →
    Completes o s (.hsv h sat v line) .next ({ s with color := color }.noted o (.hsv color))
  | assign {name : String} {e : Expr} {reassign : Bool} {line : Option Int} {x : Float} :
    e.evaluate s.vars = .ok x → x.isFinite = true →
    (reassign = true → s.vars.get? name ≠ none) →
    Completes o s (.assign name e reassign line) .next { s with vars := s.vars.set name x }
  | enter {i : Instr} {f : Frame} : i.Opens s.vars f → Completes o s i (.enter f) s
  | skipLoop {mode : LoopMode} {count until? : Option Expr} {body : List Instr}
    {line : Option Int} : Completes o s (.loop mode count until? body line) .next s
  | skipBranch {test : Expr} {body : List Instr} {line : Option Int} :
    Completes o s (.branch test body line) .next s
  | breakLoop {line : Option Int} : Completes o s (.breakLoop line) (.jump .breakLoop) s
  | continueLoop {line : Option Int} : Completes o s (.continueLoop line) (.jump .continueLoop) s

/-- `i.Stops o s a s'`: from the state `s`, in which its step has been counted, the instruction `i`
is stopped by the abort `a` and leaves the state `s'`. Only a movement can be stopped on its way;
whatever else stops an instruction does so before it changes anything, or when its entry finds no
room in the log. -/
inductive Instr.Stops (o : Options) (s : RunState) : Instr → Abort → RunState → Prop
  | unread {i : Instr} {q : Quantity} {e : Option Expr} {a : Abort} : i.reads? = some (q, e) →
    Unread s.vars q i.line e a → Stops o s i a s
  | noDirection {way : Way} {e : Expr} {line : Option Int} : (s.heading * degree).isInf = true →
    Stops o s (.move way e line) .noDirection s
  | tooFar {way : Way} {e : Expr} {line : Option Int} {x y : Float} : s.HeadsFor way e x y →
    (x.isFinite && y.isFinite) = false →
    Stops o s (.move way e line) (.fault (.notFinite .distance) line) s
  | brokenLine {way : Way} {e : Expr} {line : Option Int} {x y : Float} {path : List Cell}
    {a : Abort} {s' : RunState} : s.penDown = true → s.HeadsFor way e x y → s.LineTo x y path →
    BrokenLine o s line path a s' → Stops o s (.move way e line) a s'
  | unloggedMove {way : Way} {e : Expr} {line : Option Int} {x y : Float} {path : List Cell}
    {cell : Cell} : s.HeadsFor way e x y → Cell.ofPoint x y = .ok cell →
    (if s.penDown then s.LineTo x y path else path = []) → s.Affords o path →
    o.fits (s.walked o path) = false →
    Stops o s (.move way e line) (.fault .outputLimit line)
      ({ s.walked o path with x := x, y := y }.told o cell)
  | unloggedTurn {side : Side} {e : Expr} {line : Option Int} {amount : Float} :
    e.evaluate s.vars = .ok amount → amount.isFinite = true → o.fits s = false →
    Stops o s (.turn side e line) (.fault .outputLimit line)
      { s with heading := wrapHue (s.heading + side.delta amount) }
  | unloggedPen {state : PenState} {line : Option Int} : o.fits s = false →
    Stops o s (.pen state line) (.fault .outputLimit line)
      { s with penDown := state == PenState.down }
  /-- The pen of a turtle without a cell, of which the renderer cannot be told. -/
  | untoldPen {state : PenState} {line : Option Int} {reason : Number.NoInteger} :
    Cell.ofPoint s.x s.y = .error reason → o.renderer.isSome = true → o.fits s = true →
    Stops o s (.pen state line) (.noCell reason)
      ({ s with penDown := state == PenState.down }.noted o (.pen (state == PenState.down)))
  | noColor {h sat v : HsvParam} {line : Option Int} {f : ParamFault} :
    Hsv.change s.vars s.color h sat v = .error f →
    Stops o s (.hsv h sat v line) (.fault (.param f) line) s
  | unloggedColor {h sat v : HsvParam} {line : Option Int} {color : Hsv} :
    Hsv.change s.vars s.color h sat v = .ok color → o.fits s = false →
    Stops o s (.hsv h sat v line) (.fault .outputLimit line) { s with color := color }
  | undeclared {name : String} {e : Expr} {line : Option Int} : s.vars.get? name = none →
    Stops o s (.assign name e true line) (.fault (.undeclared name) line) s

/-- `i.Aborts o s a s'`: the instruction `i`, started in the state `s`, is aborted with `a` and
leaves the state `s'`. It is from outside the language, there is no step left for it, or it is
stopped. -/
inductive Instr.Aborts (o : Options) (s : RunState) : Instr → Abort → RunState → Prop
  | unknown {kind : String} : Aborts o s (.foreign kind) (.fault (.unknownInstr kind) none) s
  | outOfSteps {i : Instr} : o.allows (s.steps + 1) = false →
    Aborts o s i (.fault .stepLimit i.line) s.ticked
  | stopped {i : Instr} {a : Abort} {s' : RunState} : o.allows (s.steps + 1) = true →
    i.Stops o s.ticked a s' → Aborts o s i a s'

/-! ## Values -/

section Values

variable {α : Type} {s : RunState} {line : Option Int} {E : Abort → RunState → Prop}

theorem ensures_number {q : Quantity} {e : Option Expr} {Q : Float → RunState → Prop}
    (hQ : ∀ x, (e.getD (.foreign "NoneType")).evaluate s.vars = .ok x → x.isFinite = true → Q x s)
    (hE : ∀ a, Unread s.vars q line e a → E a s) : Ensures (number q line e) s Q E := by
  unfold number
  rw [ensures_bind, ensures_get]
  cases hx : (e.getD (.foreign "NoneType")).evaluate s.vars with
  | error err => exact hE _ (.expr hx)
  | ok x =>
    simp only
    split_ifs with hfinite
    · exact hQ x hx hfinite
    · exact hE _ .notFinite

theorem ensures_holds {e : Option Expr} {Q : Bool → RunState → Prop} (hQ : ∀ b, Q b s)
    (hE : ∀ a, Unread s.vars .until line e a → E a s) : Ensures (holds line e) s Q E := by
  unfold holds
  rw [ensures_bind]
  exact ensures_number (fun x _ _ => hQ (x != 0)) hE

theorem ensures_direction {heading : Float} {Q : Float × Float → RunState → Prop}
    (hQ : Q ((heading * degree).cos, (heading * degree).sin) s)
    (hE : (heading * degree).isInf = true → E .noDirection s) :
    Ensures (direction heading) s Q E := by
  unfold direction
  simp only
  split_ifs with hinf
  · exact hE hinf
  · exact hQ

end Values

/-! ## Actions -/

section Actions

variable {o : Options} {s : RunState} {line : Option Int}

/-- The turtle arrives at a finite point, after the cells on its way have been visited. -/
theorem arrive_ends {way : Way} {e : Expr} {x y : Float} {path : List Cell}
    (hfor : s.HeadsFor way e x y) (hx : x.isFinite = true) (hy : y.isFinite = true)
    (hpath : if s.penDown then s.LineTo x y path else path = [])
    (hafford : s.Affords o path) :
    Ensures (do
      modify fun s => { s with x := x, y := y }
      sync o
      let cell ← cellOf x y
      record o line (.move cell)) (s.walked o path)
      (fun _ s' => (Instr.move way e line).Completes o s .moved s')
      ((Instr.move way e line).Stops o s) := by
  obtain ⟨cell, hcell⟩ := Cell.exists_ofPoint hx hy
  rw [ensures_bind, ensures_modify, ensures_bind]
  refine ensures_sync_of_cell hcell ?_
  rw [ensures_bind, Ensures, cellOf, hcell]
  exact ensures_record_noted (fun hfits => .move hfor hcell hpath hafford hfits)
    fun hfull => .unloggedMove hfor hcell hpath hafford hfull

/-- A movement for which it is settled where it leads. -/
theorem go_ends {way : Way} {e : Expr} {x y : Float} (hfor : s.HeadsFor way e x y) :
    Ensures (do
      if !(x.isFinite && y.isFinite) then fail (.notFinite .distance) line
      if s.penDown then drawLine o line x y
      modify fun s => { s with x := x, y := y }
      sync o
      let cell ← cellOf x y
      record o line (.move cell)) s
      (fun _ s' => (Instr.move way e line).Completes o s .moved s')
      ((Instr.move way e line).Stops o s) := by
  have finite (h : ¬(!(x.isFinite && y.isFinite)) = true) :
      x.isFinite = true ∧ y.isFinite = true := by
    rwa [Bool.not_eq_true', Bool.not_eq_false, Bool.and_eq_true] at h
  split_ifs with hdown hfar hfar
  · exact .tooFar hfor (by rwa [Bool.not_eq_true'] at hfar)
  · obtain ⟨hx, hy⟩ := finite hfar
    change Ensures (drawLine o line x y >>= _) _ _ _
    rw [ensures_bind]
    refine (ensures_drawLine_walked (hfor.placed hx hy) hx hy).mono ?_ ?_
    · rintro _ _ ⟨path, hline, hafford, rfl⟩
      exact arrive_ends hfor hx hy (by rwa [if_pos hdown]) hafford
    · rintro a s' ⟨path, hline, hbroken⟩
      exact .brokenLine hdown hfor hline hbroken
  · exact .tooFar hfor (by rwa [Bool.not_eq_true'] at hfar)
  · obtain ⟨hx, hy⟩ := finite hfar
    have hpath : if s.penDown then s.LineTo x y [] else ([] : List Cell) = [] := by
      rw [if_neg hdown]
    exact arrive_ends hfor hx hy hpath trivial

theorem move_ends (o : Options) (s : RunState) (way : Way) (e : Expr) (line : Option Int) :
    Ensures (move o way e line) s
      (fun _ s' => (Instr.move way e line).Completes o s .moved s')
      ((Instr.move way e line).Stops o s) := by
  unfold move
  rw [ensures_bind]
  refine ensures_number (fun amount hamount _ => ?_) fun a ha => .unread rfl ha
  rw [ensures_bind, ensures_get]
  simp only
  rw [ensures_bind]
  refine ensures_direction ?_ fun hinf => .noDirection hinf
  cases way with
  | first => exact go_ends ⟨amount, hamount, rfl, rfl⟩
  | second => exact go_ends ⟨amount, hamount, rfl, rfl⟩
  | other word hw => exact go_ends ⟨amount, hamount, rfl, rfl⟩

theorem turn_ends (o : Options) (s : RunState) (side : Side) (e : Expr) (line : Option Int) :
    Ensures (turn o side e line) s
      (fun _ s' => (Instr.turn side e line).Completes o s .moved s')
      ((Instr.turn side e line).Stops o s) := by
  have turned {amount : Float} (hamount : e.evaluate s.vars = .ok amount)
      (hfinite : amount.isFinite = true) : Ensures (do
        modify fun s => { s with heading := wrapHue (s.heading + side.delta amount) }
        let s ← get
        record o line (.turn s.heading)
        call o (.setHeading s.heading)) s
        (fun _ s' => (Instr.turn side e line).Completes o s .moved s')
        ((Instr.turn side e line).Stops o s) := by
    rw [ensures_bind, ensures_modify, ensures_bind, ensures_get, ensures_bind]
    refine ensures_record_noted (fun hfits => ?_) fun hfull => .unloggedTurn hamount hfinite hfull
    rw [Ensures, call_eq_heard]
    exact .turn hamount hfinite hfits
  unfold turn
  rw [ensures_bind]
  refine ensures_number (fun amount hamount hfinite => ?_) fun a ha => .unread rfl ha
  cases side with
  | first => exact turned hamount hfinite
  | second => exact turned hamount hfinite
  | other word hw => exact turned hamount hfinite

theorem setPen_ends (o : Options) (s : RunState) (state : PenState) (line : Option Int) :
    Ensures (setPen o (state == .down) line) s
      (fun _ s' => (Instr.pen state line).Completes o s .next s')
      ((Instr.pen state line).Stops o s) := by
  unfold setPen
  rw [ensures_bind, ensures_modify, ensures_bind]
  refine ensures_record_noted (fun hfits => ?_) fun hfull => .unloggedPen hfull
  cases hcell : Cell.ofPoint s.x s.y with
  | ok cell => exact ensures_sync_of_cell hcell (.pen hcell hfits)
  | error reason =>
    exact ensures_sync_of_astray hcell (fun hr => .penAstray hcell hr hfits)
      fun hr => .untoldPen hcell hr hfits

theorem setColor_ends (o : Options) (s : RunState) (h sat v : HsvParam) (line : Option Int) :
    Ensures (setColor o h sat v line) s
      (fun _ s' => (Instr.hsv h sat v line).Completes o s .next s')
      ((Instr.hsv h sat v line).Stops o s) := by
  unfold setColor
  rw [ensures_bind, ensures_get]
  cases hcolor : Hsv.change s.vars s.color h sat v with
  | error f => exact .noColor hcolor
  | ok color =>
    simp only
    rw [ensures_bind, ensures_modify]
    exact ensures_record_noted (fun hfits => .hsv hcolor hfits) fun hfull =>
      .unloggedColor hcolor hfull

theorem assign_ends (o : Options) (s : RunState) (name : String) (e : Expr) (reassign : Bool)
    (line : Option Int) :
    Ensures (assign name e reassign line) s
      (fun _ s' => (Instr.assign name e reassign line).Completes o s .next s')
      ((Instr.assign name e reassign line).Stops o s) := by
  unfold assign
  rw [ensures_bind]
  refine ensures_number (fun x hx hfinite => ?_) fun a ha => .unread rfl ha
  rw [ensures_bind, ensures_get]
  split_ifs with hnew
  · rw [Bool.and_eq_true, Option.isNone_iff_eq_none] at hnew
    obtain ⟨rfl, hnone⟩ := hnew
    exact .undeclared hnone
  · refine .assign hx hfinite fun hre hnone => hnew ?_
    rw [hre, Bool.true_and, Option.isNone_iff_eq_none]
    exact hnone

/-- The count of a loop is finite, so that it has a whole part. -/
theorem startLoop_ends (o : Options) (s : RunState) (mode : LoopMode) (count until? : Option Expr)
    (body : List Instr) (line : Option Int) :
    Ensures (startLoop mode count until? body line) s
      ((Instr.loop mode count until? body line).Completes o s)
      ((Instr.loop mode count until? body line).Stops o s) := by
  have wait (hmode : mode ≠ .count)
      (hreads : (Instr.loop mode count until? body line).reads? = some (.until, until?)) :
      Ensures (do
        if ← holds line until? then return .next
        else return .enter (.enter (.until until?) body line)) s
        ((Instr.loop mode count until? body line).Completes o s)
        ((Instr.loop mode count until? body line).Stops o s) := by
    rw [ensures_bind]
    refine ensures_holds (fun b => ?_) fun a ha => .unread hreads ha
    cases b with
    | true => exact .skipLoop
    | false => exact .enter (.until hmode)
  cases mode with
  | first =>
    rw [startLoop, ensures_bind]
    refine ensures_number (fun x hx hfinite => ?_) fun a ha => .unread rfl ha
    obtain ⟨n, hn⟩ := Number.exists_floor hfinite
    rw [hn]
    simp only
    split_ifs with hgoes
    · rw [Bool.and_eq_true, decide_eq_true_iff, Bool.not_eq_true', List.isEmpty_eq_false_iff]
        at hgoes
      exact .enter (.count hx hn hgoes.1 hgoes.2)
    · exact .skipLoop
  | second => exact wait (by rintro ⟨⟩) rfl
  | other word hw => exact wait (by rintro ⟨⟩) rfl

theorem startBranch_ends (o : Options) (s : RunState) (test : Expr) (body : List Instr)
    (line : Option Int) :
    Ensures (startBranch test body line) s
      ((Instr.branch test body line).Completes o s) ((Instr.branch test body line).Stops o s) := by
  rw [startBranch, ensures_bind]
  refine ensures_number (fun x _ _ => ?_) fun a ha => .unread rfl ha
  split_ifs with hgoes
  · rw [Bool.and_eq_true, Bool.not_eq_true', List.isEmpty_eq_false_iff] at hgoes
    exact .enter (.branch hgoes.2)
  · exact .skipBranch

/-! ## Instructions -/

/-- **Every instruction ends in one of these ways.** -/
theorem perform_ends (o : Options) (s : RunState) (i : Instr) :
    Ensures (perform o i) s
      (fun signal s' => o.allows (s.steps + 1) = true ∧ i.Completes o s.ticked signal s')
      (i.Aborts o s) := by
  have counted {x : Action Signal}
      (hx : Ensures x s.ticked (i.Completes o s.ticked) (i.Stops o s.ticked)) :
      Ensures (do
        tick o i.line
        x) s (fun signal s' => o.allows (s.steps + 1) = true ∧ i.Completes o s.ticked signal s')
        (i.Aborts o s) := by
    rw [ensures_bind, Ensures, tick_eq]
    cases hstep : o.allows (s.steps + 1) with
    | true => exact hx.mono (fun _ _ h => ⟨rfl, h⟩) fun _ _ h => .stopped hstep h
    | false => exact .outOfSteps hstep
  have done {x : Action Unit} {signal : Signal} (hx : Ensures x s.ticked
      (fun _ s' => i.Completes o s.ticked signal s') (i.Stops o s.ticked)) :
      Ensures (do
        x
        return signal) s.ticked (i.Completes o s.ticked) (i.Stops o s.ticked) := by
    rw [ensures_bind]
    exact hx
  cases i with
  | move way e line => exact counted (done (move_ends o _ way e line))
  | turn side e line => exact counted (done (turn_ends o _ side e line))
  | pen state line => exact counted (done (setPen_ends o _ state line))
  | hsv h sat v line => exact counted (done (setColor_ends o _ h sat v line))
  | assign name e reassign line => exact counted (done (assign_ends o _ name e reassign line))
  | loop mode count until? body line =>
    exact counted (startLoop_ends o _ mode count until? body line)
  | branch test body line => exact counted (startBranch_ends o _ test body line)
  | breakLoop line => exact counted .breakLoop
  | continueLoop line => exact counted .continueLoop
  | foreign kind => exact .unknown

end Actions

end PixelTurtle
