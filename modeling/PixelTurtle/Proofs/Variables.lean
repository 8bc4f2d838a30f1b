import PixelTurtle.Proofs.Position

/-!
# The variables of a run

A variable gets its first value by a declaration, and another one by every assignment that follows.
A value is kept only if it is finite, and no variable is ever taken away. So the variables of a run
are those that have been declared in it, and a color command can rely on them.

* `Env.names` are the variables of an environment.
* `Instr.Sets` is what an instruction does with the variables, `Machine.Binds` what an event does;
  `binds_step` says that it does nothing else.
* `Machine.Declares` is an event that declares a variable, and `Kept` the invariant of a run.
* `HsvParam.apply_of_variable?` says when a parameter that names a variable fails.
* `variables_stay_finite` is the theorem about all runs.
-/

namespace PixelTurtle

/-! ## Environments -/

namespace Env

variable {env : Env} {name n : String} {x : Float}

/-- The variables that have a value. -/
def names (env : Env) : List String :=
  env.map Prod.fst

/-- All values are finite. -/
def Finite (env : Env) : Prop :=
  ∀ name x, (name, x) ∈ env → x.isFinite = true

theorem get?_eq_none_iff : env.get? name = none ↔ name ∉ env.names := by
  rw [get?, List.lookup_eq_none_iff, names, List.mem_map]
  constructor
  · rintro h ⟨p, hp, rfl⟩
    simpa using h p hp
  · intro h p hp
    rw [bne_iff_ne]
    rintro rfl
    exact h ⟨p, hp, rfl⟩

theorem mem_of_get? (h : env.get? name = some x) : (name, x) ∈ env := by
  obtain ⟨before, after, rfl, -⟩ := List.lookup_eq_some_iff.1 h
  exact List.mem_append_right _ List.mem_cons_self

/-- A variable that is set keeps the others. -/
theorem mem_set {p : String × Float} (h : p ∈ env.set name x) : p ∈ env ∨ p = (name, x) := by
  induction env with
  | nil => exact .inr (List.mem_singleton.1 h)
  | cons q env ih =>
    obtain ⟨n, v⟩ := q
    rw [set] at h
    split_ifs at h with hn
    · rw [beq_iff_eq.1 hn] at h
      rcases List.mem_cons.1 h with rfl | h
      · exact .inr rfl
      · exact .inl (List.mem_cons_of_mem _ h)
    · rcases List.mem_cons.1 h with rfl | h
      · exact .inl List.mem_cons_self
      · exact (ih h).imp_left (List.mem_cons_of_mem _)

theorem mem_names_set : n ∈ (env.set name x).names ↔ n = name ∨ n ∈ env.names := by
  induction env with
  | nil => simp [set, names]
  | cons q env ih =>
    obtain ⟨k, v⟩ := q
    rw [set]
    split_ifs with hk
    · rw [beq_iff_eq.1 hk]
      simp [names]
    · show n ∈ k :: names (set name x env) ↔ n = name ∨ n ∈ k :: names env
      rw [List.mem_cons, List.mem_cons, ih]
      tauto

theorem Finite.set (h : env.Finite) (hx : x.isFinite = true) : (env.set name x).Finite := by
  intro n v hv
  rcases mem_set hv with hv | hv
  · exact h n v hv
  · cases hv
    exact hx

/-- In a finite environment just the variables that are there have a finite value. -/
theorem Finite.isFinite_value (h : env.Finite) :
    (env.value name).isFinite = true ↔ name ∈ env.names := by
  rw [value]
  cases hget : env.get? name with
  | none =>
    have hnan : Number.nan.isFinite = false := by decide
    simp [hnan, get?_eq_none_iff.1 hget]
  | some x =>
    have hmem := mem_of_get? hget
    exact iff_of_true (h name x hmem) (List.mem_map.2 ⟨_, hmem, rfl⟩)

end Env

/-! ## Instructions -/

/-- What an instruction does with the variables when it ends with a signal. An assignment gives its
variable a finite value, and one that is no declaration needs a variable that has one. -/
def Instr.Sets (i : Instr) (env : Env) (signal : Signal) (env' : Env) : Prop :=
  match i with
  | .assign name _ reassign _ =>
    signal = .next ∧ (reassign = true → name ∈ env.names) ∧
      ∃ x : Float, x.isFinite = true ∧ env' = env.set name x
  | _ => env' = env

section Instructions

variable {o : Options} {s s' : RunState} {i : Instr} {a : Abort}

theorem Instr.Completes.sets {signal : Signal} (h : i.Completes o s signal s') :
    i.Sets s.vars signal s'.vars := by
  cases h with
  | @move _ _ _ _ _ path _ _ _ _ _ _ => exact (s.sameTurtle_walked o path).vars
  | @assign name _ reassign _ x _ hx hold =>
    refine ⟨rfl, fun hre => ?_, x, hx, rfl⟩
    exact not_not.1 (mt Env.get?_eq_none_iff.2 (hold hre))
  | enter hopens =>
    cases hopens with
    | _ => rfl
  | _ => rfl

/-- An instruction that is stopped leaves the variables as they are. -/
theorem Instr.Stops.vars (h : i.Stops o s a s') : s'.vars = s.vars := by
  cases h with
  | brokenLine _ _ _ hbroken =>
    cases hbroken with
    | @outOfSteps before _ _ _ _ => exact (s.sameTurtle_walked o before).vars
    | @outOfEntries before _ _ _ _ _ _ => exact (s.sameTurtle_walked o before).vars
  | @unloggedMove _ _ _ _ _ path _ _ _ _ _ _ => exact (s.sameTurtle_walked o path).vars
  | _ => rfl

theorem Instr.Aborts.vars (h : i.Aborts o s a s') : s'.vars = s.vars := by
  cases h with
  | stopped _ hstops => exact hstops.vars
  | _ => rfl

end Instructions

/-! ## Events -/

/-- The event on `m` declares a variable: it carries a declaration of it out. -/
def Machine.Declares (o : Options) (m : Machine) (name : String) : Prop :=
  ∃ e line, m.next? = some (.assign name e false line) ∧ (m.step o).2 = .idle

/-- What an event, which comes to `r`, does with the variables: it carries an assignment out, or
leaves them as they are. -/
inductive Machine.Binds (m : Machine) (r : Machine × Event) : Prop
  | assigned {name : String} {e : Expr} {reassign : Bool} {line : Option Int} {x : Float} :
    m.next? = some (.assign name e reassign line) → r.2 = .idle →
    (reassign = true → name ∈ m.state.vars.names) → x.isFinite = true →
    r.1.state.vars = m.state.vars.set name x → Binds m r
  | kept : (∀ name e reassign line, m.next? = some (.assign name e reassign line) →
      r.2 ≠ .idle) → r.1.state.vars = m.state.vars → Binds m r

section Events

variable {o : Options} {m m₀ : Machine} {i : Instr} {past : List Machine} {program : List Instr}

theorem Instr.Completes.binds {r : Machine × Event} {signal : Signal} (hi : m.next? = some i)
    (h : i.Completes o m.state.ticked signal r.1.state) (hidle : signal = .next → r.2 = .idle) :
    m.Binds r := by
  have hsets := h.sets
  cases i with
  | assign name e reassign line =>
    obtain ⟨hnext, hold, x, hx, hvars⟩ := hsets
    exact .assigned hi (hidle hnext) hold hx hvars
  | _ => exact .kept (fun _ _ _ _ hassign => by cases hi.symm.trans hassign) hsets

/-- The end of a body is no assignment. -/
theorem binds_of_next?_eq_none {r : Machine × Event} (hi : m.next? = none)
    (hvars : r.1.state.vars = m.state.vars) : m.Binds r :=
  .kept (fun _ _ _ _ hassign => by cases hi.symm.trans hassign) hvars

theorem Machine.Comes.binds {r : Machine × Event} (h : m.Comes o r) : m.Binds r := by
  cases h with
  | halted _ => exact .kept nofun rfl
  | completed => exact .kept nofun rfl
  | aborted _ haborts =>
    exact .kept (fun _ _ _ _ _ => abort_event .. ▸ nofun) (abort_state .. ▸ haborts.vars)
  | next hfetch _ hdone => exact hdone.binds hfetch.next? fun _ => rfl
  | moved hfetch _ hdone => exact hdone.binds hfetch.next? nofun
  | enter hfetch _ hdone => exact hdone.binds hfetch.next? nofun
  | breakLoop hfetch _ hdone _ => exact hdone.binds hfetch.next? nofun
  | continueLoop hfetch _ hdone _ => exact hdone.binds hfetch.next? nofun
  | outsideLoop hfetch _ hdone _ => exact hdone.binds hfetch.next? nofun
  | left hrest => exact binds_of_next?_eq_none (next?_of_rest_eq_nil hrest _) rfl
  | again hrest _ _ => exact binds_of_next?_eq_none (next?_of_rest_eq_nil hrest _) rfl
  | outOfSteps hrest _ _ => exact binds_of_next?_eq_none (next?_of_rest_eq_nil hrest _) rfl
  | unread hrest _ _ =>
    exact binds_of_next?_eq_none (next?_of_rest_eq_nil hrest _) (abort_state .. ▸ rfl)

/-- **What every event does with the variables.** -/
theorem binds_step (o : Options) (m : Machine) : m.Binds (m.step o) :=
  (comes_step o m).binds

/-- No event takes a variable away. -/
theorem names_step (o : Options) (m : Machine) :
    m.state.vars.names ⊆ (m.step o).1.state.vars.names := by
  intro name hname
  cases binds_step o m with
  | assigned _ _ _ _ hvars =>
    rw [hvars]
    exact Env.mem_names_set.2 (.inr hname)
  | kept _ hvars => rwa [hvars]

/-! ## Runs -/

theorem Reaches.names_subset (h : Reaches o m₀ past m) :
    m₀.state.vars.names ⊆ m.state.vars.names := by
  induction h with
  | start => exact List.Subset.refl _
  | step _ ih => exact List.Subset.trans ih (names_step o _)
  | cancel _ ih =>
    rw [Machine.cancel_state]
    exact ih

/-- The variables of a run with the past `past` are finite, and they are those that it has declared.
-/
structure Kept (o : Options) (past : List Machine) (env : Env) : Prop where
  finite : env.Finite
  declared : ∀ name, name ∈ env.names ↔ ∃ x ∈ past, x.Declares o name

theorem Kept.step (h : Kept o past m.state.vars) :
    Kept o (past ++ [m]) (m.step o).1.state.vars := by
  have earlier (name : String) : (∃ x ∈ past ++ [m], x.Declares o name) ↔
      (∃ x ∈ past, x.Declares o name) ∨ m.Declares o name := by
    simp only [List.mem_append, List.mem_singleton, or_and_right, exists_or, exists_eq_left]
  cases binds_step o m with
  | @assigned name e reassign line x hnext hidle hold hx hvars =>
    rw [hvars]
    refine ⟨h.finite.set hx, fun n => ?_⟩
    rw [Env.mem_names_set, h.declared, earlier]
    cases reassign with
    | false =>
      have hdeclares : m.Declares o n ↔ n = name := by
        constructor
        · rintro ⟨e', line', hnext', -⟩
          cases hnext.symm.trans hnext'
          rfl
        · rintro rfl
          exact ⟨e, line, hnext, hidle⟩
      rw [hdeclares, or_comm]
    | true =>
      have hdeclares : ¬ m.Declares o n := by
        rintro ⟨e', line', hnext', -⟩
        cases hnext.symm.trans hnext'
      have hname := (h.declared name).1 (hold rfl)
      constructor
      · rintro (rfl | hn)
        · exact .inl hname
        · exact .inl hn
      · rintro (hn | hn)
        · exact .inr hn
        · exact absurd hn hdeclares
  | kept hother hvars =>
    rw [hvars]
    refine ⟨h.finite, fun n => ?_⟩
    rw [h.declared, earlier]
    refine ⟨.inl, ?_⟩
    rintro (hn | ⟨e, line, hnext, hidle⟩)
    · exact hn
    · exact absurd hidle (hother _ _ _ _ hnext)

/-- **The variables of a run are finite, and are those that it has declared.** -/
theorem Reaches.kept (h : Reaches o m₀ past m) (hstart : Machine.start o program = .ok m₀) :
    Kept o past m.state.vars := by
  induction h with
  | start =>
    obtain ⟨calls, hcalls⟩ := exists_calls_of_start hstart
    rw [hcalls]
    exact ⟨nofun, fun name => by simp [RunState.start, Env.names]⟩
  | step _ ih => exact ih.step
  | cancel _ ih =>
    rw [Machine.cancel_state]
    exact ih

end Events

/-! ## Parameters that name a variable -/

/-- The variable that a parameter names. -/
def HsvParam.variable? : HsvParam → Option String
  | .offset _ (.var name) => some name
  | .absolute (.var name) => some name
  | _ => none

theorem Amount.value_var {env : Env} (h : env.Finite) (name : String) :
    (Amount.var name).value env =
      if name ∈ env.names then .ok (env.value name) else .error (.undefined name) := by
  rw [Amount.value]
  simp only [h.isFinite_value]

/-- In a finite environment a parameter fails just for a variable that is not there. -/
theorem HsvParam.apply_of_variable? {env : Env} (h : env.Finite) {p : HsvParam} {name : String}
    (hp : p.variable? = some name) (c : Component) (current : Float) :
    (∃ f, p.apply env c current = .error f) ↔ name ∉ env.names := by
  have hfails {g : Float → Float} : (∃ f, ((Amount.var name).value env).map g = .error f) ↔
      name ∉ env.names := by
    rw [Amount.value_var h]
    split_ifs with hname
    · exact iff_of_false (by rintro ⟨f, ⟨⟩⟩) (not_not.2 hname)
    · exact iff_of_true ⟨_, rfl⟩ hname
  cases p with
  | offset sign a =>
    cases a with
    | lit x => cases hp
    | var n =>
      cases hp
      exact hfails
  | absolute a =>
    cases a with
    | lit x => cases hp
    | var n =>
      cases hp
      exact hfails
  | _ => cases hp

/-- **The variables and the place of the turtle stay finite.** Wherever a host arrives, all
variables have finite values. They are those for which a declaration has been carried out, and stay
so. If the turtle starts at a finite point, it is at one. Hence a parameter that names a variable
fails if and only if no declaration of the variable has been carried out. -/
theorem variables_stay_finite (o : Options) (program : List Instr) (m₀ : Machine)
    (hstart : Machine.start o program = .ok m₀) (past : List Machine) (m : Machine)
    (h : Reaches o m₀ past m) :
    (∀ name x, (name, x) ∈ m.state.vars → x.isFinite = true) ∧
    (∀ name, name ∈ m.state.vars.names ↔ ∃ x ∈ past, x.Declares o name) ∧
    (∀ past' m', Reaches o m past' m' → m.state.vars.names ⊆ m'.state.vars.names) ∧
    (o.startX.isFinite = true → o.startY.isFinite = true →
      m.state.x.isFinite = true ∧ m.state.y.isFinite = true) ∧
    ∀ p name, HsvParam.variable? p = some name → ∀ c current,
      (∃ f, p.apply m.state.vars c current = .error f) ↔ ¬ ∃ x ∈ past, x.Declares o name := by
  obtain ⟨hfinite, hdeclared⟩ := h.kept hstart
  refine ⟨hfinite, hdeclared, fun past' m' h' => h'.names_subset, fun hx hy => ?_, ?_⟩
  · have hplaced : (RunState.start o).Placed := placed_iff.2 ⟨hx, hy⟩
    exact placed_iff.1 (h.placed ((placed_of_start hstart).2 hplaced))
  · intro p name hp c current
    rw [HsvParam.apply_of_variable? hfinite hp, hdeclared]

/-- A color command that names one variable that has been declared and one that has not. -/
theorem variables_stay_finite_color :
    ∃ m₀ past m, Machine.start {} [.assign "a" (.num 1) false (some 1),
        .assign "a" (.bin (.known .add) (.var "a") (.num 1)) true (some 2),
        .hsv (.absolute (.var "a")) (.offset .minus (.var "b")) .ignore (some 3)] = .ok m₀ ∧
      Reaches {} m₀ past m ∧ m.state.vars.names = ["a"] ∧ (∃ x ∈ past, x.Declares {} "a") ∧
      (¬ ∃ f, (HsvParam.absolute (.var "a")).apply m.state.vars .hue m.state.color.h = .error f) ∧
      ∃ f, (HsvParam.offset .minus (.var "b")).apply m.state.vars .saturation m.state.color.s =
        .error f := by
  let program : List Instr := [.assign "a" (.num 1) false (some 1),
    .assign "a" (.bin (.known .add) (.var "a") (.num 1)) true (some 2),
    .hsv (.absolute (.var "a")) (.offset .minus (.var "b")) .ignore (some 3)]
  let m₀ : Machine := ⟨program, [], .start {}, .running⟩
  have hstart : Machine.start {} program = .ok m₀ := rfl
  have hreach : Reaches {} m₀ _ (m₀.after {} 2) := .step (.step .start)
  have hnames : (m₀.after {} 2).state.vars.names = ["a"] := by decide +kernel
  obtain ⟨-, hdeclared, -, -, hfails⟩ := variables_stay_finite {} program m₀ hstart _ _ hreach
  have ha := (hdeclared "a").1 (by rw [hnames]; decide)
  have hb := mt (hdeclared "b").2 (by rw [hnames]; decide)
  refine ⟨m₀, _, _, hstart, hreach, hnames, ha, ?_, ?_⟩
  · exact fun hfail => (hfails _ "a" rfl _ _).1 hfail ha
  · exact (hfails _ "b" rfl _ _).2 hb

end PixelTurtle
