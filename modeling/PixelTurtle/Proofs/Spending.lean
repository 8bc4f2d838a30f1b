import PixelTurtle.Proofs.Events

/-!
# What a run spends

Every step of a run is paid for out of the budget, and nothing is drawn or reported without a step.
For instructions and for the events of the machine, this bounds what a run can do before its budget
is used up.

* `Spends k s s'` says that from `s` to `s'` there were enough steps for the cells that were drawn
  and reported, and `k` more.
* `Instr.Completes.spends` and `Instr.Aborts.spends` say that an instruction stays within the
  budget, or ends the run one step over it.
* `Billed` is what an event comes to. Besides the steps it bounds what is left to do: an event that
  does not cost a step drops a frame, and a new frame costs a step (`Machine.Comes.billed`).
-/

namespace PixelTurtle

/-! ## Steps and cells -/

def Call.isDraw : Call → Bool
  | .drawPixel _ _ => true
  | _ => false

/-- The number of cells that were drawn on the renderer. -/
def RunState.drawn (s : RunState) : Nat := s.calls.countP Call.isDraw

/-- From `s` to `s'` the steps pay for every cell that was drawn or reported, and `k` are left
over. -/
structure Spends (k : Nat) (s s' : RunState) : Prop where
  steps : s.steps + k ≤ s'.steps
  drawn : s'.drawn + s.steps + k ≤ s.drawn + s'.steps
  pixels : s'.pixels.size + s.steps + k ≤ s.pixels.size + s'.steps

theorem Spends.refl (s : RunState) : Spends 0 s s := ⟨by omega, by omega, by omega⟩

theorem Spends.trans {j k : Nat} {s₁ s₂ s₃ : RunState} (h₁ : Spends j s₁ s₂)
    (h₂ : Spends k s₂ s₃) : Spends (j + k) s₁ s₃ := by
  obtain ⟨a₁, b₁, c₁⟩ := h₁
  obtain ⟨a₂, b₂, c₂⟩ := h₂
  exact ⟨by omega, by omega, by omega⟩

theorem Spends.weaken {j k : Nat} {s s' : RunState} (h : Spends k s s') (hjk : j ≤ k) :
    Spends j s s' := by
  obtain ⟨h₁, h₂, h₃⟩ := h
  exact ⟨by omega, by omega, by omega⟩

theorem Spends.of_eq {s s' : RunState} (h₁ : s'.steps = s.steps) (h₂ : s'.calls = s.calls)
    (h₃ : s'.pixels = s.pixels) : Spends 0 s s' := by
  refine ⟨by omega, ?_, ?_⟩
  · rw [RunState.drawn, RunState.drawn, h₁, h₂]
    omega
  · rw [h₁, h₃]
    omega

/-! ## States of a run -/

section States

variable {o : Options} {s s' : RunState} {k : Nat}

theorem Spends.noted (h : Spends k s s') (op : Operation) : Spends k s (s'.noted o op) :=
  ⟨h.steps, h.drawn, h.pixels⟩

/-- Nothing has to be paid for a call that draws no cell. -/
theorem Spends.heard (h : Spends k s s') {c : Call} (hc : c.isDraw = false) :
    Spends k s (s'.heard o c) := by
  have hdrawn : (s'.heard o c).drawn = s'.drawn := by
    unfold RunState.heard RunState.drawn
    simp only
    split_ifs
    · rw [Array.countP_push, hc]
      rfl
    · rfl
  exact ⟨h.steps, by rw [hdrawn]; exact h.drawn, h.pixels⟩

theorem Spends.told (h : Spends k s s') (cell : Cell) : Spends k s (s'.told o cell) := by
  have hpen : (if s'.penDown then Call.penDown else .penUp).isDraw = false := by
    split_ifs <;> rfl
  have hcell : (Call.penSet cell).isDraw = false := rfl
  exact ((h.heard hcell).heard hpen).heard rfl

variable (o : Options) (s : RunState)

theorem spends_ticked : Spends 1 s s.ticked :=
  ⟨Nat.le_refl _, Nat.le_refl _, Nat.le_refl _⟩

/-- The step of a cell pays for reporting and drawing it. -/
theorem spends_painted (cell : Cell) : Spends 0 s (s.ticked.painted o cell) := by
  have hsteps : (s.ticked.painted o cell).steps = s.steps + 1 := rfl
  have hdrawn : (s.ticked.painted o cell).drawn ≤ s.drawn + 1 := by
    unfold RunState.painted RunState.heard RunState.drawn
    simp only
    split_ifs
    · rw [Array.countP_push]
      exact Nat.le_refl _
    · exact Nat.le_succ _
  have hpixels : (s.ticked.painted o cell).pixels.size ≤ s.pixels.size + 1 := by
    unfold RunState.painted RunState.heard
    simp only
    split_ifs
    · rw [Array.size_push]
      exact Nat.le_refl _
    · exact Nat.le_succ _
  exact ⟨by omega, by omega, by omega⟩

theorem spends_visited (cell : Cell) : Spends 0 s (s.visited o cell) := by
  unfold RunState.visited
  split_ifs
  · exact (spends_painted o s cell).noted _
  · exact (spends_ticked s).weaken (Nat.zero_le 1)

theorem spends_walked (path : List Cell) : Spends 0 s (s.walked o path) := by
  induction path generalizing s with
  | nil => exact .refl s
  | cons cell path ih => exact (spends_visited o s cell).trans (ih _)

end States

/-! ## Instructions -/

/-- The steps by which an abort is over the budget. -/
def Abort.overrun : Abort → Nat
  | .fault .stepLimit _ => 1
  | _ => 0

/-- Whether an instruction is carried out: it is one of the language, and its step is within the
budget. -/
def carriesOut (o : Options) (i : Instr) (s : RunState) : Bool :=
  match i with
  | .foreign _ => false
  | _ => o.allows (s.steps + 1)

section Instructions

variable {o : Options} {n : Int} {s s' : RunState} {i : Instr} {a : Abort}

theorem Unread.overrun {env : Env} {q : Quantity} {line : Option Int} {e : Option Expr}
    (h : Unread env q line e a) : a.overrun = 0 := by
  cases h with
  | _ => rfl

theorem le_of_allows (hn : o.maxSteps = some n) {k : Nat} (h : o.allows k = true) :
    k ≤ n.toNat := by
  rw [Options.allows, hn] at h
  have hk : (k : Int) ≤ n := of_decide_eq_true h
  omega

theorem RunState.Affords.steps_le (hn : o.maxSteps = some n) {path : List Cell}
    (h : s.Affords o path) (hs : s.steps ≤ n.toNat) : (s.walked o path).steps ≤ n.toNat := by
  induction path generalizing s with
  | nil => exact hs
  | cons cell path ih =>
    obtain ⟨hstep, -, hrest⟩ := h
    refine ih hrest ?_
    rw [steps_visited]
    exact le_of_allows hn hstep

/-- The line of a movement is paid for by its cells. -/
theorem spends_path (hn : o.maxSteps = some n) {path : List Cell} (h : s.Affords o path)
    (hs : s.steps ≤ n.toNat) (x y : Float) :
    Spends 0 s { s.walked o path with x := x, y := y } ∧ (s.walked o path).steps ≤ n.toNat := by
  obtain ⟨hsteps, hdrawn, hpixels⟩ := spends_walked o s path
  exact ⟨⟨hsteps, hdrawn, hpixels⟩, h.steps_le hn hs⟩

/-- An instruction that is carried out stays within the budget. -/
theorem Instr.Completes.spends (hn : o.maxSteps = some n) {signal : Signal}
    (h : i.Completes o s signal s') (hs : s.steps ≤ n.toNat) :
    Spends 0 s s' ∧ s'.steps ≤ n.toNat := by
  cases h with
  | move _ _ _ hafford _ =>
    obtain ⟨hpath, hle⟩ := spends_path hn hafford hs _ _
    exact ⟨(hpath.told _).noted _, hle⟩
  | turn _ _ _ =>
    refine ⟨.heard (.noted ?_ _) rfl, hs⟩
    exact .of_eq rfl rfl rfl
  | pen _ _ =>
    refine ⟨.told (.noted ?_ _) _, hs⟩
    exact .of_eq rfl rfl rfl
  | _ => exact ⟨.of_eq rfl rfl rfl, hs⟩

theorem Instr.Stops.spends (hn : o.maxSteps = some n) (h : i.Stops o s a s')
    (hs : s.steps ≤ n.toNat) : Spends a.overrun s s' ∧ s'.steps ≤ n.toNat + a.overrun := by
  cases h with
  | unread _ hunread =>
    rw [hunread.overrun]
    exact ⟨.refl s, hs⟩
  | @brokenLine _ _ _ _ _ path _ _ _ _ _ hbroken =>
    cases hbroken with
    | @outOfSteps before _ _ hafford _ =>
      have hspends := (spends_walked o s before).trans (spends_ticked _)
      exact ⟨hspends, Nat.succ_le_succ (hafford.steps_le hn hs)⟩
    | @outOfEntries before cell _ _ hstep _ _ =>
      have hspends := (spends_walked o s before).trans (spends_painted o _ cell)
      exact ⟨hspends, le_of_allows hn hstep⟩
  | unloggedMove _ _ _ hafford _ =>
    obtain ⟨hpath, hle⟩ := spends_path hn hafford hs _ _
    exact ⟨hpath.told _, hle⟩
  | _ => exact ⟨.of_eq rfl rfl rfl, hs⟩

/-- What aborts an instruction after it was carried out comes on top of its step. -/
theorem Instr.Aborts.spends (hn : o.maxSteps = some n) (h : i.Aborts o s a s')
    (hs : s.steps ≤ n.toNat) :
    Spends ((carriesOut o i s).toNat + a.overrun) s s' ∧ s'.steps ≤ n.toNat + a.overrun := by
  cases h with
  | unknown => exact ⟨.refl s, hs⟩
  | outOfSteps hover =>
    have hcarries : carriesOut o i s = false := by
      cases i with
      | foreign kind => rfl
      | _ => exact hover
    rw [hcarries]
    exact ⟨spends_ticked s, Nat.succ_le_succ hs⟩
  | stopped hstep hstops =>
    obtain ⟨hspends, hle⟩ := hstops.spends hn (le_of_allows hn hstep)
    have hcarries := Bool.toNat_le (carriesOut o i s)
    exact ⟨((spends_ticked s).trans hspends).weaken (by omega), hle⟩

end Instructions

/-! ## Events -/

/-- The steps by which an event is over the budget. -/
def Event.overrun : Event → Nat
  | .aborted a => a.overrun
  | _ => 0

/-- Whether a run goes on by itself after an event. -/
def Event.goesOn : Event → Bool
  | .idle => true
  | .moved => true
  | _ => false

/-- Whether the next event carries out an instruction. -/
def Machine.carries (o : Options) (m : Machine) : Bool :=
  m.next?.any fun i => carriesOut o i m.state

/-- What an event comes to that starts in the state `s` under `d` frames: it pays for its cells and
leaves `k` steps over, it stays within the budget or ends the run, and each time it goes on there is
less left to do. -/
structure Billed (N k d : Nat) (s : RunState) (r : Machine × Event) : Prop where
  spends : Spends (k + r.2.overrun) s r.1.state
  steps_le : r.1.state.steps ≤ N + r.2.overrun
  halts : r.2.overrun ≠ 0 → r.1.status ≠ .running
  less : r.2.goesOn = true →
    2 * (N - r.1.state.steps) + r.1.frames.length < 2 * (N - s.steps) + d

section Events

variable {o : Options} {n : Int} {m : Machine} {i : Instr} {rest : List Instr}
  {frames : List Frame}

theorem Machine.Fetches.carries (h : m.Fetches i rest frames) :
    m.carries o = carriesOut o i m.state := by
  rw [Machine.carries, h.next?, Option.any_some]

theorem carries_of_next?_eq_none (h : m.next? = none) : m.carries o = false := by
  rw [Machine.carries, h]
  rfl

/-- An instruction that is started leaves the frames where they are. -/
theorem Machine.Fetches.length_frames (h : m.Fetches i rest frames) :
    frames.length = m.frames.length := by
  cases h with
  | _ => rfl

theorem length_unwind_lt {outer : List Frame} {f : Frame} (h : unwind frames = some (f, outer)) :
    outer.length < frames.length := by
  induction frames with
  | nil => cases h
  | cons g frames ih =>
    rw [unwind] at h
    split_ifs at h with hg
    · cases h
      exact Nat.lt_succ_self _
    · exact Nat.lt_succ_of_lt (ih h)

theorem billed_abort {N k d : Nat} {s s' : RunState} {a : Abort}
    (h : Spends (k + a.overrun) s s') (hs' : s'.steps ≤ N + a.overrun) (rest : List Instr)
    (frames : List Frame) : Billed N k d s (Machine.abort rest frames s' a) := by
  cases a with
  | fault f line => exact ⟨h, hs', fun _ => nofun, nofun⟩
  | expr e => exact ⟨h, hs', fun hne => absurd rfl hne, nofun⟩
  | noDirection => exact ⟨h, hs', fun hne => absurd rfl hne, nofun⟩
  | noCell reason => exact ⟨h, hs', fun hne => absurd rfl hne, nofun⟩

/-- An event after which the run goes on pays by its steps for at most one new frame. -/
theorem billed_running {N k : Nat} {s s' : RunState} (h : Spends 1 s s') (hs' : s'.steps ≤ N)
    (hk : k ≤ 1) (rest : List Instr) {frames : List Frame} {d : Nat}
    (hd : frames.length ≤ d + 1) {ev : Event} (hev : ev.overrun = 0) :
    Billed N k d s (⟨rest, frames, s', .running⟩, ev) := by
  refine ⟨?_, ?_, ?_, ?_⟩
  · rw [hev]
    exact h.weaken hk
  · rw [hev]
    exact hs'
  · exact fun hne => absurd hev hne
  · intro _
    have := h.steps
    show 2 * (N - s'.steps) + frames.length < 2 * (N - s.steps) + d
    omega

/-- **What an event spends.** The end of a body costs a step, or drops a frame. -/
theorem Machine.Comes.billed (hn : o.maxSteps = some n) {r : Machine × Event} (h : m.Comes o r)
    (hrun : m.status = .running) (hs : m.state.steps ≤ n.toNat) :
    Billed n.toNat (m.carries o).toNat m.frames.length m.state r := by
  have hk := Bool.toNat_le (m.carries o)
  have counted {i : Instr} {signal : Signal} {s : RunState}
      (hstep : o.allows (m.state.steps + 1) = true)
      (hdone : i.Completes o m.state.ticked signal s) :
      Spends 1 m.state s ∧ s.steps ≤ n.toNat := by
    obtain ⟨hspends, hle⟩ := hdone.spends hn (le_of_allows hn hstep)
    exact ⟨(spends_ticked _).trans hspends, hle⟩
  cases h with
  | halted hstatus => exact absurd hrun hstatus
  | completed => exact ⟨.refl _, hs, fun hne => absurd rfl hne, nofun⟩
  | aborted hfetch haborts =>
    obtain ⟨hspends, hle⟩ := haborts.spends hn hs
    exact billed_abort (by rwa [hfetch.carries]) hle _ _
  | next hfetch hstep hdone =>
    obtain ⟨hspends, hle⟩ := counted hstep hdone
    exact billed_running hspends hle hk _ (hfetch.length_frames ▸ Nat.le_succ _) rfl
  | moved hfetch hstep hdone =>
    obtain ⟨hspends, hle⟩ := counted hstep hdone
    exact billed_running hspends hle hk _ (hfetch.length_frames ▸ Nat.le_succ _) rfl
  | enter hfetch hstep hdone =>
    obtain ⟨hspends, hle⟩ := counted hstep hdone
    exact billed_running hspends hle hk _ (hfetch.length_frames ▸ Nat.le_refl _) rfl
  | breakLoop hfetch hstep hdone hunwind =>
    obtain ⟨hspends, hle⟩ := counted hstep hdone
    have hlt := hfetch.length_frames ▸ length_unwind_lt hunwind
    exact billed_running hspends hle hk _ (by omega) rfl
  | continueLoop hfetch hstep hdone hunwind =>
    obtain ⟨hspends, hle⟩ := counted hstep hdone
    have hlt := hfetch.length_frames ▸ length_unwind_lt hunwind
    exact billed_running hspends hle hk _ (by rw [List.length_cons]; omega) rfl
  | outsideLoop _ hstep hdone _ =>
    obtain ⟨hspends, hle⟩ := counted hstep hdone
    exact billed_abort (hspends.weaken hk) hle _ _
  | left hrest =>
    rw [carries_of_next?_eq_none (next?_of_rest_eq_nil hrest _)]
    refine ⟨.refl _, hs, fun hne => absurd rfl hne, fun _ => ?_⟩
    exact Nat.add_lt_add_left (Nat.lt_succ_self _) _
  | again _ _ hstep =>
    refine billed_running (spends_ticked _) (le_of_allows hn hstep) hk _ ?_ rfl
    exact Nat.le_succ _
  | outOfSteps hrest _ _ =>
    rw [carries_of_next?_eq_none (next?_of_rest_eq_nil hrest _)]
    exact billed_abort (spends_ticked _) (Nat.succ_le_succ hs) _ _
  | unread hrest _ hunread =>
    rw [carries_of_next?_eq_none (next?_of_rest_eq_nil hrest _)]
    exact billed_abort (by rw [hunread.overrun]; exact .refl _) (Nat.le_add_right_of_le hs) _ _

end Events

end PixelTurtle
