import PixelTurtle.Host.Request
import PixelTurtle.Proofs.Budget
import PixelTurtle.Proofs.Picture
import PixelTurtle.Proofs.Proper

/-!
# Requests over the network

A request says how its program is to be run, but not at what cost. Its limits are capped before
anything is run, they reach the run as they were capped, and the three engines give the same
response.

* `within_of_gives` says that the result of a run is within the limits of the run.
* `capSettings_sound` says what the limits of a request are capped to, and `Capped.Sound.options`
  that a run gets them.
* `RunRequest.respond_eq` is the response to a request with capped limits, whatever its engine.
* `respond_engines_agree` and `respond_within_caps` are the two theorems about responses.
-/

namespace PixelTurtle

/-! ## Limits of a run -/

section Limits

variable {o : Options} {s s' : RunState} {m m₀ : Machine} {past : List Machine} {n : Int}
  {program : List Instr}

/-- A change keeps the log within its limit. -/
theorem size_log_change (hn : o.maxOperations = some n) (h : Change o s s')
    (hs : s.log.size ≤ n.toNat) : s'.log.size ≤ n.toNat := by
  have hnoted (hfits : o.fits s = true) (op : Operation) : (s.noted o op).log.size ≤ n.toNat := by
    rw [Options.fits, Options.hasRoom, hn, Bool.or_eq_true, Bool.not_eq_true',
      decide_eq_true_eq] at hfits
    rw [RunState.noted]
    split_ifs with hr
    · rcases hfits with hunlogged | hroom
      · exact absurd hr (ne_true_of_eq_false hunlogged)
      · rw [Array.size_push]
        omega
    · exact hs
  cases h with
  | tick => exact hs
  | plot _ _ hfits => exact hnoted hfits (.plot _ s.color)
  | move _ _ _ hfits => exact hnoted hfits (.move _)
  | turn _ hfits => exact hnoted hfits (.turn _)
  | pen down _ hfits => exact hnoted hfits (.pen down)
  | penAstray down _ hfits => exact hnoted hfits (.pen down)
  | color _ hfits => exact hnoted hfits (.hsv _)
  | assign => exact hs

/-- What is cut off a change does not reach the log. -/
theorem log_cut (h : Cut o s s') : s'.log = s.log := by
  cases h with
  | _ => rfl

theorem log_start (h : Machine.start o program = .ok m₀) : m₀.state.log = #[] := by
  obtain ⟨calls, hstate⟩ := exists_calls_of_start h
  rw [hstate]
  rfl

/-- **A log never exceeds its limit.** -/
theorem Reaches.size_log_le (hn : o.maxOperations = some n)
    (hstart : Machine.start o program = .ok m₀) (h : Reaches o m₀ past m) :
    m.state.log.size ≤ n.toNat := by
  refine h.invariant_of_cut (I := fun s => s.log.size ≤ n.toNat)
    (fun _ _ hchange => size_log_change hn hchange) (fun _ _ hcut hs => ?_) ?_
  · rw [log_cut hcut]
    exact hs
  · rw [log_start hstart]
    exact Nat.zero_le _

/-- A machine that has completed its program is not over its budget. -/
theorem Solvent.excess_eq_zero {excess N : Nat} (h : Solvent o N excess past m)
    (hreach : Reaches o m₀ past m) (hcompleted : m.status = .completed) : excess = 0 := by
  by_contra hne
  obtain ⟨-, x, hx, line, hlimit⟩ := h.hit hne
  have hfault : (x.step o).2.isFault = true := by
    rw [hlimit]
    rfl
  cases hcompleted.symm.trans (hreach.failed_of_fault hx hfault)

/-- What a run has come to stays within the limits `N` and `n` of its steps and its log. -/
structure RunResult.Within (N n : Nat) (r : RunResult) : Prop where
  steps : r.steps ≤ N + 1
  completed : r.completed = true → r.steps ≤ N
  operations : r.operations.size ≤ n

theorem RunResult.Within.mono {N N' n n' : Nat} {r : RunResult} (h : r.Within N n) (hN : N ≤ N')
    (hn : n ≤ n') : r.Within N' n' where
  steps := h.steps.trans (Nat.succ_le_succ hN)
  completed hc := (h.completed hc).trans hN
  operations := h.operations.trans hn

/-- **A result is within the limits of its run**, and the renderer was told to draw no more cells
than the budget has steps. -/
theorem within_of_gives {N n : Int} (hN : o.maxSteps = some N) (hn : o.maxOperations = some n)
    {r : RunResult} (h : (interpret o program).Gives r) :
    r.Within N.toNat n.toNat ∧ (interpret o program).state.drawn ≤ N.toNat := by
  rw [← interpretAsync_never] at h ⊢
  obtain ⟨m₀, past, m, hstart, hreach, hres, hstate, -⟩ := exists_machine_of_gives h
  obtain ⟨excess, hs⟩ := hreach.solvent hN hstart
  have hsteps := hs.steps
  have hexcess := hs.excess_le
  have hdrawn := hs.drawn
  have hlog := hreach.size_log_le hn hstart
  rw [← hstate]
  obtain ⟨cell, -, rfl⟩ := exists_cell_of_result hres
  refine ⟨⟨?_, fun hcompleted => ?_, hlog⟩, by omega⟩
  · show m.state.steps ≤ N.toNat + 1
    omega
  · have hzero := hs.excess_eq_zero hreach (eq_of_beq hcompleted)
    show m.state.steps ≤ N.toNat
    omega

end Limits

/-! ## Cells of a grid -/

/-- A call paints at most one cell more, and only if it draws. -/
theorem PixelGrid.size_receive_le (g : PixelGrid) (c : Call) :
    (g.receive c).painted.size ≤ g.painted.size + c.isDraw.toNat := by
  cases c with
  | drawPixel cell color => exact Std.TreeMap.size_insert_le
  | clearPixels => exact Nat.zero_le _
  | _ => exact Nat.le_refl _

theorem PixelGrid.size_foldl_receive_le (g : PixelGrid) (calls : List Call) :
    (calls.foldl receive g).painted.size ≤ g.painted.size + calls.countP Call.isDraw := by
  induction calls generalizing g with
  | nil => exact Nat.le_refl _
  | cons c calls ih =>
    have hfirst := g.size_receive_le c
    have hrest := ih (g.receive c)
    have hcount : (c :: calls).countP Call.isDraw = c.isDraw.toNat + calls.countP Call.isDraw := by
      rw [List.countP_cons, Nat.add_comm]
      cases c.isDraw with
      | false => rfl
      | true => rfl
    rw [List.foldl_cons, hcount]
    omega

/-- A grid has no more cells than were painted before and drawn since. -/
theorem PixelGrid.size_receiveAll_le (g : PixelGrid) (s : RunState) :
    (g.receiveAll s.calls).painted.size ≤ g.painted.size + s.drawn := by
  have h := g.size_foldl_receive_le s.calls.toList
  rwa [Array.foldl_toList, Array.countP_toList] at h

namespace Host

/-! ## Capped limits -/

section Caps

variable {settings : Json} {c : Capped} {key : String}

theorem mapError_eq_ok {ε ε' α : Type} {x : Except ε α} {f : ε → ε'} {a : α} :
    x.mapError f = .ok a ↔ x = .ok a := by
  cases x with
  | error e => exact ⟨nofun, nofun⟩
  | ok b => exact ⟨fun h => congrArg _ (Except.ok.inj h), fun h => congrArg _ (Except.ok.inj h)⟩

/-- Capped limits lie within the caps, and the other settings give no limits. -/
structure Capped.Sound (c : Capped) : Prop where
  maxSteps : c.maxSteps ≤ stepCap
  maxOperations : c.maxOperations ≤ operationCap
  others : ∀ key ∈ cappedKeys, c.others.lookup key = none

theorem between_le {lo hi : Int} (h : lo ≤ hi) (n : Int) : between lo hi n ≤ hi :=
  max_le h (min_le_right _ _)

theorem lookup_filter_cappedKeys (h : key ∈ cappedKeys) (fields : List (String × Json)) :
    (fields.filter fun (k, _) => !cappedKeys.contains k).lookup key = none := by
  rw [List.lookup_eq_none_iff]
  intro p hp
  rw [bne_iff_ne]
  rintro rfl
  have hother := (List.mem_filter.1 hp).2
  rw [Bool.not_eq_true', List.contains_eq_mem, decide_eq_false_iff_not] at hother
  exact hother h

/-- **Whatever limits a request asks for, they are capped.** -/
theorem capSettings_sound (h : capSettings settings = .ok c) : c.Sound := by
  obtain ⟨j, -, h⟩ := exists_of_bind_eq_ok h
  simp only at h
  split at h
  · cases h
    exact ⟨le_refl _, le_refl _, fun _ _ => rfl⟩
  · obtain ⟨steps, -, h⟩ := exists_of_bind_eq_ok h
    obtain ⟨operations, -, h⟩ := exists_of_bind_eq_ok h
    obtain ⟨delay, -, h⟩ := exists_of_bind_eq_ok h
    cases h
    exact ⟨between_le (by decide) steps, between_le (by decide) operations,
      fun key hkey => lookup_filter_cappedKeys hkey _⟩

/-- A limit that was capped is the one that is looked up. -/
theorem Capped.Sound.get? (h : c.Sound) (hkey : key ∈ cappedKeys) :
    c.toJson.get? key = List.lookup key [("max_steps", .int c.maxSteps),
      ("max_operations", .int c.maxOperations), ("delay", .real c.delay)] := by
  rw [Json.get?, Capped.toJson, Json.fields, List.lookup_append, h.others key hkey,
    Option.none_or]

theorem Capped.settingsObject_toJson (c : Capped) : settingsObject c.toJson = .ok c.toJson := by
  obtain ⟨maxSteps, maxOperations, delay, others⟩ := c
  cases others with
  | nil => rfl
  | cons p others => rfl

/-- The limits of a run are those that its settings ask for. -/
theorem limits_of_options {limits : Limits} {o : Options} (h : limits.options settings = .ok o) :
    ∃ steps operations, limit settings "max_steps" limits.maxSteps = .ok steps ∧
      limit settings "max_operations" limits.maxOperations = .ok operations ∧
      o.maxSteps = some steps ∧ o.maxOperations = some operations := by
  obtain ⟨startX, -, h⟩ := exists_of_bind_eq_ok h
  obtain ⟨startY, -, h⟩ := exists_of_bind_eq_ok h
  obtain ⟨heading, -, h⟩ := exists_of_bind_eq_ok h
  obtain ⟨width, -, h⟩ := exists_of_bind_eq_ok h
  obtain ⟨height, -, h⟩ := exists_of_bind_eq_ok h
  obtain ⟨penDown, -, h⟩ := exists_of_bind_eq_ok h
  obtain ⟨record, -, h⟩ := exists_of_bind_eq_ok h
  obtain ⟨color, -, h⟩ := exists_of_bind_eq_ok h
  obtain ⟨steps, hsteps, h⟩ := exists_of_bind_eq_ok h
  obtain ⟨operations, hoperations, h⟩ := exists_of_bind_eq_ok h
  cases h
  exact ⟨steps, operations, hsteps, hoperations, rfl, rfl⟩

/-- **A run gets its limits as they were capped.** -/
theorem Capped.Sound.options (h : c.Sound) {limits : Limits} {o : Options}
    (ho : limits.options c.toJson = .ok o) :
    o.maxSteps = some c.maxSteps ∧ o.maxOperations = some c.maxOperations := by
  obtain ⟨steps, operations, hsteps, hoperations, ho⟩ := limits_of_options ho
  rw [limit, h.get? (by decide)] at hsteps hoperations
  cases hsteps
  cases hoperations
  exact ho

theorem Capped.Sound.delay (h : c.Sound) : Limits.delay c.toJson = .ok c.delay := by
  rw [Limits.delay, h.get? (by decide)]
  rfl

end Caps

/-! ## Responses -/

section Responses

variable {c : Capped} {code : String} {grid : Option PixelGrid} {reply : Reply} {r : RunRequest}

/-- The limits of a host that serves a request. -/
def Capped.limits (c : Capped) : Limits :=
  { maxSteps := .int c.maxSteps, maxOperations := .int c.maxOperations }

/-- What is served to a request with capped limits, whatever its engine. -/
def Capped.serve (c : Capped) (code : String) (grid : Option PixelGrid) : Served :=
  match c.limits.prepare (.str code) c.toJson with
  | .error refusal => .refused grid refusal
  | .ok (program, o) => .ran (.str code) grid (interpret (onGrid grid o) program)

/-- The grid of a request, if it wants a picture. -/
def RunRequest.canvas (r : RunRequest) : Option PixelGrid :=
  if r.render then some {} else none

theorem run_sync (c : Capped) (code : String) (grid : Option PixelGrid) :
    c.limits.run (.str code) c.toJson (.str "sync") grid = c.serve code grid :=
  rfl

theorem run_step (c : Capped) (code : String) (grid : Option PixelGrid) :
    c.limits.run (.str code) c.toJson (.str "step") grid = c.serve code grid := by
  rw [← run_sync]
  unfold Limits.run
  cases c.limits.prepare (.str code) c.toJson with
  | error refusal => rfl
  | ok prepared => exact congrArg (Served.ran (.str code) grid) (interpretStepping_eq _ _)

/-- The engine with pauses looks at one more setting, which the caps have made a number. -/
theorem Capped.Sound.runAsync (h : c.Sound) (code : String) (grid : Option PixelGrid) :
    c.limits.runAsync (.str code) c.toJson (fun _ => false) grid = c.serve code grid := by
  unfold Limits.runAsync Capped.serve
  rw [h.delay]
  cases c.limits.prepare (.str code) c.toJson with
  | error refusal => rfl
  | ok prepared => exact congrArg (Served.ran (.str code) grid) (interpretAsync_never _ _)

/-- The engines that a request can name. -/
def engineNames : List String :=
  ["sync", "step", "async"]

/-- **The response to a request does not depend on its engine**, if there is an engine of that
name. -/
theorem RunRequest.respond_eq (hc : capSettings r.settings = .ok c) (he : r.engine ∈ engineNames) :
    r.respond = .ofServed (c.serve r.code r.canvas) := by
  obtain ⟨code, settings, engine, render⟩ := r
  simp only [RunRequest.respond, hc]
  congr 1
  rcases List.mem_cons.1 he with rfl | he
  · exact run_sync c code _
  rcases List.mem_cons.1 he with rfl | he
  · exact run_step c code _
  · obtain rfl := List.mem_singleton.1 he
    exact (capSettings_sound hc).runAsync code _

/-- A request that names no engine is refused. -/
theorem RunRequest.respond_of_not_mem (hc : capSettings r.settings = .ok c)
    (he : r.engine ∉ engineNames) : ∃ e, r.respond = .answered (.failed e) r.canvas := by
  obtain ⟨code, settings, engine, render⟩ := r
  simp only [engineNames, List.mem_cons, List.not_mem_nil, or_false, not_or] at he
  obtain ⟨hsync, hstep, hasync⟩ := he
  simp only [RunRequest.respond, hc, beq_eq_false_iff_ne.2 hasync, Bool.false_eq_true, if_false]
  unfold Limits.run
  extract_lets run
  split
  · rename_i h
    cases h
    exact absurd rfl hsync
  · rename_i h
    cases h
    exact absurd rfl hstep
  · exact ⟨_, rfl⟩

/-- A reply to a run has the result that the run gives. -/
theorem exists_gives_of_replyTo {run : Run} (h : replyTo code run.outcome = .ok reply) :
    ∃ result, reply.result = some result ∧ run.Gives result := by
  cases hout : run.outcome with
  | ok result =>
    rw [hout] at h
    cases h
    exact ⟨result, rfl, .inl hout⟩
  | error failure =>
    rw [hout] at h
    cases failure with
    | runtime f line result =>
      cases h
      exact ⟨result, rfl, .inr ⟨f, line, hout⟩⟩
    | _ => cases h

theorem options_of_prepare {limits : Limits} {program : List Instr} {o : Options}
    (h : limits.prepare (.str code) c.toJson = .ok (program, o)) :
    limits.options c.toJson = .ok o := by
  obtain ⟨program, -, h⟩ := exists_of_bind_eq_ok h
  obtain ⟨settings, hsettings, h⟩ := exists_of_bind_eq_ok h
  obtain ⟨options, hoptions, h⟩ := exists_of_bind_eq_ok h
  cases h
  rw [mapError_eq_ok, c.settingsObject_toJson] at hsettings
  cases hsettings
  exact mapError_eq_ok.1 hoptions

/-- What is served to a request with capped limits is within the caps. -/
theorem Capped.Sound.serve_within (h : c.Sound) (hgrid : ∀ g ∈ grid, g.painted.size = 0)
    (hreply : (c.serve code grid).reply = .ok reply) :
    (∀ result, reply.result = some result → result.Within stepCap.toNat operationCap.toNat) ∧
      ∀ g, (c.serve code grid).grid = some g → g.painted.size ≤ stepCap.toNat := by
  unfold Capped.serve at hreply ⊢
  cases hp : c.limits.prepare (.str code) c.toJson with
  | error refusal =>
    rw [hp] at hreply
    cases refusal with
    | escape e => cases hreply
    | report e =>
      cases hreply
      exact ⟨nofun, fun g hg => (hgrid g hg).trans_le (Nat.zero_le _)⟩
  | ok prepared =>
    obtain ⟨program, o⟩ := prepared
    rw [hp] at hreply
    obtain ⟨hsteps, hoperations⟩ := h.options (options_of_prepare hp)
    obtain ⟨result, hresult, hgives⟩ := exists_gives_of_replyTo hreply
    have hwithin := within_of_gives (o := onGrid grid o) hsteps hoperations hgives
    have hN : c.maxSteps.toNat ≤ stepCap.toNat := Int.toNat_le_toNat h.maxSteps
    refine ⟨fun result' hresult' => ?_, fun g hg => ?_⟩
    · cases hresult.symm.trans hresult'
      exact hwithin.1.mono hN (Int.toNat_le_toNat h.maxOperations)
    · obtain ⟨g, hmem, rfl⟩ := Option.map_eq_some_iff.1 hg
      have hsize := g.size_receiveAll_le (interpret (onGrid grid o) program).state
      rw [hgrid g hmem, Nat.zero_add] at hsize
      exact hsize.trans (hwithin.2.trans hN)

theorem size_painted_canvas (r : RunRequest) : ∀ g ∈ r.canvas, g.painted.size = 0 := by
  intro g hg
  unfold RunRequest.canvas at hg
  split_ifs at hg
  · cases hg
    rfl
  · cases hg

end Responses

/-- **The engines are interchangeable.** Whatever the program, the settings and whether the picture
is wanted, the response to a request does not depend on which of the three engines it names, be it
a result, a report or a failure that is not reported otherwise. -/
theorem respond_engines_agree (code : String) (settings : Json) (render : Bool) :
    RunRequest.respond ⟨code, settings, "step", render⟩ =
        RunRequest.respond ⟨code, settings, "sync", render⟩ ∧
      RunRequest.respond ⟨code, settings, "async", render⟩ =
        RunRequest.respond ⟨code, settings, "sync", render⟩ := by
  cases hc : capSettings settings with
  | error e =>
    have herror (engine : String) :
        RunRequest.respond ⟨code, settings, engine, render⟩ = .serverError e.message := by
      simp only [RunRequest.respond, hc]
    rw [herror, herror, herror]
    exact ⟨rfl, rfl⟩
  | ok c =>
    have hserve (engine : String) (he : engine ∈ engineNames) :
        RunRequest.respond ⟨code, settings, engine, render⟩ =
          .ofServed (c.serve code (RunRequest.canvas ⟨code, settings, "sync", render⟩)) :=
      RunRequest.respond_eq (r := ⟨code, settings, engine, render⟩) hc he
    rw [hserve "step" (by decide), hserve "async" (by decide), hserve "sync" (by decide)]
    exact ⟨rfl, rfl⟩

/-- **A response keeps the caps of the server**, whatever limits, engine and picture were asked for.
A result has at most one step over a million, and not that one if the program was completed; its
log has at most two hundred thousand entries, and the canvas at most a million pixels. -/
theorem respond_within_caps (r : RunRequest) {reply : Reply} {canvas : Option PixelGrid}
    (h : r.respond = .answered reply canvas) :
    (∀ result, reply.result = some result →
      result.steps ≤ 1000001 ∧ (result.completed = true → result.steps ≤ 1000000) ∧
        result.operations.size ≤ 200000) ∧
      ∀ g, canvas = some g → g.painted.toList.length ≤ 1000000 := by
  cases hc : capSettings r.settings with
  | error e =>
    simp only [RunRequest.respond, hc] at h
    cases h
  | ok c =>
    by_cases he : r.engine ∈ engineNames
    · rw [RunRequest.respond_eq hc he, Response.ofServed] at h
      split at h
      · rename_i hreply
        cases h
        have hwithin := (capSettings_sound hc).serve_within (size_painted_canvas r) hreply
        refine ⟨fun result hresult => ?_, fun g hg => ?_⟩
        · obtain ⟨hsteps, hcompleted, hoperations⟩ := hwithin.1 result hresult
          exact ⟨hsteps, hcompleted, hoperations⟩
        · rw [Std.TreeMap.length_toList]
          exact hwithin.2 g hg
      · cases h
    · obtain ⟨e, hrefused⟩ := RunRequest.respond_of_not_mem hc he
      cases hrefused.symm.trans h
      refine ⟨nofun, fun g hg => ?_⟩
      rw [Std.TreeMap.length_toList, size_painted_canvas r g hg]
      exact Nat.zero_le _

/-- A machine that has nothing left to do ends. -/
theorem step_of_nothing_left {o : Options} {m : Machine} (hrest : m.rest = [])
    (hframes : m.frames = []) (hm : m.status = .running) : (m.step o).2 = .ended := by
  obtain ⟨rest, frames, s, status⟩ := m
  subst hrest hframes hm
  rfl

/-- A request for less than one step and for a fraction of an entry gets one step and two entries,
which suffice for its turn. -/
theorem respond_within_caps_turn :
    ∃ reply result canvas,
      RunRequest.respond ⟨"left 90", .obj [("max_steps", .str "-7"), ("max_operations", .real 2.5)],
        "async", true⟩ = .answered reply (some canvas) ∧
      reply.result = some result ∧ result.completed = true ∧ result.steps = 1 ∧
      result.steps ≤ 1000000 ∧ canvas.painted.toList.length ≤ 1000000 := by
  let r : RunRequest :=
    ⟨"left 90", .obj [("max_steps", .str "-7"), ("max_operations", .real 2.5)], "async", true⟩
  have hrun : (capSettings r.settings).toOption.any fun c =>
      (c.limits.prepare (.str r.code) c.toJson).toOption.any fun p =>
        (Machine.start (onGrid r.canvas p.2) p.1).toOption.any fun m =>
          (m.after (onGrid r.canvas p.2) 2).result.toOption.any fun result =>
            (m.step (onGrid r.canvas p.2)).2.goesOn &&
              (m.after (onGrid r.canvas p.2) 1).rest.isEmpty &&
              (m.after (onGrid r.canvas p.2) 1).frames.isEmpty &&
              (m.after (onGrid r.canvas p.2) 1).status == .running &&
              result.completed && result.steps == 1 := by
    decide +kernel
  obtain ⟨c, hc, hrun⟩ := exists_of_any_toOption hrun
  obtain ⟨⟨program, o⟩, hp, hrun⟩ := exists_of_any_toOption hrun
  obtain ⟨m, hstart, hrun⟩ := exists_of_any_toOption hrun
  obtain ⟨result, hres, hrun⟩ := exists_of_any_toOption hrun
  simp only [Bool.and_eq_true, beq_iff_eq, List.isEmpty_iff] at hrun
  obtain ⟨⟨⟨⟨⟨hfirst, hrest⟩, hframes⟩, hrunning⟩, hcompleted⟩, hsteps⟩ := hrun
  have hstep : (m.after (onGrid r.canvas o) 1).step (onGrid r.canvas o) =
      (m.after (onGrid r.canvas o) 2, .ended) :=
    Prod.ext rfl (step_of_nothing_left hrest hframes hrunning)
  have hfinish : m.finish (onGrid r.canvas o) = some (m.after (onGrid r.canvas o) 2, .ended) := by
    have hgoes : m.finish (onGrid r.canvas o) =
        (m.after (onGrid r.canvas o) 1).finish (onGrid r.canvas o) :=
      Machine.finish_of_goesOn rfl hfirst
    rw [hgoes]
    exact Machine.finish_of_not_goesOn hstep rfl
  have hrespond : r.respond = .answered ⟨some result, none⟩
      (r.canvas.map (·.receiveAll (m.after (onGrid r.canvas o) 2).state.calls)) := by
    rw [RunRequest.respond_eq hc (by decide)]
    simp only [Capped.serve, hp, Served.ran, interpret_eq hstart, hfinish, Option.elim_some,
      Machine.outcome, Machine.success, hres]
    rfl
  have hwithin := respond_within_caps r hrespond
  exact ⟨_, result, _, hrespond, rfl, hcompleted, hsteps, (hwithin.1 result rfl).2.1 hcompleted,
    hwithin.2 _ rfl⟩

end Host

end PixelTurtle
