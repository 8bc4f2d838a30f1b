import PixelTurtle.Proofs.Truncation
import PixelTurtle.Proofs.View

/-!
# Limits of a run

A run that has a limit is the run without it, as far as it gets. What the run without it has used up
when it comes to its result says which limits would have stopped it, and where.

* `Limit.ofSteps` and `Limit.ofLog` are the two limits, and `curbs_withBudget` and
  `curbs_withLogLimit` say of the options that have them that they are no more than that.
* `step_budget_only_truncates` is about the limit on the steps.
* `log_limit_keeps_first` is about the limit on the log.
-/

namespace PixelTurtle

/-- The same run with another step budget. -/
def Options.withBudget (o : Options) (n : Option Int) : Options :=
  { o with maxSteps := n }

/-- The same run with another limit on the log. -/
def Options.withLogLimit (o : Options) (n : Option Int) : Options :=
  { o with maxOperations := n }

namespace Limit

/-- At most `n` steps. The step that is too many has been counted when the run stops. -/
def ofSteps (n : Nat) : Limit where
  size := RunState.steps
  bound := n
  stop := n + 1
  fault := .stepLimit
  size_congr hsteps _ := hsteps
  size_mono h := h.steps

/-- At most `n` entries in the log. The entry that is too many is not made. -/
def ofLog (n : Nat) : Limit where
  size s := s.log.size
  bound := n
  stop := n
  fault := .outputLimit
  size_congr _ hlog := congrArg Array.size hlog
  size_mono h := h.log.length_le

end Limit

/-! ## Single steps and entries -/

section

variable (o : Options) (n : Nat)

theorem grows_tick (line : Option Int) (s : RunState) : Grows s (stateOf (tick o line s)) := by
  rw [tick_eq]
  split_ifs
  · exact grows_ticked s
  · exact grows_ticked s

theorem grows_record (line : Option Int) (op : Operation) (s : RunState) :
    Grows s (stateOf (record o line op s)) := by
  rw [record_eq_noted]
  split_ifs
  · exact grows_noted o s op
  · exact .refl s

theorem allows_withBudget_iff (steps : Nat) :
    (o.withBudget (some n)).allows steps = true ↔ steps ≤ n :=
  decide_eq_true_iff.trans Int.ofNat_le

theorem fits_withLogLimit_iff (hr : o.record = true) (s : RunState) :
    (o.withLogLimit (some n)).fits s = true ↔ s.log.size < n := by
  have hfits : (o.withLogLimit (some n)).fits s = decide ((s.log.size : Int) < n) := by
    show (!o.record || _) = _
    rw [hr]
    rfl
  rw [hfits, decide_eq_true_iff, Int.ofNat_lt]

/-- The step that exceeds the budget is the first one beyond it. -/
theorem curbs_withBudget : Curbs (.ofSteps n) (o.withBudget none) (o.withBudget (some n)) where
  eq := rfl
  tick line s := by
    refine ⟨grows_tick _ line s, fun hs => ?_⟩
    have hfree : (o.withBudget none).allows (s.steps + 1) = true := rfl
    rw [tick_eq, tick_eq, if_pos hfree]
    by_cases hle : s.steps + 1 ≤ n
    · rw [if_pos ((allows_withBudget_iff o n _).2 hle)]
      exact .same hle
    · rw [if_neg (hle ∘ (allows_withBudget_iff o n _).1)]
      have hlast : s.steps = n := Nat.le_antisymm hs (Nat.le_of_lt_succ (Nat.lt_of_not_le hle))
      exact .stopped (Nat.lt_of_not_le hle) ⟨line, rfl⟩ ⟨congrArg Nat.succ hlast, .refl _⟩
  record line op s := by
    refine truncates_same (grows_record _ line op s) ?_
    rw [record_eq_noted]
    split_ifs
    · rfl
    · rfl

/-- The entry that exceeds the limit is the first one beyond it. -/
theorem curbs_withLogLimit (hr : o.record = true) :
    Curbs (.ofLog n) (o.withLogLimit none) (o.withLogLimit (some n)) where
  eq := rfl
  tick line s := by
    refine truncates_same (grows_tick _ line s) ?_
    rw [tick_eq]
    split_ifs
    · rfl
    · rfl
  record line op s := by
    refine ⟨grows_record _ line op s, fun hs => ?_⟩
    have hsize : (s.noted (o.withLogLimit none) op).log.size = s.log.size + 1 := by
      show (if o.record then s.log.push op else s.log).size = _
      rw [if_pos hr, Array.size_push]
    rw [record_eq_noted, record_eq_noted, if_pos (fits_of_none _ s rfl)]
    by_cases hlt : s.log.size < n
    · rw [if_pos ((fits_withLogLimit_iff o n hr s).2 hlt)]
      exact .same (hsize.trans_le hlt)
    · rw [if_neg (hlt ∘ (fits_withLogLimit_iff o n hr s).1)]
      have hfull : s.log.size = n := Nat.le_antisymm hs (Nat.le_of_not_lt hlt)
      refine .stopped ?_ ⟨line, rfl⟩ ⟨hfull, grows_noted _ s op⟩
      exact Nat.lt_of_lt_of_eq (Nat.lt_succ_of_le hfull.ge) hsize.symm

end

/-! ## The limit on the steps -/

section

variable {γ : Type}

/-- A step budget only cuts the engine short whose run `run` tells of. Where its run without a budget
gives a result, a budget that covers the steps of the result changes nothing, and a smaller one stops
the run with the first step that it does not cover, on the way to that result. -/
structure BudgetTruncates (run : γ → Run) (engine : Options → γ) (o : Options) : Prop where
  within : ∀ r, (run (engine (o.withBudget none))).Gives r → ∀ n : Nat, r.steps ≤ n →
    engine (o.withBudget (some n)) = engine (o.withBudget none)
  beyond : ∀ r, (run (engine (o.withBudget none))).Gives r → ∀ n : Nat, n < r.steps →
    ∃ line r', (run (engine (o.withBudget (some n)))).outcome =
        .error (.runtime .stepLimit line r') ∧
      r'.steps = n + 1 ∧ r'.operations.toList <+: r.operations.toList ∧
      (run (engine (o.withBudget (some n)))).state.calls.toList <+:
        (run (engine (o.withBudget none))).state.calls.toList ∧
      (run (engine (o.withBudget (some n)))).state.pixels.toList <+:
        (run (engine (o.withBudget none))).state.pixels.toList

theorem budgetTruncates_of_cutShort {run : γ → Run} {engine : Options → γ} {o : Options}
    (h : ∀ n, CutsShort (.ofSteps n) run (engine (o.withBudget none))
      (engine (o.withBudget (some n)))) : BudgetTruncates run engine o := by
  constructor
  · intro r hr n hle
    obtain ⟨hsteps, -, htruncated⟩ := h n r hr
    exact htruncated.eq_of_le (hsteps.ge.trans hle)
  · intro r hr n hlt
    obtain ⟨hsteps, hlog, htruncated⟩ := h n r hr
    obtain ⟨⟨line, r', houtcome, hsteps', hlog'⟩, hstops⟩ :=
      htruncated.stops_of_lt (hlt.trans_eq hsteps)
    refine ⟨line, r', houtcome, hsteps'.trans hstops.size, ?_, hstops.grows.calls,
      hstops.grows.pixels⟩
    rw [hlog, hlog']
    exact hstops.grows.log

/-- **A step budget only truncates.** If a run without a step budget comes to a result, by itself or
with a fault, then with a budget of no fewer steps than this result has, it is the same run. With a
smaller budget it fails at its limit, after one step more than the budget has, and its log, the calls
to its renderer and its reported pixels are beginnings of those without a budget. This holds of all
engines, whenever the host cancels the run. -/
theorem step_budget_only_truncates (o : Options) (program : List Instr) :
    BudgetTruncates id (fun o => interpret o program) o ∧
    BudgetTruncates id (fun o => interpretStepping o program) o ∧
    ∀ signal, BudgetTruncates AsyncRun.run (fun o => interpretAsync o signal program) o := by
  have hengines (n : Nat) := engines_cutShort (curbs_withBudget o n) (Nat.zero_le n) program
  refine ⟨budgetTruncates_of_cutShort fun n => (hengines n).1,
    budgetTruncates_of_cutShort fun n => (hengines n).2.1, fun signal => ?_⟩
  exact budgetTruncates_of_cutShort fun n => (hengines n).2.2 signal

/-- Two rounds, each of which lowers the pen. -/
def twoRounds : List Instr :=
  [.loop .count (some (.num 2)) none [.pen .down (some 2)] (some 1)]

/-- Without a step budget, both rounds are made, and the second one costs a step of its own. -/
theorem exists_gives_rounds :
    ∃ r, (interpret { maxSteps := none } twoRounds).Gives r ∧ r.steps = 4 ∧
      r.operations.toList = [.pen true, .pen true] := by
  let o : Options := { maxSteps := none }
  let m : Machine := ⟨twoRounds, [], .start o, .running⟩
  have hstart : Machine.start o twoRounds = .ok m := rfl
  have hended : (m.advance o 6).2 = .ended := by with_unfolding_all rfl
  have hproceed : m.proceed o = some ((m.advance o 6).1, .ended) :=
    Machine.proceed_eq_some_iff.2 ⟨nofun, 6, Prod.ext rfl hended⟩
  have hsteps : (m.advance o 6).1.state.steps = 4 := by decide +kernel
  have hlog : (m.advance o 6).1.state.log.toList = [.pen true, .pen true] := by decide +kernel
  obtain ⟨r, hr, hsteps', hlog'⟩ : ∃ r, (m.advance o 6).1.result = .ok r ∧ _ :=
    exists_result_of_placed (placed_iff.2 ⟨by decide +kernel, by decide +kernel⟩)
  refine ⟨r, .inl ?_, hsteps'.trans hsteps, (congrArg Array.toList hlog').trans hlog⟩
  rw [interpret_eq hstart, Machine.finish_of_ne_moved hproceed nofun]
  show Machine.success _ = _
  rw [Machine.success, hr]

/-- A budget of four steps suffices for both rounds, and one of two steps stops before the second. -/
theorem step_budget_only_truncates_rounds :
    ∃ r, (interpret { maxSteps := none } twoRounds).Gives r ∧ r.steps = 4 ∧
      interpret { maxSteps := some 4 } twoRounds = interpret { maxSteps := none } twoRounds ∧
      ∃ line r', (interpret { maxSteps := some 2 } twoRounds).outcome =
          .error (.runtime .stepLimit line r') ∧
        r'.steps = 3 ∧ r'.operations.toList <+: r.operations.toList := by
  obtain ⟨r, hr, hsteps, -⟩ := exists_gives_rounds
  have htruncates := (step_budget_only_truncates { maxSteps := none } twoRounds).1
  obtain ⟨line, r', houtcome, hsteps', hlog, -⟩ := htruncates.beyond r hr 2 (by omega)
  exact ⟨r, hr, hsteps, htruncates.within r hr 4 hsteps.le, line, r', houtcome, hsteps', hlog⟩

/-! ## The limit on the log -/

/-- A limit on the log keeps the first entries of the engine whose run `run` tells of. Where its run
without a limit gives a result, a limit that has room for the log of the result changes nothing, and
a smaller one stops the run at the first entry that has no room. -/
structure KeepsFirst (run : γ → Run) (engine : Options → γ) (o : Options) : Prop where
  within : ∀ r, (run (engine (o.withLogLimit none))).Gives r → ∀ n : Nat, r.operations.size ≤ n →
    engine (o.withLogLimit (some n)) = engine (o.withLogLimit none)
  beyond : ∀ r, (run (engine (o.withLogLimit none))).Gives r → ∀ n : Nat, n < r.operations.size →
    ∃ line r', (run (engine (o.withLogLimit (some n)))).outcome =
        .error (.runtime .outputLimit line r') ∧
      r'.operations.toList = r.operations.toList.take n

theorem keepsFirst_of_cutShort {run : γ → Run} {engine : Options → γ} {o : Options}
    (h : ∀ n, CutsShort (.ofLog n) run (engine (o.withLogLimit none))
      (engine (o.withLogLimit (some n)))) : KeepsFirst run engine o := by
  constructor
  · intro r hr n hle
    obtain ⟨-, hlog, htruncated⟩ := h n r hr
    exact htruncated.eq_of_le ((congrArg Array.size hlog).ge.trans hle)
  · intro r hr n hlt
    obtain ⟨-, hlog, htruncated⟩ := h n r hr
    obtain ⟨⟨line, r', houtcome, -, hlog'⟩, hstops⟩ :=
      htruncated.stops_of_lt (hlt.trans_eq (congrArg Array.size hlog))
    refine ⟨line, r', houtcome, ?_⟩
    have hsize : (run (engine (o.withLogLimit (some n)))).state.log.size = n := hstops.size
    have htake := List.prefix_iff_eq_take.1 hstops.grows.log
    rw [Array.length_toList, hsize] at htake
    rw [hlog, hlog']
    exact htake

end

/-- Where nothing is hidden, a run is seen as it is. -/
theorem seeRun_id (run : Run) : View.seeRun ⟨id, id, id⟩ run = run := by
  obtain ⟨outcome, state⟩ := run
  cases outcome with
  | ok r => rfl
  | error e =>
    cases e with
    | _ => rfl

/-- A run that is not logged does not notice a limit on the log. -/
theorem mirrors_withLogLimit {o : Options} (hr : o.record = false) (n n' : Option Int) :
    Mirrors ⟨id, id, id⟩ (o.withLogLimit n) (o.withLogLimit n') := by
  have hfits (n : Option Int) (s : RunState) : (o.withLogLimit n).fits s = true := by
    show (!o.record || _) = true
    rw [hr]
    rfl
  have hrecord (line : Option Int) (op : Operation) :
      record (o.withLogLimit n') line op = record (o.withLogLimit n) line op := by
    funext s
    rw [record_eq_noted, record_eq_noted, if_pos (hfits n' s), if_pos (hfits n s)]
    rfl
  have hsame {x x' : Action Unit} (h : x' = x) (s : RunState) : Sees ⟨id, id, id⟩ s x x' := by
    rw [h, Sees]
    cases hx : x s with
    | _ => exact hx
  refine ⟨rfl, rfl, rfl, fun op _ line s => hsame (hrecord line op) s, fun _ _ _ => rfl,
    fun line cell s => hsame ?_ s⟩
  unfold draw
  simp only [hrecord]
  rfl

/-- **A limit on the log keeps its first entries.** If a run without such a limit comes to a result,
by itself or with a fault, then with a limit that the log of this result does not exceed, it is the
same run. With a smaller limit `n` it fails at its limit, even if it had failed later on, and its log
has the first `n` entries of the log without a limit. A run that is not logged is the same with any
limit. This holds of all engines, whenever the host cancels the run. -/
theorem log_limit_keeps_first (o : Options) (program : List Instr) :
    (o.record = true →
      KeepsFirst id (fun o => interpret o program) o ∧
      KeepsFirst id (fun o => interpretStepping o program) o ∧
      ∀ signal, KeepsFirst AsyncRun.run (fun o => interpretAsync o signal program) o) ∧
    (o.record = false → ∀ n n' : Option Int,
      interpret (o.withLogLimit n) program = interpret (o.withLogLimit n') program ∧
      interpretStepping (o.withLogLimit n) program = interpretStepping (o.withLogLimit n') program ∧
      ∀ signal, interpretAsync (o.withLogLimit n) signal program =
        interpretAsync (o.withLogLimit n') signal program) := by
  refine ⟨fun hr => ?_, fun hr n n' => ?_⟩
  · have hengines (n : Nat) := engines_cutShort (curbs_withLogLimit o n hr) (Nat.zero_le n) program
    exact ⟨keepsFirst_of_cutShort fun n => (hengines n).1,
      keepsFirst_of_cutShort fun n => (hengines n).2.1,
      fun signal => keepsFirst_of_cutShort fun n => (hengines n).2.2 signal⟩
  · have hmirrors := mirrors_withLogLimit hr n' n
    have hattuned : Attuned (o.withLogLimit n') (o.withLogLimit n) (.start (o.withLogLimit n')) :=
      .inr rfl
    have honce := interpret_of_mirrors hmirrors hattuned program
    rw [seeRun_id] at honce
    refine ⟨honce, ?_, fun signal => ?_⟩
    · rw [interpretStepping_eq, interpretStepping_eq, honce]
    · have hasync := interpretAsync_of_mirrors hmirrors signal signal (fun _ _ _ => rfl) hattuned
        program
      rwa [View.seeAsync, seeRun_id] at hasync

/-- A log with two entries has room for both rounds, and one with one entry for the first. -/
theorem log_limit_keeps_first_rounds :
    ({ maxSteps := none } : Options).record = true ∧
    ∃ r, (interpret { maxSteps := none } twoRounds).Gives r ∧
      r.operations.toList = [.pen true, .pen true] ∧
      interpret { maxSteps := none, maxOperations := some 2 } twoRounds =
        interpret { maxSteps := none } twoRounds ∧
      ∃ line r', (interpret { maxSteps := none, maxOperations := some 1 } twoRounds).outcome =
          .error (.runtime .outputLimit line r') ∧
        r'.operations.toList = [.pen true] := by
  obtain ⟨r, hr, -, hlog⟩ := exists_gives_rounds
  have hkeeps := ((log_limit_keeps_first { maxSteps := none } twoRounds).1 rfl).1
  have hsize : r.operations.size = 2 := congrArg List.length hlog
  obtain ⟨line, r', houtcome, htake⟩ := hkeeps.beyond r hr 1 (by omega)
  rw [hlog] at htake
  exact ⟨rfl, r, hr, hlog, hkeeps.within r hr 2 hsize.le, line, r', houtcome, htake⟩

end PixelTurtle
