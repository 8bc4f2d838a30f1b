import PixelTurtle.Proofs.Complaints
import PixelTurtle.Proofs.Heading
import PixelTurtle.Proofs.Truncation

/-!
# What a host gets for its settings

A host that has a program run gets a reply, whatever the program does and whatever its settings are:
the result of the run, a fault with what the run had come to, or a report of what is wrong with the
program or the settings. The exceptions are settings that are numbers, but not of use as such: those
that are too large to be converted, and those that put the turtle where it has no cell or turn it
where it has no direction. They get by the check of the settings, and then there need not be a reply.

* `exists_gives_of_settled` says that a run with a budget comes to an end of which there is a reply,
  if the turtle has a cell and a direction at the start; `not_gives_of_astray` that there is none if
  it has no cell.
* `prepare_whole` says how a request is prepared.
* `Answers` are the replies that a host is promised, `Unnoticed` the exceptions.
* `run_answers` is the theorem about replies.
-/

namespace PixelTurtle

/-! ## Runs that come to a result -/

section Runs

variable {o : Options} {program : List Instr} {p : Option Int → Prop} {n : Int} {m : Machine}

theorem gives_success (h : m.state.Placed) :
    ∃ r, Run.Gives ⟨m.success, m.state⟩ r := by
  obtain ⟨r, hr, -⟩ := exists_result_of_placed h
  refine ⟨r, .inl ?_⟩
  show m.success = .ok r
  rw [Machine.success, hr]

theorem gives_fault (h : m.state.Placed) (f : Fault) (line : Option Int) :
    ∃ r, Run.Gives ⟨.error (m.failure (.fault f line)), m.state⟩ r := by
  obtain ⟨r, hr, -⟩ := exists_result_of_placed h
  refine ⟨r, .inr ⟨f, line, ?_⟩⟩
  show Except.error (m.failure (.fault f line)) = _
  rw [Machine.failure, hr]

/-- **A turtle that starts with a cell and a direction comes to a result**, if there is a budget and
the program does not get stuck. -/
theorem exists_gives_of_settled (ho : o.Settled) (hn : o.maxSteps = some n)
    (hp : ProperAll p false program) : ∃ r, (interpret o program).Gives r := by
  obtain ⟨m₀, hstart, h₀⟩ := settled_start ho program
  rcases interpret_ends hstart with hendless | ⟨past, m, hpast, hends⟩
  · refine absurd ?_ (interpret_ne_unfinished hn program)
    rw [hendless]
    rfl
  · have hm := hpast.1.settled h₀
    have hproper := hpast.1.proper (proper_start hp hstart)
    have hnext := hpast.1.step.settled h₀
    generalize interpret o program = run at hends
    cases hends with
    | ended hstep =>
      rw [hstep] at hnext
      exact gives_success hnext.placed
    | @aborted m' a hstep =>
      rw [hstep] at hnext
      have hjustified := justified_of_aborted hstep
      cases a with
      | fault f line => exact gives_fault hnext.placed f line
      | expr e => exact absurd (regular_of_step hproper hstep) id
      | noDirection => cases hjustified.symm.trans hm.heading
      | noCell reason => exact absurd hm.placed hjustified.1
    | cancelled =>
      refine gives_fault ?_ .cancelled none
      rw [Machine.cancel_state]
      exact hm.placed

/-- A turtle that starts without a cell comes to no result. -/
theorem not_gives_of_astray (ho : (RunState.start o).Astray) (r : RunResult) :
    ¬ (interpret o program).Gives r := by
  intro h
  rw [← interpretAsync_never] at h
  obtain ⟨m₀, past, m, hstart, hreach, hres, -⟩ := exists_machine_of_gives h
  have h₀ : m₀.state.Astray := by
    obtain ⟨calls, hstate⟩ := exists_calls_of_start hstart
    rw [hstate]
    exact ho
  exact hreach.astray h₀ (placed_of_result hres).1

end Runs

namespace Host

/-! ## Requests of a host -/

/-- Limits that are integers. -/
def Limits.whole (steps operations chars : Int) : Limits :=
  ⟨.int steps, .int operations, .int chars⟩

section

variable {limits : Limits} {steps operations chars : Int} {source : String}
  {settings engine : Json} {grid : Option PixelGrid} {o : Options} {program : List Instr}
  {reply : Reply}

/-- Settings as a service takes them. -/
def IsSettings (settings : Json) : Prop :=
  settings = .null ∨ ∃ fields, settings = .obj fields

/-- The report about a text that is too long. -/
def tooLarge (chars : Int) : ErrorReport where
  code := "CODE_TOO_LARGE"
  message := "Program longer than " ++ (Json.int chars).plain ++ " characters"

theorem program_whole :
    (Limits.whole steps operations chars).program (.str source) =
      if chars < source.length then .error (.report (tooLarge chars))
      else (Source.parse source).mapError (refuseSource source) := by
  have hcheck : (Limits.whole steps operations chars).program (.str source) =
      if decide (chars < source.length) = true then .error (.report (tooLarge chars))
      else (Source.parse source).mapError (refuseSource source) := rfl
  rw [hcheck]
  simp only [decide_eq_true_eq]

theorem exists_settingsObject (limits : Limits) (h : IsSettings settings) :
    ∃ j, settingsObject settings = .ok j ∧ limits.options settings = limits.options j := by
  rcases h with rfl | ⟨fields, rfl⟩
  · exact ⟨.obj [], rfl, rfl⟩
  · cases fields with
    | nil => exact ⟨.obj [], rfl, rfl⟩
    | cons field fields => exact ⟨_, rfl, rfl⟩

/-- **How a request is prepared**: first the length of the text is checked, then the text is read,
and then the settings. -/
theorem prepare_whole (h : IsSettings settings) :
    (Limits.whole steps operations chars).prepare (.str source) settings =
      if chars < source.length then .error (.report (tooLarge chars))
      else
        match Source.parse source with
        | .error e => .error (refuseSource source e)
        | .ok program =>
          match (Limits.whole steps operations chars).options settings with
          | .error e => .error (refuseSetting e)
          | .ok o => .ok (program, o) := by
  obtain ⟨j, hj, hoptions⟩ := exists_settingsObject (Limits.whole steps operations chars) h
  rw [Limits.prepare, program_whole, hoptions]
  split_ifs
  · rfl
  · cases Source.parse source with
    | error e => rfl
    | ok program =>
      rw [hj]
      show ((Limits.whole steps operations chars).options j).mapError refuseSetting >>= _ = _
      cases (Limits.whole steps operations chars).options j with
      | error e => rfl
      | ok o => rfl

/-- The two engines of a service give the same replies. -/
theorem run_eq (limits : Limits) (source : String) (settings : Json) (grid : Option PixelGrid)
    (h : engine = .str "sync" ∨ engine = .str "step") :
    limits.run (.str source) settings engine grid =
      match limits.prepare (.str source) settings with
      | .error r => .refused grid r
      | .ok (program, o) => .ran (.str source) grid (interpret (onGrid grid o) program) := by
  rcases h with rfl | rfl
  · rfl
  · show (match limits.prepare (.str source) settings with
      | .error r => Served.refused grid r
      | .ok (program, o) =>
        Served.ran (.str source) grid (interpretStepping (onGrid grid o) program)) = _
    simp only [interpretStepping_eq]

/-! ## Replies -/

/-- The replies that a host is promised to a request to run a text. -/
inductive Answers (steps operations chars : Int) (source : String) (settings : Json)
    (grid : Option PixelGrid) : Reply → Prop
  /-- The text is too long. -/
  | tooLarge : chars < source.length →
    Answers steps operations chars source settings grid (.failed (tooLarge chars))
  /-- The text is no program. -/
  | malformed {c : Source.Complaint} {line column : Nat} : source.length ≤ chars →
    Source.parse source = .error (.malformed c line column) →
    Answers steps operations chars source settings grid (.failed {
      code := "SYNTAX_ERROR"
      message := c.message
      line := some line
      column := some column
      lineText := lineText? source (some line)
      hint := some "Check the command name or syntax." })
  /-- A setting cannot be converted. -/
  | refused {program : List Instr} {e : ConversionError} : source.length ≤ chars →
    Source.parse source = .ok program →
    (Limits.whole steps operations chars).options settings = .error e →
    Answers steps operations chars source settings grid
      (.failed { code := "INVALID_SETTINGS", message := e.message })
  /-- The program runs to its end. -/
  | completed {program : List Instr} {o : Options} {r : RunResult} : source.length ≤ chars →
    Source.parse source = .ok program →
    (Limits.whole steps operations chars).options settings = .ok o →
    (interpret (onGrid grid o) program).outcome = .ok r →
    Answers steps operations chars source settings grid ⟨some r, none⟩
  /-- The program stops with a fault. -/
  | failed {program : List Instr} {o : Options} {f : Fault} {line : Option Int} {r : RunResult} :
    source.length ≤ chars → Source.parse source = .ok program →
    (Limits.whole steps operations chars).options settings = .ok o →
    (interpret (onGrid grid o) program).outcome = .error (.runtime f line r) →
    Answers steps operations chars source settings grid ⟨some r, some {
      code := f.code
      message := f.message
      line := line
      lineText := lineText? source line }⟩

/-- The settings get by the check, but a number among them is too large, or they start the turtle
without a cell or a direction. -/
inductive Unnoticed (limits : Limits) (settings : Json) : Prop
  | overflow {e : ConversionError} : limits.options settings = .error e → e.isOverflow = true →
    Unnoticed limits settings
  | position {o : Options} : limits.options settings = .ok o →
    o.startX.isFinite = false ∨ o.startY.isFinite = false → Unnoticed limits settings
  | heading {o : Options} : limits.options settings = .ok o → o.heading.isInf = true →
    Unnoticed limits settings

/-- **A service gives no other replies.** -/
theorem answers_of_reply (hsettings : IsSettings settings)
    (hengine : engine = .str "sync" ∨ engine = .str "step")
    (hreply : ((Limits.whole steps operations chars).run (.str source) settings engine grid).reply =
      .ok reply) : Answers steps operations chars source settings grid reply := by
  rw [run_eq _ _ _ _ hengine, prepare_whole hsettings] at hreply
  by_cases hlarge : chars < source.length
  · rw [if_pos hlarge] at hreply
    cases hreply
    exact .tooLarge hlarge
  rw [if_neg hlarge] at hreply
  rw [Int.not_lt] at hlarge
  cases hparse : Source.parse source with
  | error e =>
    rw [hparse] at hreply
    cases e with
    | malformed c line column =>
      cases hreply
      exact .malformed hlarge hparse
    | numeral digits => cases hreply
  | ok program =>
  rw [hparse] at hreply
  cases hoptions : (Limits.whole steps operations chars).options settings with
  | error e =>
    simp only [hoptions] at hreply
    unfold refuseSetting at hreply
    split_ifs at hreply
    · cases hreply
    · cases hreply
      exact .refused hlarge hparse hoptions
  | ok o =>
  simp only [hoptions] at hreply
  change replyTo source (interpret (onGrid grid o) program).outcome = .ok reply at hreply
  cases hout : (interpret (onGrid grid o) program).outcome with
  | ok r =>
    rw [hout] at hreply
    cases hreply
    exact .completed hlarge hparse hoptions hout
  | error failure =>
    rw [hout] at hreply
    cases failure with
    | runtime f line r =>
      cases hreply
      exact .failed hlarge hparse hoptions hout
    | _ => cases hreply

/-- A run that has a result has a reply. -/
theorem exists_replyTo {run : Run} {r : RunResult} (h : run.Gives r) :
    ∃ reply, replyTo source run.outcome = .ok reply := by
  rcases h with h | ⟨f, line, h⟩
  · rw [h]
    exact ⟨_, rfl⟩
  · rw [h]
    exact ⟨_, rfl⟩

/-- **There is a reply**, unless the settings are of no use and get by the check. -/
theorem exists_reply (hsource : ∀ digits, Source.parse source ≠ .error (.numeral digits))
    (hsettings : IsSettings settings) (hengine : engine = .str "sync" ∨ engine = .str "step")
    (hnoticed : ¬ Unnoticed (Limits.whole steps operations chars) settings) :
    ∃ reply, ((Limits.whole steps operations chars).run (.str source) settings engine grid).reply =
      .ok reply := by
  rw [run_eq _ _ _ _ hengine, prepare_whole hsettings]
  split_ifs
  · exact ⟨_, rfl⟩
  · cases hparse : Source.parse source with
    | error e =>
      cases e with
      | malformed c line column => exact ⟨_, rfl⟩
      | numeral digits => exact absurd hparse (hsource digits)
    | ok program =>
      cases hoptions : (Limits.whole steps operations chars).options settings with
      | error e =>
        simp only [refuseSetting]
        split_ifs with hoverflow
        · exact absurd (.overflow hoptions hoverflow) hnoticed
        · exact ⟨_, rfl⟩
      | ok o =>
        have hsettled : (onGrid grid o).Settled := by
          refine settled_of_finite ?_ ?_ ?_
          · exact Bool.not_eq_false _ ▸ fun h => hnoticed (.position hoptions (.inl h))
          · exact Bool.not_eq_false _ ▸ fun h => hnoticed (.position hoptions (.inr h))
          · exact Bool.not_eq_true _ ▸ fun h => hnoticed (.heading hoptions h)
        obtain ⟨n, -, -, -, hn, -⟩ := limits_of_options hoptions
        obtain ⟨r, hr⟩ := exists_gives_of_settled (n := n) hsettled hn
          (Source.properAll_of_parse hparse)
        exact exists_replyTo hr

/-- A number that is too large is not reported. -/
theorem reply_of_overflow (hsettings : IsSettings settings)
    (hengine : engine = .str "sync" ∨ engine = .str "step") (hlarge : source.length ≤ chars)
    (hparse : Source.parse source = .ok program) {e : ConversionError}
    (hoptions : (Limits.whole steps operations chars).options settings = .error e)
    (hoverflow : e.isOverflow = true) :
    ((Limits.whole steps operations chars).run (.str source) settings engine grid).reply =
      .error (.setting e) := by
  rw [run_eq _ _ _ _ hengine, prepare_whole hsettings, if_neg (Int.not_lt.2 hlarge), hparse]
  simp only [hoptions, refuseSetting, if_pos hoverflow]
  rfl

/-- There is no reply if the turtle starts without a cell. -/
theorem exists_escape_of_astray (hsettings : IsSettings settings)
    (hengine : engine = .str "sync" ∨ engine = .str "step") (hlarge : source.length ≤ chars)
    (hparse : Source.parse source = .ok program)
    (hoptions : (Limits.whole steps operations chars).options settings = .ok o)
    (hastray : o.startX.isFinite = false ∨ o.startY.isFinite = false) :
    ∃ e, ((Limits.whole steps operations chars).run (.str source) settings engine grid).reply =
      .error e := by
  rw [run_eq _ _ _ _ hengine, prepare_whole hsettings, if_neg (Int.not_lt.2 hlarge), hparse]
  simp only [hoptions]
  show ∃ e, replyTo source (interpret (onGrid grid o) program).outcome = .error e
  cases hreply : replyTo source (interpret (onGrid grid o) program).outcome with
  | error e => exact ⟨e, rfl⟩
  | ok reply =>
    obtain ⟨r, -, hr⟩ := exists_gives_of_replyTo hreply
    refine absurd hr (not_gives_of_astray (fun hplaced => ?_) r)
    obtain ⟨hx, hy⟩ := placed_iff.1 hplaced
    rcases hastray with hastray | hastray
    · exact Bool.false_ne_true (hastray.symm.trans hx)
    · exact Bool.false_ne_true (hastray.symm.trans hy)

/-- **What a host gets for a text, settings and an engine.** If there is a reply to a request with
settings and the name of an engine, it is the one that was promised; and there is a reply, unless a
setting is too large or the turtle starts without a cell or a direction. Where a program could be
run, a setting that is too large or a start without a cell never leads to a reply. -/
theorem run_answers (steps operations chars : Int) (grid : Option PixelGrid)
    (hsource : (∃ program, Source.parse source = .ok program) ∨
      ∃ c line column, Source.parse source = .error (.malformed c line column))
    (hsettings : settings = .null ∨ ∃ fields, settings = .obj fields)
    (hengine : engine = .str "sync" ∨ engine = .str "step") :
    let limits := Limits.whole steps operations chars
    let reply := (limits.run (.str source) settings engine grid).reply
    (∀ r, reply = .ok r → Answers steps operations chars source settings grid r) ∧
    (¬ Unnoticed limits settings → ∃ r, reply = .ok r) ∧
    ∀ program, Source.parse source = .ok program → source.length ≤ chars →
      (∀ e, limits.options settings = .error e → e.isOverflow = true →
        reply = .error (.setting e)) ∧
      ∀ o, limits.options settings = .ok o → o.startX.isFinite = false ∨ o.startY.isFinite = false →
        ∃ e, reply = .error e := by
  have hnumeral (digits : List Char) : Source.parse source ≠ .error (.numeral digits) := by
    intro h
    rcases hsource with ⟨program, hprogram⟩ | ⟨c, line, column, hmalformed⟩
    · cases h.symm.trans hprogram
    · cases h.symm.trans hmalformed
  refine ⟨fun r => answers_of_reply hsettings hengine, exists_reply hnumeral hsettings hengine,
    fun program hparse hlarge => ⟨fun e => reply_of_overflow hsettings hengine hlarge hparse,
      fun o => exists_escape_of_astray hsettings hengine hlarge hparse⟩⟩

/-- A run from half a cell, with a numeral for a setting, is answered even if it has no budget. -/
theorem run_answers_without_budget :
    ∃ r, ((Limits.whole 1000000 200000 100000).run (.str "left 90\nforward 1/0")
        (.obj [("start_x", .str " 2.5 "), ("heading", .null), ("max_steps", .bool false)])
        (.str "step") (some {})).reply = .ok r ∧
      Answers 1000000 200000 100000 "left 90\nforward 1/0"
        (.obj [("start_x", .str " 2.5 "), ("heading", .null), ("max_steps", .bool false)])
        (some {}) r := by
  have hprogram : (Source.parse "left 90\nforward 1/0").toOption.any fun _ => true := by
    decide +kernel
  have hsettings : ((Limits.whole 1000000 200000 100000).options
      (.obj [("start_x", .str " 2.5 "), ("heading", .null),
        ("max_steps", .bool false)])).toOption.any fun o =>
        o.startX.isFinite && o.startY.isFinite && !o.heading.isInf := by
    decide +kernel
  obtain ⟨program, hparse, -⟩ := exists_of_any_toOption hprogram
  obtain ⟨o, hoptions, hfinite⟩ := exists_of_any_toOption hsettings
  simp only [Bool.and_eq_true, Bool.not_eq_true'] at hfinite
  obtain ⟨⟨hx, hy⟩, hheading⟩ := hfinite
  obtain ⟨hanswers, hreply, -⟩ := run_answers 1000000 200000 100000 (some {})
    (.inl ⟨program, hparse⟩) (.inr ⟨_, rfl⟩) (.inr rfl)
  obtain ⟨r, hr⟩ := hreply fun hunnoticed => by
    cases hunnoticed with
    | overflow h _ => cases h.symm.trans hoptions
    | position h hnot =>
      cases h.symm.trans hoptions
      rcases hnot with hnot | hnot
      · exact Bool.false_ne_true (hnot.symm.trans hx)
      · exact Bool.false_ne_true (hnot.symm.trans hy)
    | heading h hinf =>
      cases h.symm.trans hoptions
      exact Bool.false_ne_true (hheading.symm.trans hinf)
  exact ⟨r, hr, hanswers r hr⟩

/-- A start beyond the largest double is not reported. -/
theorem large_start_has_no_reply :
    (∃ program, Source.parse "forward 1" = .ok program) ∧
      ¬ ∃ r, (({} : Limits).run (.str "forward 1") (.obj [("start_x", .int (10 ^ 400))])
        (.str "sync") none).reply = .ok r := by
  have hprogram : (Source.parse "forward 1").toOption.any fun _ => true := by
    decide +kernel
  have hreply : (({} : Limits).run (.str "forward 1") (.obj [("start_x", .int (10 ^ 400))])
      (.str "sync") none).reply.toOption.isNone := by
    decide +kernel
  obtain ⟨program, hparse, -⟩ := exists_of_any_toOption hprogram
  refine ⟨⟨program, hparse⟩, ?_⟩
  rintro ⟨r, hr⟩
  rw [hr] at hreply
  cases hreply

end

end Host

end PixelTurtle
