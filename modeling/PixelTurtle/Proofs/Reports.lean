import PixelTurtle.Proofs.Placement

/-!
# Reports that point at the source

A report with a line shows that line to the host. The service looks it up by its number in the text,
which it splits once more, and it always finds the line that was read.

* `lineText?_eq` says that the line of a statement is found by its number.
* `line_of_interpretAsync` says that a run which fails with a line fails at that of a statement.
* `ErrorReport.Shows` is what a report with a line tells a host, and `ErrorReport.Located` that it
  does; `located_run` and `located_runAsync` say it of the service.
* `places_exist` joins them with the place of a complaint in a text.
-/

namespace PixelTurtle

/-! ## Lines of faults -/

section

variable {o : Options} {p : Option Int → Prop} {m : Machine} {program : List Instr} {f : Fault}
  {line : Option Int} {r : RunResult}

theorem fault_of_failure {a : Abort} (h : m.failure a = .runtime f line r) : a = .fault f line := by
  cases a with
  | fault g k =>
    unfold Machine.failure at h
    cases hres : m.result with
    | ok r' =>
      rw [hres] at h
      cases h
      rfl
    | error reason =>
      rw [hres] at h
      cases h
  | _ => cases h

/-- Only the fault of a run that its host has cancelled is without a line. -/
theorem line_of_ends {run : Run} (hm : m.Proper p) (h : m.Ends o run)
    (he : run.outcome = .error (.runtime f line r)) : line = none ∨ p line := by
  cases h with
  | @ended m' _ =>
    simp only [Machine.success] at he
    split at he <;> cases he
  | aborted hstep =>
    obtain rfl := fault_of_failure (Except.error.inj he)
    exact .inr (regular_of_step hm hstep).2
  | cancelled =>
    cases fault_of_failure (Except.error.inj he)
    exact .inl rfl

/-- A run that could not be set up did not fail by a fault. -/
theorem not_runtime_of_notStarted {a : Abort} {state : RunState}
    (h : Machine.start o program = .error (a, state)) :
    (Run.notStarted a state).outcome ≠ .error (.runtime f line r) := by
  intro he
  obtain rfl := fault_of_failure (Except.error.inj he)
  cases hcell : Cell.ofPoint o.startX o.startY with
  | ok cell =>
    rw [start_of_cell hcell] at h
    cases h
  | error reason =>
    rw [start_of_astray hcell] at h
    split_ifs at h
    cases h

/-- **A fault with a line is at the line of an instruction.** -/
theorem line_of_interpretAsync (hp : ProperAll p false program) {signal : CancelSignal}
    (he : (interpretAsync o signal program).run.outcome = .error (.runtime f line r)) :
    line = none ∨ p line := by
  cases h : Machine.start o program with
  | error start =>
    rw [interpretAsync, h] at he
    exact absurd he (not_runtime_of_notStarted h)
  | ok m₀ =>
    rcases interpretAsync_ends h with hendless | ⟨past, m, hpast, hends⟩
    · rw [hendless] at he
      cases he
    · exact line_of_ends (hpast.1.proper (proper_start hp h)) hends he

theorem line_of_interpret (hp : ProperAll p false program)
    (he : (interpret o program).outcome = .error (.runtime f line r)) : line = none ∨ p line := by
  rw [← interpretAsync_never] at he
  exact line_of_interpretAsync hp he

end

namespace Host

/-! ## Reports -/

/-- The report has the number of a line with a statement and the text of that line, and if it has a
column, this is within the line or right behind it. -/
def ErrorReport.Shows (source : String) (e : ErrorReport) : Prop :=
  ∃ l ∈ Source.statementLines source, e.line = some (l.number : Int) ∧
    e.lineText = some (String.ofList l.raw) ∧
    ∀ column ∈ e.column, 1 ≤ column ∧ column ≤ l.raw.length + 1

/-- A report about the text, or one with a line, shows the line. -/
def ErrorReport.Located (source : String) (e : ErrorReport) : Prop :=
  e.code = "SYNTAX_ERROR" ∨ e.line ≠ none → e.Shows source

/-- If the request is refused with a report, this is located. -/
def Refusal.Located (source : String) : Refusal → Prop
  | .report e => e.Located source
  | .escape _ => True

section

variable {limits : Limits} {source : String} {settings : Json} {e : ErrorReport}

/-- **The line of a statement is found by its number.** -/
theorem lineText?_eq {l : Source.Line} (hl : l ∈ Source.statementLines source) :
    lineText? source (some l.number) = some (String.ofList l.raw) := by
  obtain ⟨i, heq, hraw⟩ := Source.exists_index hl
  have hnumber : l.number = i + 1 := congrArg Source.Line.number heq
  rw [hnumber]
  show (Source.splitLines source.toList)[i]?.map String.ofList = _
  rw [hraw]
  rfl

theorem located_of_no_line (hcode : e.code ≠ "SYNTAX_ERROR") (hline : e.line = none) :
    e.Located source := by
  rintro (h | h)
  · exact absurd h hcode
  · exact absurd hline h

theorem located_refuseSource {e : Source.Error} (h : Source.parse source = .error e) :
    (refuseSource source e).Located source := by
  cases e with
  | malformed c n column =>
    obtain ⟨l, hl, rfl, hpos, hle⟩ := Source.exists_place h
    refine fun _ => ⟨l, hl, rfl, lineText?_eq hl, ?_⟩
    rintro column ⟨⟩
    exact ⟨hpos, hle⟩
  | numeral digits => trivial

theorem located_refuseSetting (e : ConversionError) : (refuseSetting e).Located source := by
  unfold refuseSetting
  split_ifs
  · trivial
  · exact located_of_no_line (by simp) rfl

theorem located_prepare :
    Fails (Refusal.Located source) (limits.prepare (.str source) settings) := by
  have hlimit (n : Nat) : Fails (fun _ => True) (exceeds n limits.maxCodeChars) :=
    fun _ _ => trivial
  refine fails_bind (fails_program_of limits source hlimit ?_ fun _ => located_refuseSource) ?_
  · exact fun message => located_of_no_line (by simp) rfl
  · intro program _
    refine fails_bind (fails_mapError fun _ _ => trivial) fun settings _ => ?_
    refine fails_bind (fails_mapError fun e _ => located_refuseSetting e) fun o _ => ?_
    exact fails_ok _

/-! ## Replies -/

/-- If there is a reply with a report, this is located. -/
def Served.Located (source : String) (s : Served) : Prop :=
  ∀ reply e, s.reply = .ok reply → reply.errors = some e → e.Located source

theorem located_refused {r : Refusal} (grid : Option PixelGrid) (h : r.Located source) :
    (Served.refused grid r).Located source := by
  intro reply e hreply he
  cases r with
  | report e' =>
    cases hreply
    cases he
    exact h
  | escape e' => cases hreply

theorem code_ne_syntaxError (f : Fault) : f.code ≠ "SYNTAX_ERROR" := by
  cases f <;> simp [Fault.code]

theorem located_ran {run : Run} (grid : Option PixelGrid)
    (h : ∀ f line r, run.outcome = .error (.runtime f line r) →
      line = none ∨ Source.IsStatementLine source line) :
    (Served.ran (.str source) grid run).Located source := by
  intro reply e hreply he
  change replyTo source run.outcome = .ok reply at hreply
  cases hout : run.outcome with
  | ok r =>
    rw [hout] at hreply
    cases hreply
    cases he
  | error failure =>
    rw [hout] at hreply
    cases failure with
    | runtime f line r =>
      cases hreply
      cases he
      rcases h f line r hout with rfl | ⟨l, hl, rfl⟩
      · exact located_of_no_line (code_ne_syntaxError f) rfl
      · exact fun _ => ⟨l, hl, rfl, lineText?_eq hl, nofun⟩
    | _ => cases hreply

theorem located_run (engine : Json) (grid : Option PixelGrid) :
    (limits.run (.str source) settings engine grid).Located source := by
  have hengine (message : String) : (Served.refused grid
      (.report { code := "INVALID_ENGINE", message := message })).Located source :=
    located_refused grid (located_of_no_line (by simp) rfl)
  unfold Limits.run
  cases hp : limits.prepare (.str source) settings with
  | error r =>
    have hrefused := located_refused grid (located_prepare r hp)
    dsimp only
    split
    · exact hrefused
    · exact hrefused
    · exact hengine _
  | ok prepared =>
    obtain ⟨program, o⟩ := prepared
    have hproper := Source.properAll_of_parse (parse_of_prepare hp)
    dsimp only
    split
    · exact located_ran grid fun f line r => line_of_interpret hproper
    · rw [interpretStepping_eq]
      exact located_ran grid fun f line r => line_of_interpret hproper
    · exact hengine _

theorem located_runAsync (signal : CancelSignal) (grid : Option PixelGrid) :
    (limits.runAsync (.str source) settings signal grid).Located source := by
  unfold Limits.runAsync
  cases hp : limits.prepare (.str source) settings with
  | error r => exact located_refused grid (located_prepare r hp)
  | ok prepared =>
    obtain ⟨program, o⟩ := prepared
    have hproper := Source.properAll_of_parse (parse_of_prepare hp)
    dsimp only
    split
    · exact located_refused grid (located_refuseSetting _)
    · exact located_ran grid fun f line r => line_of_interpretAsync hproper

end

end Host

/-- **Every place that is told exists.** If a text is malformed, then at one of its lines with a
statement, and within that line or right behind it. Whatever a service is asked to run the text with,
a report about the text, or one with a line, has the number and the text of such a line. -/
theorem places_exist (source : String) :
    (∀ l ∈ Source.statementLines source, 1 ≤ l.number ∧
      (Source.splitLines source.toList)[l.number - 1]? = some l.raw) ∧
    (∀ c n column, Source.parse source = .error (.malformed c n column) →
      ∃ l ∈ Source.statementLines source, n = l.number ∧ 1 ≤ column ∧ column ≤ l.raw.length + 1) ∧
    ∀ limits : Host.Limits,
      (∀ settings engine grid reply e,
        (limits.run (.str source) settings engine grid).reply = .ok reply → reply.errors = some e →
          e.code = "SYNTAX_ERROR" ∨ e.line ≠ none → e.Shows source) ∧
      ∀ settings signal grid reply e,
        (limits.runAsync (.str source) settings signal grid).reply = .ok reply →
          reply.errors = some e → e.code = "SYNTAX_ERROR" ∨ e.line ≠ none → e.Shows source := by
  refine ⟨fun l hl => ?_, fun c n column h => Source.exists_place h, fun limits =>
    ⟨fun settings engine grid => Host.located_run engine grid,
      fun settings signal grid => Host.located_runAsync signal grid⟩⟩
  obtain ⟨i, heq, hraw⟩ := Source.exists_index hl
  have hnumber : l.number = i + 1 := congrArg Source.Line.number heq
  rw [hnumber]
  exact ⟨Nat.succ_pos i, hraw⟩

/-- The end of an expression that breaks off is behind its line, whatever line ends there are before
it, and the service shows the line. -/
theorem places_exist_at_end :
    (∃ l ∈ Source.statementLines "repeat 2:\r\n\tforward 1 +\r# c", 2 = l.number ∧ 1 ≤ 13 ∧
      13 ≤ l.raw.length + 1) ∧
    ∃ reply e, (({} : Host.Limits).run (.str "repeat 2:\r\n\tforward 1 +\r# c") .null (.str "step")
        none).reply = .ok reply ∧ reply.errors = some e ∧ e.code = "SYNTAX_ERROR" ∧
      e.Shows "repeat 2:\r\n\tforward 1 +\r# c" := by
  have hfails : (Source.parse "repeat 2:\r\n\tforward 1 +\r# c").map (fun _ => ()) =
      .error (.malformed (.expression .unexpectedEnd) 2 13) := by
    decide +kernel
  have hreply : (({} : Host.Limits).run (.str "repeat 2:\r\n\tforward 1 +\r# c") .null
      (.str "step") none).reply.toOption.any fun reply =>
        reply.errors.any fun e => e.code == "SYNTAX_ERROR" := by
    decide +kernel
  obtain ⟨reply, hreply, herrors⟩ := exists_of_any_toOption hreply
  obtain ⟨e, he, hcode⟩ := (Option.any_eq_true _ _).1 herrors
  obtain ⟨-, hplace, hserved⟩ := places_exist "repeat 2:\r\n\tforward 1 +\r# c"
  refine ⟨hplace _ _ _ (error_of_map hfails), reply, e, hreply, he, eq_of_beq hcode, ?_⟩
  exact (hserved {}).1 _ _ _ reply e hreply he (.inl (eq_of_beq hcode))

end PixelTurtle
