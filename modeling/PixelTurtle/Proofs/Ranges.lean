import PixelTurtle.Proofs.Amounts
import PixelTurtle.Proofs.Nesting
import PixelTurtle.Proofs.Variables
import PixelTurtle.Proofs.Wrapping

/-!
# The ranges of headings and colors

Every turn wraps the heading, and every color command brings the components that it changes into
their ranges. The heading and the color that a run starts with are taken as they are. So a run that
starts within the ranges stays there, and one that does not keeps what it started with until it is
changed. The only other way out of the ranges is a sum that is too large for a double.

* `RunState.Shows` says that some property holds of the heading, of the color and of the log.
  `Instr.Completes.shows` follows it through an instruction, `Reaches.shows` through a run.
* `Framed.next_mem` says that only instructions of the program are run.
* `Wrapped` and `Hsv.From` are what comes of a heading and of a color; `Wrapped.add` and
  `Hsv.From.change` say so of a turn and of a color command.
* `ranges_of_start` is the theorem, `start_not_normalized` a start beyond the ranges.
-/

namespace PixelTurtle

/-! ## What a state and its log show -/

/-- `T` holds of the heading that a turn logs, and `C` of the color of a plot or a color command. -/
def Operation.Shows (T : Float → Prop) (C : Hsv → Prop) : Operation → Prop
  | .plot _ color => C color
  | .turn heading => T heading
  | .hsv color => C color
  | .move _ => True
  | .pen _ => True

/-- `P` holds of the heading and `C` of the color, and `T` and `C` hold of those in the log. -/
structure RunState.Shows (P T : Float → Prop) (C : Hsv → Prop) (s : RunState) : Prop where
  heading : P s.heading
  color : C s.color
  log : ∀ op ∈ s.log.toList, op.Shows T C

section Actions

variable {P T : Float → Prop} {C : Hsv → Prop} {o : Options} {s s' : RunState} {line : Option Int}
  {i : Instr}

theorem RunState.Shows.congr (h : s.Shows P T C) (hheading : s'.heading = s.heading)
    (hcolor : s'.color = s.color) (hlog : s'.log = s.log) : s'.Shows P T C := by
  obtain ⟨hP, hC, hall⟩ := h
  exact ⟨hheading ▸ hP, hcolor ▸ hC, hlog ▸ hall⟩

theorem RunState.Shows.noted (h : s.Shows P T C) {op : Operation} (hop : op.Shows T C) :
    (s.noted o op).Shows P T C := by
  unfold RunState.noted
  split_ifs
  · refine ⟨h.heading, h.color, fun x hx => ?_⟩
    change x ∈ (s.log.push op).toList at hx
    rw [Array.toList_push, List.mem_append, List.mem_singleton] at hx
    rcases hx with hx | rfl
    · exact h.log x hx
    · exact hop
  · exact h

/-- A walk logs the color that the turtle has. -/
theorem RunState.Shows.walked (h : s.Shows P T C) (cells : List Cell) :
    (s.walked o cells).Shows P T C := by
  have hsame := s.sameTurtle_walked o cells
  refine ⟨hsame.heading ▸ h.heading, hsame.color ▸ h.color, fun op hop => ?_⟩
  rw [s.log_walked, List.mem_append] at hop
  rcases hop with hop | hop
  · exact h.log op hop
  · unfold Options.plots at hop
    split_ifs at hop
    · obtain ⟨cell, -, rfl⟩ := List.mem_map.1 hop
      exact h.color
    · cases hop

theorem RunState.Shows.ticked (h : s.Shows P T C) : s.ticked.Shows P T C :=
  h.congr rfl rfl rfl

/-- The pen is of no account. -/
theorem RunState.Shows.pen (h : s.Shows P T C) (down : Bool) :
    RunState.Shows P T C (RunState.noted { s with penDown := down } o (.pen down)) := by
  have hpen : RunState.Shows P T C { s with penDown := down } := h.congr rfl rfl rfl
  exact hpen.noted trivial

theorem Side.isFinite_delta (side : Side) {d : Float} (h : d.isFinite = true) :
    (side.delta d).isFinite = true := by
  unfold Side.delta
  split
  · exact Number.isFinite_neg h
  · exact h

end Actions

section Instructions

variable {P T : Float → Prop} {C : Hsv → Prop} {o : Options} {s s' : RunState} {i : Instr}
  (hturn : ∀ x d, P x → d.isFinite = true → P (wrapHue (x + d)) ∧ T (wrapHue (x + d)))
  (hcolor : ∀ h sat v line, i = .hsv h sat v line → ∀ env c c', C c →
    Hsv.change env c h sat v = .ok c' → C c')

include hturn hcolor

/-- **What turns and color commands keep, every instruction keeps.** -/
theorem Instr.Completes.shows {signal : Signal} (h : i.Completes o s signal s')
    (hs : s.Shows P T C) : s'.Shows P T C := by
  cases h with
  | @move _ _ _ x y path cell _ _ _ _ _ =>
    have htold : RunState.Shows P T C ({ s.walked o path with x := x, y := y }.told o cell) :=
      (hs.walked path).congr rfl rfl rfl
    exact htold.noted trivial
  | @turn side _ _ amount _ hfinite _ =>
    obtain ⟨hP, hT⟩ := hturn _ _ hs.heading (side.isFinite_delta hfinite)
    have hturned : RunState.Shows P T C
        { s with heading := wrapHue (s.heading + side.delta amount) } := ⟨hP, hs.color, hs.log⟩
    have hentry : Operation.Shows T C (.turn (wrapHue (s.heading + side.delta amount))) := hT
    exact (hturned.noted hentry).congr rfl rfl rfl
  | pen _ _ => exact (hs.pen _).congr rfl rfl rfl
  | penAstray _ _ _ => exact hs.pen _
  | @hsv _ _ _ _ color hchange _ =>
    have hC := hcolor _ _ _ _ rfl _ _ _ hs.color hchange
    have hcolored : RunState.Shows P T C { s with color := color } := ⟨hs.heading, hC, hs.log⟩
    exact hcolored.noted hC
  | assign _ _ _ => exact hs.congr rfl rfl rfl
  | _ => exact hs

/-- So does what is done of one that is stopped. -/
theorem Instr.Stops.shows {a : Abort} (h : i.Stops o s a s') (hs : s.Shows P T C) :
    s'.Shows P T C := by
  cases h with
  | brokenLine _ _ _ hbroken =>
    cases hbroken with
    | outOfSteps _ _ _ => exact (hs.walked _).congr rfl rfl rfl
    | outOfEntries _ _ _ _ _ => exact (hs.walked _).congr rfl rfl rfl
  | unloggedMove _ _ _ _ _ => exact (hs.walked _).congr rfl rfl rfl
  | @unloggedTurn side _ _ _ _ hfinite _ =>
    obtain ⟨hP, -⟩ := hturn _ _ hs.heading (side.isFinite_delta hfinite)
    exact ⟨hP, hs.color, hs.log⟩
  | unloggedPen _ => exact hs.congr rfl rfl rfl
  | untoldPen _ _ _ => exact hs.pen _
  | unloggedColor hchange _ =>
    exact ⟨hs.heading, hcolor _ _ _ _ rfl _ _ _ hs.color hchange, hs.log⟩
  | _ => exact hs

theorem Instr.Aborts.shows {a : Abort} (h : i.Aborts o s a s') (hs : s.Shows P T C) :
    s'.Shows P T C := by
  cases h with
  | unknown => exact hs
  | outOfSteps _ => exact hs.ticked
  | stopped _ hstops => exact hstops.shows hturn hcolor hs.ticked

end Instructions

/-! ## The instructions that are run -/

section Runs

variable {o : Options} {program : List Instr} {past : List Machine} {m m₀ : Machine} {i : Instr}
  {frames : List Frame}

theorem mem_preorderAll {is : List Instr} (h : i ∈ is) : i ∈ preorderAll is := by
  induction is with
  | nil => cases h
  | cons j is ih =>
    rw [preorderAll_cons]
    rcases List.mem_cons.1 h with rfl | h
    · exact List.mem_cons_self
    · exact List.mem_cons_of_mem _ (List.mem_append_right _ (ih h))

theorem Instr.Runs.body_eq {env : Env} {f : Frame} (h : i.Runs env f) : i.body = f.body := by
  cases h with
  | _ => rfl

/-- The innermost body stands somewhere in the program. -/
theorem Framed.scope_subset (h : Framed program past m) (hframes : frames <:+ m.frames) :
    preorderAll (scope program frames) ⊆ preorderAll program := by
  induction frames with
  | nil => exact List.Subset.refl _
  | cons f outer ih =>
    have houter := ih ((List.suffix_cons f outer).trans hframes)
    obtain ⟨x, i, hlast, hruns⟩ := (h.frames f outer hframes).opener
    have hi : i ∈ preorderAll (scope program outer) :=
      mem_preorderAll (hlast.place.subset List.mem_cons_self)
    show preorderAll f.body ⊆ preorderAll program
    rw [← hruns.body_eq]
    exact List.Subset.trans (preorderAll_body_subset hi) houter

/-- **Only instructions of the program are run.** -/
theorem Framed.next_mem (h : Framed program past m) (hnext : m.next? = some i) :
    i ∈ preorderAll program := by
  have hinside {rest : List Instr} (hrest : rest <:+ scope program m.frames)
      (hhead : rest.head? = some i) : i ∈ preorderAll program :=
    h.scope_subset List.suffix_rfl (mem_preorderAll (hrest.subset (List.mem_of_head? hhead)))
  obtain ⟨rest, frames, s, status⟩ := m
  cases status with
  | running =>
    cases frames with
    | nil => exact hinside h.rest hnext
    | cons f outer => exact hinside (h.frames f outer List.suffix_rfl).rest hnext
  | completed => cases frames <;> cases hnext
  | failed => cases frames <;> cases hnext

variable {P T : Float → Prop} {C : Hsv → Prop}

/-- What the start shows and the instructions of the program keep, a run shows. -/
theorem Reaches.shows (h : Reaches o m₀ past m) (hstart : Machine.start o program = .ok m₀)
    (hheading : P o.heading) (hinitial : C o.color)
    (hturn : ∀ x d, P x → d.isFinite = true → P (wrapHue (x + d)) ∧ T (wrapHue (x + d)))
    (hcolor : ∀ h sat v line, .hsv h sat v line ∈ preorderAll program → ∀ env c c', C c →
      Hsv.change env c h sat v = .ok c' → C c') : m.state.Shows P T C := by
  induction h with
  | start =>
    obtain ⟨calls, hcalls⟩ := exists_calls_of_start hstart
    rw [hcalls]
    exact ⟨hheading, hinitial, nofun⟩
  | @step past m hm ih =>
    have hcommands (i : Instr) (hi : m.next? = some i) (h sat v : HsvParam) (line : Option Int)
        (heq : i = .hsv h sat v line) :=
      hcolor h sat v line (heq ▸ (hm.framed hstart).next_mem hi)
    refine (comes_step o m).state_of ih ih.ticked (fun i _ _ hi hdone => ?_) fun i _ _ hi ha => ?_
    · exact hdone.shows hturn (hcommands i hi) ih.ticked
    · exact ha.shows hturn (hcommands i hi) ih
  | cancel _ ih =>
    rw [Machine.cancel_state]
    exact ih

end Runs

/-! ## What comes of a start -/

/-- All components are in their ranges. -/
structure Hsv.InRange (c : Hsv) : Prop where
  h : IsAngle c.h
  s : IsPercent c.s
  v : IsPercent c.v

/-- All components are finite. -/
structure Hsv.IsFinite (c : Hsv) : Prop where
  h : c.h.isFinite = true
  s : c.s.isFinite = true
  v : c.v.isFinite = true

/-- What wrapping makes of `start` and the numbers added to it: an angle, or what is not a number
once a sum was too large for a double. -/
def Wrapped (start x : Float) : Prop :=
  IsAngle x ∨ x = Number.nan ∧ ∃ d : Float, d.isFinite = true ∧ (start + d).isFinite = false

/-- Each component of the color is that of `start`, or has been brought into its range. -/
structure Hsv.From (start c : Hsv) : Prop where
  h : c.h = start.h ∨ Wrapped start.h c.h
  s : c.s = start.s ∨ IsPercent c.s
  v : c.v = start.v ∨ IsPercent c.v

section Start

variable {start x d : Float} {env : Env}

/-- Whatever is added to an angle, or to what came of the start before, is wrapped. -/
theorem Wrapped.add (h : x = start ∨ Wrapped start x) (hd : d.isFinite = true) :
    Wrapped start (wrapHue (x + d)) := by
  cases hsum : (x + d).isFinite with
  | true => exact .inl (isAngle_wrapHue hsum)
  | false =>
    refine .inr ⟨wrapHue_of_not_finite hsum, ?_⟩
    rcases h with rfl | hangle | ⟨-, hcause⟩
    · exact ⟨d, hd, hsum⟩
    · rw [Number.isFinite_add_of_isAngle hangle hd] at hsum
      cases hsum
    · exact hcause

/-- A percentage, or the component of the start, stays in its range whatever is added to it. -/
theorem isPercent_clamp_add (hstart : start.isFinite = true) (h : x = start ∨ IsPercent x)
    (hd : d.isFinite = true) : IsPercent (clamp (x + d) 0 100) := by
  refine isPercent_clamp (Number.isNaN_add ?_ hd)
  rcases h with rfl | h
  · exact hstart
  · exact Number.isFinite_of_isPercent h

theorem Amount.isFinite_value {a : Amount} (ha : a.IsFinite) (h : a.value env = .ok x) :
    x.isFinite = true := by
  cases a with
  | lit y =>
    cases h
    exact ha
  | var name =>
    rw [Amount.value] at h
    split_ifs at h with hx
    cases h
    exact hx

theorem UnaryOp.isFinite_apply (op : UnaryOp) (h : x.isFinite = true) :
    (op.apply x).isFinite = true := by
  unfold UnaryOp.apply
  split
  · exact Number.isFinite_neg h
  · exact h

/-- What a parameter can do to a component: nothing, or it normalizes a sum or a number. -/
theorem HsvParam.apply_cases {p : HsvParam} (hp : p.IsFinite) {c : Component} {current new : Float}
    (h : p.apply env c current = .ok new) :
    new = current ∨ ∃ d : Float, d.isFinite = true ∧
      (new = c.normalize (current + d) ∨ new = c.normalize d) := by
  cases p with
  | ignore =>
    cases h
    exact .inl rfl
  | offset sign a =>
    obtain ⟨x, hx, ⟨⟩⟩ := exists_of_bind_eq_ok h
    exact .inr ⟨sign.apply x, sign.isFinite_apply (Amount.isFinite_value hp hx), .inl rfl⟩
  | absolute a =>
    obtain ⟨x, hx, ⟨⟩⟩ := exists_of_bind_eq_ok h
    exact .inr ⟨x, Amount.isFinite_value hp hx, .inr rfl⟩
  | foreign kind => cases h

/-- **A color command keeps what comes of a start.** -/
theorem Hsv.From.change {start c c' : Hsv} (hstart : start.IsFinite) (hc : start.From c)
    {h s v : HsvParam} (hh : h.IsFinite) (hs : s.IsFinite) (hv : v.IsFinite)
    (hchange : Hsv.change env c h s v = .ok c') : start.From c' := by
  obtain ⟨x, hx, hrest⟩ := exists_of_bind_eq_ok hchange
  obtain ⟨y, hy, hrest'⟩ := exists_of_bind_eq_ok hrest
  obtain ⟨z, hz, ⟨⟩⟩ := exists_of_bind_eq_ok hrest'
  have percent {start current new : Float} (hstart : start.isFinite = true)
      (hcurrent : current = start ∨ IsPercent current)
      (hnew : new = current ∨ ∃ d : Float, d.isFinite = true ∧
        (new = clamp (current + d) 0 100 ∨ new = clamp d 0 100)) :
      new = start ∨ IsPercent new := by
    rcases hnew with rfl | ⟨d, hd, rfl | rfl⟩
    · exact hcurrent
    · exact .inr (isPercent_clamp_add hstart hcurrent hd)
    · exact .inr (isPercent_clamp (Number.isNaN_of_isFinite hd))
  refine ⟨?_, percent hstart.s hc.s (HsvParam.apply_cases hs hy),
    percent hstart.v hc.v (HsvParam.apply_cases hv hz)⟩
  rcases HsvParam.apply_cases hh hx with rfl | ⟨d, hd, rfl | rfl⟩
  · exact hc.h
  · exact .inr (Wrapped.add hc.h hd)
  · exact .inr (.inl (isAngle_wrapHue hd))

end Start

/-! ## Runs from a start -/

section Start

variable {o : Options} {program : List Instr} {past : List Machine} {m m₀ : Machine}

/-- The heading of a state is that of the start or has been wrapped, those that turns log have been
wrapped, and all colors come from that of the start. -/
abbrev RunState.From (o : Options) (s : RunState) : Prop :=
  s.Shows (fun x => x = o.heading ∨ Wrapped o.heading x) (Wrapped o.heading) o.color.From

/-- All headings and colors of a state and of its log are in their ranges. -/
abbrev RunState.InRange (s : RunState) : Prop :=
  s.Shows IsAngle IsAngle Hsv.InRange

theorem Reaches.from_start (h : Reaches o m₀ past m) (hstart : Machine.start o program = .ok m₀)
    (hprogram : FiniteAmounts program) (hcolor : o.color.IsFinite) : m.state.From o := by
  refine h.shows hstart (.inl rfl) ⟨.inl rfl, .inl rfl, .inl rfl⟩ (fun x d hx hd => ?_) ?_
  · have hwrapped := Wrapped.add hx hd
    exact ⟨.inr hwrapped, hwrapped⟩
  · intro h sat v line hmem env c c' hc hchange
    obtain ⟨hh, hs, hv⟩ := hprogram _ hmem
    exact hc.change hcolor hh hs hv hchange

/-- An angle and any finite number have a sum, so that what comes of an angle is an angle. -/
theorem Wrapped.isAngle {start x : Float} (hstart : IsAngle start) (h : Wrapped start x) :
    IsAngle x := by
  rcases h with h | ⟨-, d, hd, hsum⟩
  · exact h
  · rw [Number.isFinite_add_of_isAngle hstart hd] at hsum
    cases hsum

theorem Hsv.InRange.isFinite {c : Hsv} (h : c.InRange) : c.IsFinite :=
  ⟨Number.isFinite_of_isAngle h.h, Number.isFinite_of_isPercent h.s,
    Number.isFinite_of_isPercent h.v⟩

theorem Hsv.From.inRange {start c : Hsv} (hstart : start.InRange) (h : start.From c) :
    c.InRange := by
  obtain ⟨hh, hs, hv⟩ := h
  refine ⟨?_, ?_, ?_⟩
  · rcases hh with hh | hh
    · exact hh ▸ hstart.h
    · exact hh.isAngle hstart.h
  · rcases hs with hs | hs
    · exact hs ▸ hstart.s
    · exact hs
  · rcases hv with hv | hv
    · exact hv ▸ hstart.v
    · exact hv

theorem Operation.Shows.mono {T T' : Float → Prop} {C C' : Hsv → Prop} {op : Operation}
    (h : op.Shows T C) (hT : ∀ x, T x → T' x) (hC : ∀ c, C c → C' c) : op.Shows T' C' := by
  cases op with
  | plot cell color => exact hC color h
  | turn heading => exact hT heading h
  | hsv color => exact hC color h
  | move cell => trivial
  | pen down => trivial

theorem RunState.From.inRange {s : RunState} (h : s.From o) (hheading : IsAngle o.heading)
    (hcolor : o.color.InRange) : s.InRange := by
  refine ⟨?_, h.color.inRange hcolor, fun op hop => ?_⟩
  · rcases h.heading with heq | hwrapped
    · exact heq ▸ hheading
    · exact hwrapped.isAngle hheading
  · exact (h.log op hop).mono (fun _ hx => hx.isAngle hheading) fun _ hc => hc.inRange hcolor

/-- **Headings and colors stay in their ranges if and only if they start there.** Let all numbers in
the color commands of a program be finite, as they are in a program that was read. Wherever a host
arrives, the heading and the hue are angles of less than a full turn, and saturation and value are
percentages, also in all entries of the log, just if this is so of the heading and the color that
the run is given. Whatever it is given, as long as the color is finite, the heading is either still
the one of the start or has been wrapped, every heading that a turn logs has been wrapped, and each
component of a color is still the one of the start or has been brought into its range. What has been
wrapped is an angle, or not a number, and the latter only if the sum of the number at the start and
a finite one is too large for a double. -/
theorem ranges_of_start (o : Options) (program : List Instr)
    (hprogram : (∃ source, Source.parse source = .ok program) ∨ FiniteAmounts program)
    (m₀ : Machine) (hstart : Machine.start o program = .ok m₀) :
    ((∀ past m, Reaches o m₀ past m → m.state.InRange) ↔
      IsAngle o.heading ∧ o.color.InRange) ∧
    (o.color.IsFinite → ∀ past m, Reaches o m₀ past m → m.state.From o) := by
  have hamounts : FiniteAmounts program := by
    rcases hprogram with ⟨source, hsource⟩ | hamounts
    · exact finiteAmounts_of_parse hsource
    · exact hamounts
  refine ⟨⟨fun h => ?_, ?_⟩, fun hcolor past m h => h.from_start hstart hamounts hcolor⟩
  · obtain ⟨hheading, hcolor, -⟩ := h [] m₀ .start
    obtain ⟨calls, hcalls⟩ := exists_calls_of_start hstart
    rw [hcalls] at hheading hcolor
    exact ⟨hheading, hcolor⟩
  · rintro ⟨hheading, hcolor⟩ past m h
    exact (h.from_start hstart hamounts hcolor.isFinite).inRange hheading hcolor

/-- A color and a heading that cross the ends of their ranges. -/
theorem ranges_of_start_crossing :
    ∃ o program m₀ past m, o.heading = 10 ∧ o.color = ⟨350, 50, 100⟩ ∧
      program = [.hsv (.offset .plus (.lit 20)) (.absolute (.lit 150)) .ignore (some 1),
        .turn .left (.num 30) (some 2)] ∧
      Machine.start o program = .ok m₀ ∧ Reaches o m₀ past m ∧ m.state.heading = 340 ∧
      m.state.color = ⟨10, 100, 100⟩ ∧ m.state.InRange := by
  let o : Options := { heading := 10, color := ⟨350, 50, 100⟩ }
  let program : List Instr := [
    .hsv (.offset .plus (.lit 20)) (.absolute (.lit 150)) .ignore (some 1),
    .turn .left (.num 30) (some 2)]
  let m₀ : Machine := ⟨program, [], .start o, .running⟩
  have hstart : Machine.start o program = .ok m₀ := rfl
  have hreach : Reaches o m₀ _ (m₀.after o 2) := .step (.step .start)
  have hamounts : FiniteAmounts program := by decide
  have hheading : IsAngle o.heading := by decide
  have hcolor : o.color.InRange := ⟨by decide, by decide, by decide⟩
  have hrange := (ranges_of_start o program (.inr hamounts) m₀ hstart).1.2 ⟨hheading, hcolor⟩
  refine ⟨o, program, m₀, _, _, rfl, rfl, rfl, hstart, hreach, ?_, ?_, hrange _ _ hreach⟩
  · decide +kernel
  · decide +kernel

/-- **A start beyond the ranges is taken as it is**, also by the first color command: none of the
components that it leaves alone is brought into its range. -/
theorem start_not_normalized :
    ∃ o program m₀ past m, program = [.hsv .ignore .ignore .ignore (some 1)] ∧ o.heading = 720 ∧
      o.color = ⟨720, 200, -5⟩ ∧ o.heading.isFinite = true ∧ o.color.IsFinite ∧
      Machine.start o program = .ok m₀ ∧ Reaches o m₀ past m ∧
      m.state.log = #[.hsv ⟨720, 200, -5⟩] ∧ ¬ IsAngle m₀.state.heading ∧
      ¬ IsAngle m.state.heading ∧ ¬ IsAngle m.state.color.h ∧ ¬ IsPercent m.state.color.s ∧
      ¬ IsPercent m.state.color.v := by
  let o : Options := { heading := 720, color := ⟨720, 200, -5⟩ }
  let program : List Instr := [.hsv .ignore .ignore .ignore (some 1)]
  let m₀ : Machine := ⟨program, [], .start o, .running⟩
  have hstart : Machine.start o program = .ok m₀ := rfl
  have hreach : Reaches o m₀ _ (m₀.after o 1) := .step .start
  refine ⟨o, program, m₀, _, _, rfl, rfl, rfl, by decide, ⟨by decide, by decide, by decide⟩,
    hstart, hreach, ?_⟩
  decide +kernel

end Start

end PixelTurtle
