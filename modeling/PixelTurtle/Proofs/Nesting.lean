import PixelTurtle.Proofs.Faults
import PixelTurtle.Proofs.Layout

/-!
# The frames and the nesting of the program

The frames of a machine are those of the loops and conditionals that surround what it runs. Each
runs the body of the instruction that was started last beneath it, so that there are never more
frames than the program has levels.

* `nestingAll` is how deep the loops and conditionals of a program are nested.
* `Frame.Continues` is a frame that comes from another one in the course of its rounds.
* `Machine.Steers` is all that an event does to the frames; `steers_step` says so.
* `FetchedLast` is the instruction that was started last beneath a frame, `Instr.Runs` what it has
  to do with the frame.
* `Framed` is the invariant of a machine, and `frames_mirror_nesting` the theorem.
-/

namespace PixelTurtle

/-! ## Nesting -/

mutual
/-- How deep the loops and conditionals of an instruction are nested. -/
def Instr.nesting : Instr → Nat
  | .loop _ _ _ body _ => nestingAll body + 1
  | .branch _ body _ => nestingAll body + 1
  | _ => 0

/-- How deep the loops and conditionals of a program are nested. -/
def nestingAll : List Instr → Nat
  | [] => 0
  | i :: is => max i.nesting (nestingAll is)
end

theorem nesting_le_of_mem {i : Instr} {is : List Instr} (h : i ∈ is) :
    i.nesting ≤ nestingAll is := by
  induction is with
  | nil => cases h
  | cons j is ih =>
    rw [nestingAll]
    rcases List.mem_cons.1 h with rfl | h
    · exact Nat.le_max_left ..
    · exact Nat.le_trans (ih h) (Nat.le_max_right ..)

theorem Instr.Opens.rest {env : Env} {i : Instr} {f : Frame} (h : i.Opens env f) :
    f.rest <:+ f.body := by
  cases h with
  | _ => exact List.suffix_rfl

/-! ## Frames in the course of an event -/

/-- The frame `g` is the frame `f` further on in its rounds. -/
structure Frame.Continues (f g : Frame) : Prop extends f.Resumes g where
  rest : f.rest <:+ f.body → g.rest <:+ g.body
  rounds : ∀ r, g.kind = .count r → ∃ n, f.kind = .count n ∧ r ≤ n ∧ (0 < n → 0 < r)

/-- The frames `gs` are outer ones of `fs`, and may be further on: each of them continues the frame of
`fs` that has the same frames beneath it. -/
def Narrows (fs gs : List Frame) : Prop :=
  ∀ g outer, g :: outer <:+ gs → ∃ f, f :: outer <:+ fs ∧ f.Continues g

/-- What an event does to the rest of the program and to the frames: it opens a frame, for the
instruction that it has fetched, or it opens none. -/
inductive Machine.Steers (m m' : Machine) : Prop
  | opens {i : Instr} {f : Frame} {frames : List Frame} : m.Fetches i m'.rest frames →
    i.Opens m.state.vars f → m'.frames = f :: frames → Steers m m'
  | narrows : Narrows m.frames m'.frames → (m'.frames ≠ [] → m'.rest = m.rest) →
    m'.rest <:+ m.rest → Steers m m'

section Frames

variable {f g h : Frame} {fs gs hs : List Frame}

theorem Frame.Continues.refl (f : Frame) : f.Continues f where
  toResumes := .refl f
  rest := id
  rounds r hr := ⟨r, hr, Nat.le_refl r, id⟩

theorem Frame.Continues.trans (hfg : f.Continues g) (hgh : g.Continues h) : f.Continues h where
  kind := by
    have hkind := hfg.kind
    have hkind' := hgh.kind
    cases hf : f.kind <;> cases hg : g.kind <;> cases hh : h.kind <;>
      simp only [hf, hg, hh] at hkind hkind' ⊢
    exact hkind.trans hkind'
  body := hgh.body.trans hfg.body
  line := hgh.line.trans hfg.line
  rest := hgh.rest ∘ hfg.rest
  rounds r hr := by
    obtain ⟨n, hn, hle, hpos⟩ := hgh.rounds r hr
    obtain ⟨k, hk, hle', hpos'⟩ := hfg.rounds n hn
    exact ⟨k, hk, Nat.le_trans hle hle', hpos ∘ hpos'⟩

theorem Frame.continues_rest {rest : List Instr} (hrest : f.rest <:+ f.body → rest <:+ f.body) :
    f.Continues { f with rest := rest } where
  kind := (Frame.Resumes.refl f).kind
  body := rfl
  line := rfl
  rest := hrest
  rounds r hr := ⟨r, hr, Nat.le_refl r, id⟩

/-- A frame that makes a further round has one round less to make, but not none. -/
theorem Frame.Repeats.continues (h : f.Repeats g) : f.Continues g := by
  cases h with
  | @count n =>
    refine ⟨⟨trivial, rfl, rfl⟩, id, ?_⟩
    rintro _ ⟨⟩
    exact ⟨n + 2, rfl, Nat.le_succ (n + 1), fun _ => Nat.succ_pos n⟩
  | «until» => exact .refl _

theorem narrows_of_suffix (h : gs <:+ fs) : Narrows fs gs :=
  fun g _ hg => ⟨g, hg.trans h, .refl g⟩

theorem narrows_nil (fs : List Frame) : Narrows fs [] :=
  narrows_of_suffix List.nil_suffix

/-- The innermost frame that is left may be further on. -/
theorem narrows_cons {outer : List Frame} (h : f :: outer <:+ fs) (hfg : f.Continues g) :
    Narrows fs (g :: outer) := by
  intro k inner hk
  rcases List.suffix_cons_iff.1 hk with heq | hinner
  · cases heq
    exact ⟨f, h, hfg⟩
  · exact narrows_of_suffix ((List.suffix_cons f outer).trans h) k inner hinner

theorem Narrows.trans (hfg : Narrows fs gs) (hgh : Narrows gs hs) : Narrows fs hs := by
  intro k outer hk
  obtain ⟨g, hg, hgk⟩ := hgh k outer hk
  obtain ⟨f, hf, hfg'⟩ := hfg g outer hg
  exact ⟨f, hf, hfg'.trans hgk⟩

theorem Narrows.ne_nil (h : Narrows fs gs) (hgs : gs ≠ []) : fs ≠ [] := by
  obtain ⟨g, outer, rfl⟩ := List.exists_cons_of_ne_nil hgs
  obtain ⟨f, hf, -⟩ := h g outer List.suffix_rfl
  rintro rfl
  cases List.suffix_nil.1 hf

/-- A jump leads to a frame that is there. -/
theorem unwind_suffix {outer : List Frame} (h : unwind fs = some (f, outer)) :
    f :: outer <:+ fs := by
  induction fs with
  | nil => cases h
  | cons g gs ih =>
    rw [unwind] at h
    split_ifs at h
    · cases h
      exact List.suffix_rfl
    · exact (ih h).trans (List.suffix_cons g gs)

end Frames

/-! ## Events -/

section Events

variable {o : Options} {m m' : Machine} {i : Instr} {rest : List Instr} {frames : List Frame}
  {s : RunState}

/-- What is fetched is taken off the rest of its frame, or off the rest of the program. -/
theorem Machine.Fetches.narrows (h : m.Fetches i rest frames) :
    Narrows m.frames frames ∧ (frames ≠ [] → rest = m.rest) ∧ rest <:+ m.rest := by
  cases h with
  | top => exact ⟨narrows_nil _, fun hne => absurd rfl hne, List.suffix_cons i rest⟩
  | inside =>
    refine ⟨narrows_cons List.suffix_rfl ?_, fun _ => rfl, List.suffix_rfl⟩
    exact Frame.continues_rest fun hrest => (List.suffix_cons i _).trans hrest

/-- Once an instruction is fetched, more frames may be left. -/
theorem Machine.Fetches.steers (h : m.Fetches i rest frames) (hrest : m'.rest = rest)
    (hframes : Narrows frames m'.frames) : m.Steers m' := by
  obtain ⟨hnarrows, hkeep, hsuffix⟩ := h.narrows
  refine .narrows (hnarrows.trans hframes) (fun hne => ?_) (hrest ▸ hsuffix)
  rw [hrest]
  exact hkeep (hframes.ne_nil hne)

theorem steers_of_eq (hrest : m'.rest = m.rest) (hframes : m'.frames = m.frames) :
    m.Steers m' := by
  refine .narrows ?_ (fun _ => hrest) (hrest ▸ List.suffix_rfl)
  rw [hframes]
  exact narrows_of_suffix List.suffix_rfl

/-- The end of a body is the end of its frame, or its frame goes on with a further round. -/
theorem Machine.Comes.steers {r : Machine × Event} (h : m.Comes o r) : m.Steers r.1 := by
  have stay {frames : List Frame} : Narrows frames frames := narrows_of_suffix List.suffix_rfl
  cases h with
  | halted _ => exact steers_of_eq rfl rfl
  | completed => exact .narrows (narrows_nil _) (fun hne => absurd rfl hne) List.suffix_rfl
  | aborted hfetch _ => exact hfetch.steers (abort_rest ..) (abort_frames .. ▸ stay)
  | next hfetch _ _ => exact hfetch.steers rfl stay
  | moved hfetch _ _ => exact hfetch.steers rfl stay
  | enter hfetch _ hdone =>
    cases hdone with
    | enter hopens => exact .opens hfetch hopens rfl
  | @breakLoop _ _ _ _ outer loop _ hfetch _ _ hunwind =>
    have hsuffix := (List.suffix_cons loop outer).trans (unwind_suffix hunwind)
    exact hfetch.steers rfl (narrows_of_suffix hsuffix)
  | @continueLoop _ _ _ _ _ loop _ hfetch _ _ hunwind =>
    have hrestart := loop.continues_rest fun _ => List.nil_suffix
    exact hfetch.steers rfl (narrows_cons (unwind_suffix hunwind) hrestart)
  | outsideLoop hfetch _ _ _ => exact hfetch.steers rfl stay
  | @left rest f frames _ _ =>
    have hclose := narrows_of_suffix (List.suffix_cons f frames)
    exact .narrows hclose (fun _ => rfl) List.suffix_rfl
  | again _ hrepeats _ =>
    have hagain := hrepeats.continues.trans (Frame.continues_rest fun _ => List.suffix_rfl)
    exact .narrows (narrows_cons List.suffix_rfl hagain) (fun _ => rfl) List.suffix_rfl
  | outOfSteps _ hrepeats _ =>
    exact .narrows (narrows_cons List.suffix_rfl hrepeats.continues) (fun _ => rfl)
      List.suffix_rfl
  | unread _ _ _ => exact steers_of_eq (abort_rest ..) (abort_frames ..)

/-- **What every event does to the frames.** -/
theorem steers_step (o : Options) (m : Machine) : m.Steers (m.step o).1 :=
  (comes_step o m).steers

end Events

/-! ## The history of a frame -/

/-- The instructions of the innermost body, or of the program. -/
def scope (program : List Instr) : List Frame → List Instr
  | [] => program
  | f :: _ => f.body

/-- Those of them that are still to be started, if `rest` are those of the program. -/
def pending (rest : List Instr) : List Frame → List Instr
  | [] => rest
  | f :: _ => f.rest

/-- `i.Runs env f`: the frame `f` runs the body of `i`, which was started when the variables were
those of `env`. The rounds that are left to a loop that counts are at least one, and at most the
whole part of its count. -/
inductive Instr.Runs (env : Env) : Instr → Frame → Prop
  | count {count until? : Option Expr} {body rest : List Instr} {line : Option Int} {x : Float}
    {n : Int} {r : Nat} : (count.getD (.foreign "NoneType")).evaluate env = .ok x →
    Number.floor x = .ok n → 1 ≤ r → (r : Int) ≤ n → body ≠ [] →
    Runs env (.loop .count count until? body line) ⟨.count r, body, rest, line⟩
  | until {mode : LoopMode} {count until? : Option Expr} {body rest : List Instr}
    {line : Option Int} : mode ≠ .count →
    Runs env (.loop mode count until? body line) ⟨.until until?, body, rest, line⟩
  | branch {test : Expr} {body rest : List Instr} {line : Option Int} : body ≠ [] →
    Runs env (.branch test body line) ⟨.branch, body, rest, line⟩

/-- The event on `x` started the instruction `i`, which is the one before those that are still to be
started in the innermost frame of `outer`, or in the program if there is none; and since then a
further frame has always been there. -/
structure FetchedLast (program : List Instr) (past : List Machine) (rest : List Instr)
    (outer : List Frame) (x : Machine) (i : Instr) : Prop where
  fetches : x.Fetches i rest outer
  place : i :: pending rest outer <:+ scope program outer
  last : ∃ before after, past = before ++ x :: after ∧ ∀ y ∈ after, outer.length < y.frames.length

/-- The frame `f` runs the body of the instruction that was fetched last beneath it. -/
structure Opened (program : List Instr) (past : List Machine) (rest : List Instr) (f : Frame)
    (outer : List Frame) : Prop where
  opener : ∃ x i, FetchedLast program past rest outer x i ∧ i.Runs x.state.vars f
  rest : f.rest <:+ f.body

/-- The frames of a machine mirror how the program is nested. -/
structure Framed (program : List Instr) (past : List Machine) (m : Machine) : Prop where
  rest : m.rest <:+ program
  frames : ∀ f outer, f :: outer <:+ m.frames → Opened program past m.rest f outer

section History

variable {o : Options} {program rest : List Instr} {past : List Machine} {m m' m₀ x : Machine}
  {env : Env} {i : Instr} {f g : Frame} {frames outer : List Frame}

theorem Instr.Opens.runs (h : i.Opens env f) : i.Runs env f := by
  cases h with
  | @count _ _ _ _ _ n hx hn hpos hbody =>
    exact .count hx hn (by omega) (Int.toNat_of_nonneg (Int.le_of_lt hpos)).le hbody
  | «until» hmode => exact .until hmode
  | branch hbody => exact .branch hbody

/-- What is said of a frame holds in the course of its rounds. -/
theorem Instr.Runs.continues (h : i.Runs env f) (hfg : f.Continues g) : i.Runs env g := by
  obtain ⟨⟨hkind, hbody, hline⟩, -, hrounds⟩ := hfg
  obtain ⟨kind, body, left, line⟩ := g
  cases h with
  | count hx hn hpos hle hne =>
    cases kind with
    | count r =>
      cases hbody
      cases hline
      obtain ⟨_, ⟨⟩, hr, hr'⟩ := hrounds r rfl
      exact .count hx hn (hr' hpos) (by omega) hne
    | «until» condition => exact hkind.elim
    | branch => exact hkind.elim
  | «until» hmode =>
    cases kind with
    | count r => exact hkind.elim
    | «until» condition =>
      cases hbody
      cases hline
      cases hkind
      exact .until hmode
    | branch => exact hkind.elim
  | branch hne =>
    cases kind with
    | count r => exact hkind.elim
    | «until» condition => exact hkind.elim
    | branch =>
      cases hbody
      cases hline
      exact .branch hne

theorem Instr.Runs.nesting (h : i.Runs env f) : i.nesting = nestingAll f.body + 1 := by
  cases h with
  | _ => rfl

theorem FetchedLast.extend (h : FetchedLast program past rest outer x i)
    (hm : outer.length < m.frames.length) : FetchedLast program (past ++ [m]) rest outer x i := by
  obtain ⟨before, after, rfl, hafter⟩ := h.last
  refine ⟨h.fetches, h.place, before, after ++ [m], List.append_assoc .., fun y hy => ?_⟩
  rcases List.mem_append.1 hy with hy | hy
  · exact hafter y hy
  · rw [List.mem_singleton.1 hy]
    exact hm

theorem Opened.extend (h : Opened program past rest f outer) (hfg : f.Continues g)
    (hm : outer.length < m.frames.length) : Opened program (past ++ [m]) rest g outer where
  opener := by
    obtain ⟨x, i, hlast, hruns⟩ := h.opener
    exact ⟨x, i, hlast.extend hm, hruns.continues hfg⟩
  rest := hfg.rest h.rest

/-- The frames that are left after an event keep their history. -/
theorem Framed.narrow (h : Framed program past m) (hnarrows : Narrows m.frames frames)
    (hrest : frames ≠ [] → rest = m.rest) (hg : g :: outer <:+ frames) :
    Opened program (past ++ [m]) rest g outer := by
  have hne : frames ≠ [] := by
    rintro rfl
    cases List.suffix_nil.1 hg
  obtain ⟨f, hf, hfg⟩ := hnarrows g outer hg
  rw [hrest hne]
  exact (h.frames f outer hf).extend hfg hf.length_le

/-- What is fetched stands before what is left. -/
theorem Framed.place (h : Framed program past m) (hfetches : m.Fetches i rest frames) :
    i :: pending rest frames <:+ scope program frames := by
  cases hfetches with
  | top => exact h.rest
  | inside => exact (h.frames _ _ List.suffix_rfl).rest

/-- Every event keeps the history of the frames. -/
theorem Framed.step (h : Framed program past m) (hsteers : m.Steers m') :
    Framed program (past ++ [m]) m' := by
  cases hsteers with
  | narrows hnarrows hkeep hsuffix =>
    exact ⟨hsuffix.trans h.rest, fun g outer hg => h.narrow hnarrows hkeep hg⟩
  | @opens i f frames hfetches hopens hframes =>
    obtain ⟨hnarrows, hkeep, hsuffix⟩ := hfetches.narrows
    refine ⟨hsuffix.trans h.rest, fun g outer hg => ?_⟩
    rw [hframes] at hg
    rcases List.suffix_cons_iff.1 hg with heq | houter
    · cases heq
      have hlast : FetchedLast program (past ++ [m]) m'.rest frames m i :=
        ⟨hfetches, h.place hfetches, past, [], rfl, nofun⟩
      exact ⟨⟨m, i, hlast, hopens.runs⟩, hopens.rest⟩
    · exact h.narrow hnarrows hkeep houter

theorem rest_frames_of_start (h : Machine.start o program = .ok m₀) :
    m₀.rest = program ∧ m₀.frames = [] := by
  unfold Machine.start at h
  split at h
  · cases h
    exact ⟨rfl, rfl⟩
  · cases h

/-- **The frames mirror the program, wherever a host arrives.** -/
theorem Reaches.framed (h : Reaches o m₀ past m) (hstart : Machine.start o program = .ok m₀) :
    Framed program past m := by
  induction h with
  | start =>
    obtain ⟨hrest, hframes⟩ := rest_frames_of_start hstart
    refine ⟨hrest ▸ List.suffix_rfl, fun f outer hf => ?_⟩
    rw [hframes] at hf
    cases List.suffix_nil.1 hf
  | step _ ih => exact ih.step (steers_step o _)
  | cancel _ ih =>
    refine ⟨?_, fun f outer hf => ?_⟩
    · rw [Machine.cancel_rest]
      exact ih.rest
    · rw [Machine.cancel_frames] at hf
      rw [Machine.cancel_rest]
      exact ih.frames f outer hf

/-- Every frame is one level of nesting. -/
theorem Framed.depth (h : Framed program past m) (hframes : frames <:+ m.frames) :
    frames.length + nestingAll (scope program frames) ≤ nestingAll program := by
  induction frames with
  | nil => exact (Nat.zero_add _).le
  | cons f outer ih =>
    have houter := ih ((List.suffix_cons f outer).trans hframes)
    obtain ⟨x, i, hlast, hruns⟩ := (h.frames f outer hframes).opener
    have hi : i ∈ scope program outer := hlast.place.subset List.mem_cons_self
    have hbody : nestingAll f.body + 1 ≤ nestingAll (scope program outer) :=
      hruns.nesting ▸ nesting_le_of_mem hi
    show outer.length + 1 + nestingAll f.body ≤ nestingAll program
    omega

end History

/-- **The frames mirror how the program is nested.** Wherever a host arrives, there are at most as
many frames as loops and conditionals are nested in the program. Each frame runs the body of a loop
or conditional: of the one that was started last in the frame beneath it or, if there is none, in
the program. It has started as many instructions of this body as its index says. The body of a loop
that counts and that of a conditional are not empty, and the rounds that are left to a loop that
counts are at least one and at most the whole part of its count. -/
theorem frames_mirror_nesting (o : Options) (program : List Instr) (m₀ : Machine)
    (hstart : Machine.start o program = .ok m₀) (past : List Machine) (m : Machine)
    (h : Reaches o m₀ past m) :
    m.frames.length ≤ nestingAll program ∧
    ∀ f outer, f :: outer <:+ m.frames →
      (∃ x i, FetchedLast program past m.rest outer x i ∧ i.Runs x.state.vars f) ∧
      f.index ≤ f.body.length ∧ f.rest = f.body.drop f.index := by
  have hframed := h.framed hstart
  refine ⟨?_, fun f outer hf => ?_⟩
  · exact Nat.le_trans (Nat.le_add_right ..) (hframed.depth List.suffix_rfl)
  · obtain ⟨hopener, hrest⟩ := hframed.frames f outer hf
    exact ⟨hopener, Nat.sub_le .., List.suffix_iff_eq_drop.1 hrest⟩

/-- A conditional within a loop of two rounds, when the second round has come to its body. -/
theorem frames_mirror_nesting_second_round :
    ∃ program m₀ past m f g, program = [Instr.loop .count (some (.num 2)) none
        [.branch (.num 1) [.pen .down (some 3)] (some 2)] (some 1)] ∧
      Machine.start {} program = .ok m₀ ∧ Reaches {} m₀ past m ∧ m.frames = [f, g] ∧
      g.isLoop = true ∧ 2 ≤ nestingAll program ∧
      ∃ x i, FetchedLast program past m.rest [g] x i ∧ i.Runs x.state.vars f := by
  let program : List Instr := [.loop .count (some (.num 2)) none
    [.branch (.num 1) [.pen .down (some 3)] (some 2)] (some 1)]
  let m₀ : Machine := ⟨program, [], .start {}, .running⟩
  have hstart : Machine.start {} program = .ok m₀ := rfl
  have hreach : Reaches {} m₀ _ (m₀.after {} 6) :=
    .step (.step (.step (.step (.step (.step .start)))))
  have hloops : (m₀.after {} 6).frames.map Frame.isLoop = [false, true] := by decide +kernel
  obtain ⟨f, outer, hm, -, houter⟩ := List.map_eq_cons_iff.1 hloops
  obtain ⟨g, none, rfl, hg, hnone⟩ := List.map_eq_cons_iff.1 houter
  obtain rfl := List.map_eq_nil_iff.1 hnone
  obtain ⟨hdepth, hframed⟩ := frames_mirror_nesting {} program m₀ hstart _ _ hreach
  rw [hm] at hdepth hframed
  obtain ⟨hopener, -⟩ := hframed f _ List.suffix_rfl
  exact ⟨program, m₀, _, _, f, g, rfl, hstart, hreach, hm, hg, hdepth, hopener⟩

end PixelTurtle
