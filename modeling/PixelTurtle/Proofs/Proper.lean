import PixelTurtle.Expr.Eval
import PixelTurtle.Proofs.Grammar
import PixelTurtle.Proofs.Layout

/-!
# Proper programs

A program built by hand may hold expressions, parameters and instructions from outside the language,
jumps that no loop surrounds, and any line numbers. A program that was read from a text holds none
of these.

* `Expr.Known` and `HsvParam.Known` say that an expression or a parameter belongs to the language.
  Expressions of the language always have a value (`Expr.exists_evaluate`).
* `Instr.Proper` says this of an instruction with all those inside it, and that its jumps stand
  inside loops and its lines are where they are said to be.
* `properAll_of_parse` says that programs which were read are proper.
-/

namespace PixelTurtle

/-! ## Expressions of the language -/

/-- All operators and leaves of the expression belong to the language. -/
def Expr.Known : Expr → Prop
  | .num _ => True
  | .var _ => True
  | .unary _ e => e.Known
  | .bin op l r => (∃ b, op = .known b) ∧ l.Known ∧ r.Known
  | .foreign _ => False

theorem Grammar.Derives.known {ph : Phrase} {ts : List Token} {e : Expr} (h : Derives ph ts e) :
    e.Known := by
  induction h with
  | one _ ih => exact ih
  | more _ _ _ _ ihl ihr => exact ⟨⟨_, rfl⟩, ihl, ihr⟩
  | sign _ _ _ ih => exact ih
  | unsigned _ ih => exact ih
  | numeral _ => trivial
  | ident => trivial
  | parens _ ih => exact ih

namespace Expr

theorem known_of_parse {cs : List Char} {e : Expr} (h : parse cs = .ok e) : e.Known := by
  unfold parse at h
  simp only at h
  split at h
  · cases h
  · split at h
    · cases h
      trivial
    · split at h
      · cases h
        trivial
      · split at h
        · cases h
        · exact (Grammar.isExpression_of_ofTokens h).known

/-- The task is about what belongs to the language. -/
def Task.Known : Task → Prop
  | .visit e => e.Known
  | .unary _ => True
  | .bin op => ∃ b, op = .known b

theorem work_ne_failed {env : Env} {tasks : List Task} (values : List Float)
    (h : ∀ t ∈ tasks, t.Known) (err : EvalError) :
    work env tasks values ≠ .error (.failed err) := by
  fun_induction work env tasks values with
  | case1 => nofun
  | case2 tasks values x ih => exact ih (List.forall_mem_cons.1 h).2
  | case3 tasks values name ih => exact ih (List.forall_mem_cons.1 h).2
  | case4 tasks values op e ih =>
    obtain ⟨he, htasks⟩ := List.forall_mem_cons.1 h
    exact ih (List.forall_mem_cons.2 ⟨he, List.forall_mem_cons.2 ⟨trivial, htasks⟩⟩)
  | case5 tasks values op l r ih =>
    obtain ⟨⟨hop, hl, hr⟩, htasks⟩ := List.forall_mem_cons.1 h
    refine ih (List.forall_mem_cons.2 ⟨hl, List.forall_mem_cons.2 ⟨hr, ?_⟩⟩)
    exact List.forall_mem_cons.2 ⟨hop, htasks⟩
  | case6 tasks values kind => exact (List.forall_mem_cons.1 h).1.elim
  | case7 tasks op x values ih => exact ih (List.forall_mem_cons.1 h).2
  | case8 tasks op b a values x _ ih => exact ih (List.forall_mem_cons.1 h).2
  | case9 tasks op b a values e hop =>
    obtain ⟨⟨b', rfl⟩, -⟩ := List.forall_mem_cons.1 h
    cases hop
  | case10 => nofun

/-- An expression of the language has a value. -/
theorem exists_evaluate {e : Expr} (h : e.Known) (env : Env) : ∃ x, e.evaluate env = .ok x := by
  unfold evaluate
  split
  · exact ⟨_, rfl⟩
  · rename_i err hwork
    have htasks : ∀ t ∈ [Task.visit e], t.Known := List.forall_mem_singleton.2 h
    exact absurd hwork (work_ne_failed [] htasks err)
  · exact ⟨_, rfl⟩

end Expr

/-! ## Parameters of the language -/

/-- The parameter belongs to the language. -/
def HsvParam.Known : HsvParam → Prop
  | .foreign _ => False
  | _ => True

namespace HsvParam

theorem known_of_parseOffset {sign : UnaryOp} {raw body : List Char} {q : HsvParam}
    (h : parseOffset sign raw body = .ok q) : q.Known := by
  unfold parseOffset at h
  split at h
  · cases h
    trivial
  · cases h

theorem known_of_parse {cs : List Char} {q : HsvParam} (h : parse cs = .ok q) : q.Known := by
  unfold parse at h
  split at h
  · cases h
  · cases h
    trivial
  · exact known_of_parseOffset h
  · exact known_of_parseOffset h
  · split at h
    · cases h
      trivial
    · cases h

end HsvParam

/-- A computation with a value is made of computations with a value. -/
theorem exists_of_bind_eq_ok {ε α β : Type} {x : Except ε α} {f : α → Except ε β} {b : β}
    (h : x >>= f = .ok b) : ∃ a, x = .ok a ∧ f a = .ok b := by
  cases x with
  | error e => cases h
  | ok a => exact ⟨a, rfl, h⟩

theorem bind_ne_error {ε α β : Type} {x : Except ε α} {f : α → Except ε β} {e : ε}
    (hx : x ≠ .error e) (hf : ∀ a, f a ≠ .error e) : (x >>= f) ≠ .error e := by
  cases x with
  | ok a => exact hf a
  | error e' =>
    rintro h
    exact hx (congrArg _ (Except.error.inj h))

section Param

variable (env : Env) (kind : String)

theorem Amount.value_ne_unknown (a : Amount) : a.value env ≠ .error (.unknown kind) := by
  unfold Amount.value
  cases a with
  | lit x => nofun
  | var name =>
    simp only
    split <;> nofun

/-- A parameter of the language fails only for its variable. -/
theorem HsvParam.apply_ne_unknown {q : HsvParam} (h : q.Known) (c : Component) (current : Float) :
    q.apply env c current ≠ .error (.unknown kind) := by
  cases q with
  | ignore => nofun
  | offset sign a => exact bind_ne_error (a.value_ne_unknown env kind) nofun
  | absolute a => exact bind_ne_error (a.value_ne_unknown env kind) nofun
  | foreign kind => exact h.elim

theorem Hsv.change_ne_unknown (color : Hsv) {h s v : HsvParam} (hh : h.Known) (hs : s.Known)
    (hv : v.Known) : color.change env h s v ≠ .error (.unknown kind) :=
  bind_ne_error (HsvParam.apply_ne_unknown env kind hh _ _) fun _ =>
    bind_ne_error (HsvParam.apply_ne_unknown env kind hs _ _) fun _ =>
      bind_ne_error (HsvParam.apply_ne_unknown env kind hv _ _) nofun

end Param

/-! ## Programs of the language -/

/-- An expression that is there and belongs to the language. -/
def Expr.Given (e : Option Expr) : Prop :=
  ∃ x, e = some x ∧ x.Known

/-- The expression that a loop evaluates. -/
def LoopMode.guard (mode : LoopMode) (count until? : Option Expr) : Option Expr :=
  match mode with
  | .count => count
  | _ => until?

mutual
/-- The instruction belongs to the language, and so do those inside it. Its jumps stand inside
loops, one of which may surround it, and `p` holds of its lines. -/
def Instr.Proper (p : Option Int → Prop) (inLoop : Bool) : Instr → Prop
  | .move _ e line => e.Known ∧ p line
  | .turn _ e line => e.Known ∧ p line
  | .pen _ line => p line
  | .hsv h s v line => (h.Known ∧ s.Known ∧ v.Known) ∧ p line
  | .assign _ e _ line => e.Known ∧ p line
  | .loop mode count until? body line =>
    Expr.Given (mode.guard count until?) ∧ ProperAll p true body ∧ p line
  | .branch test body line => test.Known ∧ ProperAll p inLoop body ∧ p line
  | .breakLoop line => inLoop = true ∧ p line
  | .continueLoop line => inLoop = true ∧ p line
  | .foreign _ => False

/-- All the instructions are proper. -/
def ProperAll (p : Option Int → Prop) (inLoop : Bool) : List Instr → Prop
  | [] => True
  | i :: is => i.Proper p inLoop ∧ ProperAll p inLoop is
end

theorem Instr.Proper.line {p : Option Int → Prop} {inLoop : Bool} {i : Instr}
    (h : i.Proper p inLoop) : p i.line := by
  cases i with
  | move way e line => exact h.2
  | turn side e line => exact h.2
  | pen state line => exact h
  | hsv a b c line => exact h.2
  | assign name e reassign line => exact h.2
  | loop mode count until? body line => exact h.2.2
  | branch test body line => exact h.2.2
  | breakLoop line => exact h.2
  | continueLoop line => exact h.2
  | foreign kind => exact h.elim

namespace Source

/-! ## Lines -/

/-- Whatever the reading `x` yields, `Q` holds of it. -/
def Yields {α : Type} (Q : α → Prop) (x : Except Error α) : Prop :=
  ∀ a, x = .ok a → Q a

section Yields

variable {α β : Type} {P : α → Prop} {Q : β → Prop}

theorem yields_error (e : Error) : Yields Q (.error e) :=
  fun _ h => nomatch h

theorem yields_ok {b : β} (h : Q b) : Yields Q (.ok b) := by
  intro b' hb
  cases hb
  exact h

theorem yields_bind {x : Except Error α} {f : α → Except Error β} (hx : Yields P x)
    (hf : ∀ a, P a → Yields Q (f a)) : Yields Q (x >>= f) := by
  cases x with
  | error e => exact yields_error e
  | ok a => exact hf a (hx a rfl)

theorem yields_true (x : Except Error β) : Yields (fun _ => True) x :=
  fun _ _ => trivial

end Yields

def Header.Known : Header → Prop
  | .count e => e.Known
  | .until e => e.Known
  | .branch e => e.Known

/-- The statement is a proper instruction, or the header of one. -/
def Statement.Proper (p : Option Int → Prop) (inLoop : Bool) : Statement → Prop
  | .simple i => i.Proper p inLoop
  | .header h => h.Known

namespace Line

variable {p : Option Int → Prop} {inLoop : Bool} {line : Line}

theorem yields_expression (text : List Char) (column : Nat) :
    Yields Expr.Known (line.expression text column) := by
  unfold expression
  split
  · rename_i e h
    exact yields_ok (Expr.known_of_parse h)
  · exact yields_error _
  · exact yields_error _
  · exact yields_error _

theorem yields_declaration (hp : p (some (line.number : Int))) (ws : List (List Char)) :
    Yields (Statement.Proper p inLoop) (line.declaration ws) := by
  unfold declaration
  split
  · split
    · exact yields_error _
    · split
      · exact yields_error _
      · exact yields_bind (yields_expression _ _) fun e he => yields_ok ⟨he, hp⟩
  · exact yields_error _

theorem yields_assignment (hp : p (some (line.number : Int))) (name : List Char) :
    Yields (Statement.Proper p inLoop) (line.assignment name) :=
  yields_bind (yields_expression _ _) fun _ he => yields_ok ⟨he, hp⟩

theorem yields_repetition : Yields (Statement.Proper p inLoop) line.repetition := by
  refine yields_bind (yields_true _) fun header _ => ?_
  simp only
  split
  · exact yields_error _
  · exact yields_bind (yields_expression _ _) fun e he => yields_ok he
  · split
    · exact yields_error _
    · exact yields_bind (yields_expression _ _) fun e he => yields_ok he

theorem yields_conditional : Yields (Statement.Proper p inLoop) line.conditional := by
  refine yields_bind (yields_true _) fun header _ => ?_
  simp only
  split
  · exact yields_error _
  · exact yields_bind (yields_expression _ _) fun e he => yields_ok he

/-- A jump is read only inside a loop. -/
theorem yields_jump {keyword : String} {i : Instr} {ws : List (List Char)}
    (hi : inLoop = true → i.Proper p inLoop) :
    Yields (Statement.Proper p inLoop) (line.jump inLoop keyword i ws) := by
  unfold jump
  split
  · split
    · rename_i hloop
      exact yields_ok (hi hloop)
    · exact yields_error _
  · exact yields_error _

theorem yields_movement {keyword : String} {instr : Expr → Instr} {ws : List (List Char)}
    (hi : ∀ e : Expr, e.Known → (instr e).Proper p inLoop) :
    Yields (Statement.Proper p inLoop) (line.movement keyword instr ws) := by
  unfold movement
  split
  · exact yields_bind (yields_expression _ _) fun e he => yields_ok (hi e he)
  · exact yields_error _

theorem yields_penChange (hp : p (some (line.number : Int))) (ws : List (List Char)) :
    Yields (Statement.Proper p inLoop) (line.penChange ws) := by
  unfold penChange
  split
  · simp only
    split
    · exact yields_ok hp
    · split
      · exact yields_ok hp
      · exact yields_error _
  · exact yields_error _

theorem yields_colorChange (hp : p (some (line.number : Int))) (ws : List (List Char)) :
    Yields (Statement.Proper p inLoop) (line.colorChange ws) := by
  unfold colorChange
  split
  · split
    · rename_i hh hs hv
      exact yields_ok ⟨⟨HsvParam.known_of_parse hh, HsvParam.known_of_parse hs,
        HsvParam.known_of_parse hv⟩, hp⟩
    · exact yields_error _
    · exact yields_error _
    · exact yields_error _
  · exact yields_error _

/-- What a line is read as is proper. -/
theorem yields_statement (hp : p (some (line.number : Int))) :
    Yields (Statement.Proper p inLoop) (line.statement inLoop) := by
  unfold statement
  simp only
  split
  · exact yields_declaration hp _
  · split
    · exact yields_assignment hp _
    · split
      · exact yields_repetition
      · exact yields_conditional
      · exact yields_jump fun h => ⟨h, hp⟩
      · exact yields_jump fun h => ⟨h, hp⟩
      · exact yields_movement fun e he => ⟨he, hp⟩
      · exact yields_movement fun e he => ⟨he, hp⟩
      · exact yields_movement fun e he => ⟨he, hp⟩
      · exact yields_movement fun e he => ⟨he, hp⟩
      · exact yields_penChange hp _
      · exact yields_colorChange hp _
      · exact yields_error _

end Line

/-! ## Texts -/

variable {p : Option Int → Prop} {inLoop : Bool}

/-- A header makes a loop of a body that was read inside one. -/
theorem proper_header {h : Header} (hh : h.Known) {n : Nat} (hp : p (some (n : Int)))
    {body : List Instr} (hbody : ProperAll p (inLoop || h.isLoop) body) :
    (h.instr n body).Proper p inLoop := by
  cases h with
  | count e =>
    simp only [Header.isLoop, Bool.or_true] at hbody
    exact ⟨⟨e, rfl, hh⟩, hbody, hp⟩
  | «until» e =>
    simp only [Header.isLoop, Bool.or_true] at hbody
    exact ⟨⟨e, rfl, hh⟩, hbody, hp⟩
  | branch e =>
    simp only [Header.isLoop, Bool.or_false] at hbody
    exact ⟨hh, hbody, hp⟩

theorem properAll_block {lines : List Line} (hp : ∀ l ∈ lines, p (some (l.number : Int)))
    {is : List Instr} (h : block inLoop lines = .ok is) : ProperAll p inLoop is := by
  fun_induction block inLoop lines generalizing is with
  | case1 =>
    cases h
    trivial
  | case2 => cases h
  | case3 => cases h
  | case4 inLoop line rest i hs is' hb ih =>
    cases h
    obtain ⟨hline, hrest⟩ := List.forall_mem_cons.1 hp
    exact ⟨Line.yields_statement hline _ hs, ih hrest hb⟩
  | case5 => cases h
  | case6 => cases h
  | case7 inLoop line rest hd hs body hb is' ha ih₁ ih₂ =>
    cases h
    obtain ⟨hline, hrest⟩ := List.forall_mem_cons.1 hp
    have hbody := ih₁ (fun l hl => hrest l ((List.takeWhile_sublist _).subset hl)) hb
    have hafter := ih₂ (fun l hl => hrest l ((List.dropWhile_sublist _).subset hl)) ha
    exact ⟨proper_header (Line.yields_statement hline _ hs) hline hbody, hafter⟩

/-- The line is that of a statement of the text. -/
def IsStatementLine (source : String) (line : Option Int) : Prop :=
  ∃ l ∈ statementLines source, line = some (l.number : Int)

/-- **A program that was read from a text is proper.** -/
theorem properAll_of_parse {source : String} {program : List Instr}
    (h : parse source = .ok program) : ProperAll (IsStatementLine source) false program :=
  properAll_block (fun l hl => ⟨l, hl, rfl⟩) h

end Source

end PixelTurtle
