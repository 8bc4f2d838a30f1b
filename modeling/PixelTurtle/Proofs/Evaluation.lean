import PixelTurtle.Expr.Eval

/-!
# The value of an expression

An expression is evaluated with a list of tasks and a list of values. Whatever the two lists hold,
visiting a tree comes to what the recursion on the tree says: either its value is put on the values
and the tasks go on, or its first error ends the evaluation. So an operator always finds the values
of its operands, and in the end there is a single value.

* `BinOp.Yields` and `Expr.Denotes` are the rules for operators and for expressions. The left
  operand is evaluated first, then the right one, and an error in either comes before one of the
  operator.
* `yields_iff` and `denotes_iff` say that the recursion follows the rules.
* `work_visit` is the invariant of the two lists.
* `evaluate_eq_iff_denotes` joins them.
-/

namespace PixelTurtle

/-! ## Remainders by zero -/

namespace Number

open Float.Model

theorem unpack_of_beq_zero {x : Float} (h : (x == 0) = true) :
    ∃ s, x.toModel.unpack = .zero s := by
  change UnpackedFloat.beq x.toModel.unpack (.zero .positive) = true at h
  cases hx : x.toModel.unpack with
  | zero s => exact ⟨s, rfl⟩
  | notANumber =>
    rw [hx] at h
    cases h
  | infinity s =>
    rw [hx] at h
    cases s <;> cases h
  | finite s m e hm =>
    rw [hx] at h
    cases s <;> cases h

theorem remainder_of_zero (a : Float) {b : Float} (hb : (b == 0) = true) :
    remainder a b = nan := by
  obtain ⟨s, hs⟩ := unpack_of_beq_zero hb
  rw [remainder, hs]
  cases a.toModel.unpack <;> rfl

end Number

/-! ## Rules -/

/-- The comparison that an operator makes. -/
def BinOp.comparison? : BinOp → Option (Float → Float → Bool)
  | .eq => some fun a b => a == b
  | .ne => some fun a b => !(a == b)
  | .lt => some fun a b => a < b
  | .le => some fun a b => a ≤ b
  | .gt => some fun a b => b < a
  | .ge => some fun a b => b ≤ a
  | _ => none

/-- `op.Yields a b x`: between the numbers `a` and `b` the operator has the value `x`. -/
inductive BinOp.Yields (a b : Float) : BinOp → Float → Prop
  | sum : Yields a b .add (a + b)
  | difference : Yields a b .sub (a - b)
  | product : Yields a b .mul (a * b)
  | quotient : (b == 0) = false → Yields a b .div (a / b)
  | remainder : (b == 0) = false → Yields a b .mod (Number.remainder a b)
  | byZero {op : BinOp} : op = .div ∨ op = .mod → (b == 0) = true → Yields a b op Number.nan
  | holds {op : BinOp} {r : Float → Float → Bool} :
    op.comparison? = some r → r a b = true → Yields a b op 1
  | fails {op : BinOp} {r : Float → Float → Bool} :
    op.comparison? = some r → r a b = false → Yields a b op 0

/-- `Denotes env e r`: the expression `e` has the value, or the error, `r`. -/
inductive Expr.Denotes (env : Env) : Expr → Except EvalError Float → Prop
  | num {x : Float} : Denotes env (.num x) (.ok x)
  | declared {name : String} {x : Float} : env.get? name = some x →
    Denotes env (.var name) (.ok x)
  | missing {name : String} : env.get? name = none → Denotes env (.var name) (.ok Number.nan)
  | negated {e : Expr} {x : Float} : Denotes env e (.ok x) →
    Denotes env (.unary .minus e) (.ok (-x))
  | signed {op : UnaryOp} {e : Expr} {x : Float} : op ≠ .minus → Denotes env e (.ok x) →
    Denotes env (.unary op e) (.ok x)
  | operandFails {op : UnaryOp} {e : Expr} {err : EvalError} : Denotes env e (.error err) →
    Denotes env (.unary op e) (.error err)
  | leftFails {op : Operator} {l r : Expr} {err : EvalError} : Denotes env l (.error err) →
    Denotes env (.bin op l r) (.error err)
  | rightFails {op : Operator} {l r : Expr} {a : Float} {err : EvalError} :
    Denotes env l (.ok a) → Denotes env r (.error err) → Denotes env (.bin op l r) (.error err)
  | applied {op : BinOp} {l r : Expr} {a b x : Float} : Denotes env l (.ok a) →
    Denotes env r (.ok b) → op.Yields a b x → Denotes env (.bin (.known op) l r) (.ok x)
  | unknown {s : String} {h : BinOp.ofSymbol? s = none} {l r : Expr} {a b : Float} :
    Denotes env l (.ok a) → Denotes env r (.ok b) →
    Denotes env (.bin (.unknown s h) l r) (.error (.unknownOperator s))
  | foreign {kind : String} : Denotes env (.foreign kind) (.error (.foreign kind))

/-! ## The recursion follows the rules -/

section Rules

variable {a b x : Float} {op : BinOp} {env : Env} {e : Expr} {r : Except EvalError Float}

theorem BinOp.yields_apply (op : BinOp) (a b : Float) : op.Yields a b (op.apply a b) := by
  have truth {r : Float → Float → Bool} (hr : op.comparison? = some r) :
      op.Yields a b (truth (r a b)) := by
    cases h : r a b with
    | true => exact .holds hr h
    | false => exact .fails hr h
  cases op with
  | add => exact .sum
  | sub => exact .difference
  | mul => exact .product
  | div =>
    cases hb : b == 0 with
    | true => simpa [apply, hb] using Yields.byZero (.inl rfl) hb
    | false => simpa [apply, hb] using Yields.quotient hb
  | mod =>
    cases hb : b == 0 with
    | true => simpa [apply, Number.remainder_of_zero a hb] using Yields.byZero (.inr rfl) hb
    | false => exact .remainder hb
  | _ => exact truth rfl

theorem BinOp.yields_iff : op.Yields a b x ↔ op.apply a b = x := by
  refine ⟨fun h => ?_, fun h => h ▸ op.yields_apply a b⟩
  cases h with
  | quotient hb => simp [apply, hb]
  | byZero hop hb =>
    rcases hop with rfl | rfl
    · simp [apply, hb]
    · exact Number.remainder_of_zero a hb
  | holds hr h =>
    cases op <;> cases hr <;> simp_all [apply, truth, bne]
  | fails hr h =>
    cases op <;> cases hr <;> simp_all [apply, truth, bne]
  | _ => rfl

namespace Expr

section Steps

variable {uop : UnaryOp} {bop : Operator} {l r : Expr} {err : EvalError}

theorem eval_unary (h : e.eval env = .ok x) : (unary uop e).eval env = .ok (uop.apply x) := by
  rw [eval, h]
  rfl

theorem eval_unary_error (h : e.eval env = .error err) :
    (unary uop e).eval env = .error err := by
  rw [eval, h]
  rfl

theorem eval_bin (hl : l.eval env = .ok a) (hr : r.eval env = .ok b) :
    (bin bop l r).eval env = bop.apply a b := by
  rw [eval, hl, hr]
  rfl

theorem eval_bin_left_error (hl : l.eval env = .error err) :
    (bin bop l r).eval env = .error err := by
  rw [eval, hl]
  rfl

theorem eval_bin_right_error (hl : l.eval env = .ok a) (hr : r.eval env = .error err) :
    (bin bop l r).eval env = .error err := by
  rw [eval, hl, hr]
  rfl

end Steps

theorem denotes_eval (env : Env) (e : Expr) : Denotes env e (e.eval env) := by
  induction e with
  | num x => exact .num
  | var name =>
    cases h : env.get? name with
    | none => simpa [eval, Env.value, h] using Denotes.missing h
    | some x => simpa [eval, Env.value, h] using Denotes.declared h
  | unary op e ih =>
    cases h : e.eval env with
    | error err =>
      rw [eval_unary_error h]
      exact .operandFails (h ▸ ih)
    | ok x =>
      rw [eval_unary h]
      cases op with
      | second => exact .negated (h ▸ ih)
      | first => exact .signed nofun (h ▸ ih)
      | other word hw => exact .signed nofun (h ▸ ih)
  | bin op l r ihl ihr =>
    cases hl : l.eval env with
    | error err =>
      rw [eval_bin_left_error hl]
      exact .leftFails (hl ▸ ihl)
    | ok a =>
      cases hr : r.eval env with
      | error err =>
        rw [eval_bin_right_error hl hr]
        exact .rightFails (hl ▸ ihl) (hr ▸ ihr)
      | ok b =>
        rw [eval_bin hl hr]
        cases op with
        | known op => exact .applied (hl ▸ ihl) (hr ▸ ihr) (op.yields_apply a b)
        | unknown s h => exact .unknown (hl ▸ ihl) (hr ▸ ihr)
  | foreign kind => exact .foreign

/-- An expression has one value or error. -/
theorem Denotes.eval_eq (h : Denotes env e r) : e.eval env = r := by
  induction h with
  | num => rfl
  | declared h => simp [eval, Env.value, h]
  | missing h => simp [eval, Env.value, h]
  | negated _ ih => exact eval_unary ih
  | @signed op e x hop _ ih =>
    rw [eval_unary ih]
    cases op with
    | second => exact absurd rfl hop
    | _ => rfl
  | operandFails _ ih => exact eval_unary_error ih
  | leftFails _ ih => exact eval_bin_left_error ih
  | rightFails _ _ ihl ihr => exact eval_bin_right_error ihl ihr
  | applied _ _ hop ihl ihr =>
    rw [eval_bin ihl ihr, Operator.apply, BinOp.yields_iff.1 hop]
  | unknown _ _ ihl ihr => exact eval_bin ihl ihr
  | foreign => rfl

theorem denotes_iff : Denotes env e r ↔ e.eval env = r :=
  ⟨Denotes.eval_eq, fun h => h ▸ denotes_eval env e⟩

end Expr

end Rules

/-! ## The tasks follow the recursion -/

namespace Expr

/-- **Visiting a tree puts its value on the values, or ends with its error**, whatever else there
is to do and whatever values there are. -/
theorem work_visit (env : Env) (e : Expr) (tasks : List Task) (values : List Float) :
    work env (.visit e :: tasks) values = match e.eval env with
      | .ok x => work env tasks (x :: values)
      | .error err => .error (.failed err) := by
  induction e generalizing tasks values with
  | num x => rw [work, eval]
  | var name => rw [work, eval]
  | unary op e ih =>
    rw [work, ih]
    cases h : e.eval env with
    | error err => simp only [eval_unary_error h]
    | ok x => simp only [eval_unary h, work]
  | bin op l r ihl ihr =>
    rw [work, ihl]
    cases hl : l.eval env with
    | error err => simp only [eval_bin_left_error hl]
    | ok a =>
      simp only [ihr]
      cases hr : r.eval env with
      | error err => simp only [eval_bin_right_error hl hr]
      | ok b =>
        -- the operator finds the value of the right operand on top of that of the left one
        rw [eval_bin hl hr]
        cases hop : op.apply a b with
        | error err => simp only [work, hop]
        | ok x => simp only [work, hop]
  | foreign kind => rw [work, eval]

theorem work_nil (env : Env) (values : List Float) : work env [] values = .ok values := by
  rw [work]

theorem evaluate_eq_eval (env : Env) (e : Expr) : e.evaluate env = e.eval env := by
  rw [evaluate, work_visit]
  cases e.eval env with
  | error err => rfl
  | ok x => simp only [work_nil]

/-- **Evaluation by tasks is evaluation by recursion.** The value of an expression, or its error, is
the one that the rules give it: the left operand comes before the right one and both before the
operator. The tasks leave the value alone on the values, so that no operator meets too few of
them. -/
theorem evaluate_eq_iff_denotes (env : Env) (e : Expr) :
    (∀ r, e.evaluate env = r ↔ Denotes env e r) ∧ e.evaluate env = e.eval env ∧
    work env [.visit e] [] = ((e.evaluate env).map fun x => [x]).mapError .failed := by
  refine ⟨fun r => ?_, evaluate_eq_eval env e, ?_⟩
  · rw [evaluate_eq_eval, denotes_iff]
  · rw [evaluate_eq_eval, work_visit]
    cases e.eval env with
    | error err => rfl
    | ok x => exact work_nil env [x]

/-- The left operand fails first, although neither the right one nor the operator is any better. -/
example :
    (bin (.ofSymbol "**") (.foreign "left") (.foreign "right")).evaluate [] =
      .error (.foreign "left") := by
  cbv

end Expr

end PixelTurtle
