import PixelTurtle.Expr.Basic

/-!
# Evaluation of expressions

Bad values never stop an evaluation: a missing variable or a division by zero gives a number that is
not finite. Only what lies outside the language fails.

* `Expr.eval` is the meaning of an expression, by recursion on the tree: the left operand, then the
  right one, then the operator.
* `Expr.evaluate` computes it with a list of tasks and a list of values, so that the length of a
  chain of operators does not matter.
-/

namespace PixelTurtle

/-- Why an expression has no value. -/
inductive EvalError
  | foreign (kind : String)
  | unknownOperator (symbol : String)
  deriving DecidableEq, Repr

def EvalError.message : EvalError → String
  | .foreign kind => "Unsupported expression: " ++ kind
  | .unknownOperator symbol => "Unsupported operator '" ++ symbol ++ "'"

/-- The value of an operator, which must be one of the language. -/
def Operator.apply : Operator → Float → Float → Except EvalError Float
  | .known op, a, b => .ok (op.apply a b)
  | .unknown s _, _, _ => .error (.unknownOperator s)

namespace Expr

/-- The value of an expression. -/
def eval (env : Env) : Expr → Except EvalError Float
  | .num x => .ok x
  | .var name => .ok (env.value name)
  | .unary op e => do
    let x ← e.eval env
    return op.apply x
  | .bin op l r => do
    let a ← l.eval env
    let b ← r.eval env
    op.apply a b
  | .foreign kind => .error (.foreign kind)

/-! ## Evaluation by tasks -/

/-- What remains to be done: visit a tree, or apply an operator to the values on top. -/
inductive Task
  | visit (e : Expr)
  | unary (op : UnaryOp)
  | bin (op : Operator)

/-- A measure that every task reduces. -/
def Task.weight : Task → Nat
  | .visit e => 2 * e.size
  | .unary _ => 1
  | .bin _ => 1

/-- Why the tasks cannot be finished. -/
inductive Halt
  | failed (e : EvalError)
  /-- An operator met too few values. -/
  | underflow

/-- Works off the tasks; the values are kept with the latest first. -/
def work (env : Env) : List Task → List Float → Except Halt (List Float)
  | [], values => .ok values
  | .visit (.num x) :: tasks, values => work env tasks (x :: values)
  | .visit (.var name) :: tasks, values => work env tasks (env.value name :: values)
  | .visit (.unary op e) :: tasks, values => work env (.visit e :: .unary op :: tasks) values
  | .visit (.bin op l r) :: tasks, values =>
    work env (.visit l :: .visit r :: .bin op :: tasks) values
  | .visit (.foreign kind) :: _, _ => .error (.failed (.foreign kind))
  | .unary op :: tasks, x :: values => work env tasks (op.apply x :: values)
  | .bin op :: tasks, b :: a :: values =>
    match op.apply a b with
    | .ok x => work env tasks (x :: values)
    | .error e => .error (.failed e)
  | _, _ => .error .underflow
termination_by tasks => tasks.foldr (fun t n => t.weight + n) 0
decreasing_by all_goals simp only [List.foldr_cons, Task.weight, Expr.size]; omega

/-- The value of an expression, computed by tasks. -/
def evaluate (env : Env) (e : Expr) : Except EvalError Float :=
  match work env [.visit e] [] with
  | .ok (x :: _) => .ok x
  | .error (.failed err) => .error err
  | _ => .ok Number.nan

end Expr

end PixelTurtle
