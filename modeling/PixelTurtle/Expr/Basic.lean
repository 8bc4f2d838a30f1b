import PixelTurtle.Choice
import PixelTurtle.Number.Exact

/-!
# Expressions

Wherever a command takes a number it takes an expression: a tree of numbers, variables, signs and
binary operators. Trees built by hand may hold operators and leaves that the language does not know;
they are kept. A binary operator or a leaf of this kind fails when it is evaluated, a sign does not.

* `UnaryOp` are the signs, with `UnaryOp.apply`.
* `BinOp` are the operators of the language, with `BinOp.symbol` and `BinOp.apply`.
* `Operator` also has the operators outside the language.
* `Expr` is the type of trees.
* `Env` holds the values of the variables.
-/

namespace PixelTurtle

/-- The signs. -/
abbrev UnaryOp := Choice "+" "-"

namespace UnaryOp

@[match_pattern]
abbrev plus : UnaryOp := .first

@[match_pattern]
abbrev minus : UnaryOp := .second

/-- Only a minus changes the number it stands before. -/
def apply : UnaryOp → Float → Float
  | .minus, x => -x
  | _, x => x

end UnaryOp

/-- The binary operators of the language. -/
inductive BinOp
  | add
  | sub
  | mul
  | div
  | mod
  | eq
  | ne
  | lt
  | le
  | gt
  | ge
  deriving DecidableEq, Repr

namespace BinOp

def symbol : BinOp → String
  | .add => "+"
  | .sub => "-"
  | .mul => "*"
  | .div => "/"
  | .mod => "%"
  | .eq => "=="
  | .ne => "!="
  | .lt => "<"
  | .le => "<="
  | .gt => ">"
  | .ge => ">="

def all : List BinOp :=
  [.add, .sub, .mul, .div, .mod, .eq, .ne, .lt, .le, .gt, .ge]

/-- The operator written `s`. -/
def ofSymbol? (s : String) : Option BinOp :=
  all.find? fun op => op.symbol == s

/-- The truth values are the numbers one and zero. -/
def truth (b : Bool) : Float :=
  if b then 1 else 0

/-- The value of an operator. Division by zero, and the remainder of an infinite number or by zero,
are not numbers. -/
def apply : BinOp → Float → Float → Float
  | .add, a, b => a + b
  | .sub, a, b => a - b
  | .mul, a, b => a * b
  | .div, a, b => if b == 0 then Number.nan else a / b
  | .mod, a, b => Number.remainder a b
  | .eq, a, b => truth (a == b)
  | .ne, a, b => truth (a != b)
  | .lt, a, b => truth (a < b)
  | .le, a, b => truth (a ≤ b)
  | .gt, a, b => truth (a > b)
  | .ge, a, b => truth (a ≥ b)

end BinOp

/-- A binary operator, of the language or outside it. -/
inductive Operator
  | known (op : BinOp)
  | unknown (symbol : String) (outside : BinOp.ofSymbol? symbol = none)
  deriving DecidableEq

namespace Operator

def symbol : Operator → String
  | .known op => op.symbol
  | .unknown s _ => s

/-- The operator written `s`, whether the language has it or not. -/
def ofSymbol (s : String) : Operator :=
  match h : BinOp.ofSymbol? s with
  | some op => .known op
  | none => .unknown s h

end Operator

/-- An expression. -/
inductive Expr
  | num (value : Float)
  | var (name : String)
  | unary (op : UnaryOp) (operand : Expr)
  | bin (op : Operator) (left right : Expr)
  /-- A leaf that is no expression of the language, with the name of its kind. -/
  | foreign (kind : String)
  deriving DecidableEq, Inhabited

namespace Expr

/-- The number of nodes. -/
def size : Expr → Nat
  | .num _ => 1
  | .var _ => 1
  | .unary _ e => e.size + 1
  | .bin _ l r => l.size + r.size + 1
  | .foreign _ => 1

/-- The number of levels. -/
def depth : Expr → Nat
  | .num _ => 1
  | .var _ => 1
  | .unary _ e => e.depth + 1
  | .bin _ l r => max l.depth r.depth + 1
  | .foreign _ => 1

end Expr

/-- The values of the variables, oldest first. A name occurs once. -/
abbrev Env := List (String × Float)

namespace Env

/-- The value of a variable, if it has been declared. -/
def get? (env : Env) (name : String) : Option Float :=
  env.lookup name

/-- The value of a variable; one that has not been declared is not a number. -/
def value (env : Env) (name : String) : Float :=
  (env.get? name).getD Number.nan

/-- Gives a variable a value: one that is declared keeps its place, a new one comes last. -/
def set (name : String) (x : Float) : Env → Env
  | [] => [(name, x)]
  | (n, v) :: rest => if n == name then (n, x) :: rest else (n, v) :: set name x rest

end Env

end PixelTurtle
