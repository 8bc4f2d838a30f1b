import PixelTurtle.Proofs.Layout

/-!
# Writing programs

A program is written with one statement on each line and one blank of indentation for each body
around it. The operands of signs and operators stand in parentheses, and so do the counts and the
conditions of loops. What is written for a number is a parameter.

* `Expr.print`, `HsvParam.print` and `Instr.text` write expressions, parameters and statements.
* `printProgram` writes a program.
* `Expr.WellFormed`, `HsvParam.WellFormed` and `WellFormedAll` are what can be written.
* `Expr.nesting` is how deep an expression is nested for a reader.
* `renumberAll` numbers the instructions of a program in the order of their lines.
-/

namespace PixelTurtle

/-! ## Text -/

/-- A text in parentheses. -/
def parens (cs : List Char) : List Char :=
  '(' :: (cs ++ [')'])

/-- An expression, with its numbers as `lit` writes them. -/
def Expr.print (lit : Float → List Char) : Expr → List Char
  | .num x => lit x
  | .var name => name.toList
  | .unary op e => op.text.toList ++ parens (e.print lit)
  | .bin op l r =>
    parens (l.print lit) ++ (' ' :: (op.symbol.toList ++ [' '])) ++ parens (r.print lit)
  | .foreign kind => kind.toList

def Amount.print (lit : Float → List Char) : Amount → List Char
  | .lit x => lit x
  | .var name => name.toList

def HsvParam.print (lit : Float → List Char) : HsvParam → List Char
  | .ignore => ['_']
  | .offset sign a => sign.text.toList ++ a.print lit
  | .absolute a => a.print lit
  | .foreign kind => kind.toList

/-- The expression of a loop, in parentheses. -/
def printWrapped (lit : Float → List Char) (e : Option Expr) : List Char :=
  parens ((e.map (Expr.print lit)).getD [])

namespace Instr

/-- The statement of an instruction, without its body. -/
def text (lit : Float → List Char) : Instr → List Char
  | .move way e _ => way.text.toList ++ ' ' :: e.print lit
  | .turn side e _ => side.text.toList ++ ' ' :: e.print lit
  | .pen state _ => "pen".toList ++ ' ' :: state.text.toList
  | .hsv h s v _ =>
    "hsv".toList ++ ' ' :: (h.print lit ++ ' ' :: (s.print lit ++ ' ' :: v.print lit))
  | .assign name e true _ => name.toList ++ ' ' :: '=' :: ' ' :: e.print lit
  | .assign name e false _ =>
    "var".toList ++ ' ' :: (name.toList ++ ' ' :: '=' :: ' ' :: e.print lit)
  | .loop .until _ until? _ _ =>
    "repeat".toList ++ ' ' :: ("until".toList ++ ' ' :: (printWrapped lit until? ++ [':']))
  | .loop _ count _ _ _ => "repeat".toList ++ ' ' :: (printWrapped lit count ++ [':'])
  | .branch test _ _ => "if".toList ++ ' ' :: (test.print lit ++ [':'])
  | .breakLoop _ => "break".toList
  | .continueLoop _ => "continue".toList
  | .foreign kind => kind.toList

end Instr

/-- A line under `depth` bodies. -/
def indented (depth : Nat) (cs : List Char) : List Char :=
  List.replicate depth ' ' ++ cs

mutual
/-- The lines of an instruction under `depth` bodies. -/
def Instr.printLines (lit : Float → List Char) (depth : Nat) : Instr → List (List Char)
  | .loop mode count until? body line =>
    indented depth ((Instr.loop mode count until? body line).text lit) ::
      printAll lit (depth + 1) body
  | .branch test body line =>
    indented depth ((Instr.branch test body line).text lit) :: printAll lit (depth + 1) body
  | i => [indented depth (i.text lit)]

/-- The lines of instructions under `depth` bodies. -/
def printAll (lit : Float → List Char) (depth : Nat) : List Instr → List (List Char)
  | [] => []
  | i :: is => i.printLines lit depth ++ printAll lit depth is
end

/-- The text of a program. -/
def printProgram (lit : Float → List Char) (program : List Instr) : String :=
  String.ofList ((printAll lit 0 program).flatMap (· ++ ['\n']))

theorem printAll_cons (lit : Float → List Char) (depth : Nat) (i : Instr) (is : List Instr) :
    printAll lit depth (i :: is) = indented depth (i.text lit) ::
      (printAll lit (depth + 1) i.body ++ printAll lit depth is) := by
  rw [printAll]
  cases i <;> simp [Instr.printLines, Instr.body, printAll]

/-! ## Line numbers -/

mutual
/-- An instruction on line `n`, with those inside it on the lines below. -/
def Instr.renumber (n : Nat) : Instr → Instr
  | .move way e _ => .move way e (some n)
  | .turn side e _ => .turn side e (some n)
  | .pen state _ => .pen state (some n)
  | .hsv h s v _ => .hsv h s v (some n)
  | .assign name e reassign _ => .assign name e reassign (some n)
  | .loop mode count until? body _ => .loop mode count until? (renumberAll (n + 1) body) (some n)
  | .branch test body _ => .branch test (renumberAll (n + 1) body) (some n)
  | .breakLoop _ => .breakLoop (some n)
  | .continueLoop _ => .continueLoop (some n)
  | .foreign kind => .foreign kind

/-- Instructions on the lines from `n` on, each on a line of its own. -/
def renumberAll (n : Nat) : List Instr → List Instr
  | [] => []
  | i :: is => i.renumber n :: renumberAll (n + i.preorder.length) is
end

/-! ## What can be written -/

/-- A name in lower case. -/
def IsName (name : String) : Prop :=
  Name.isIdentifier name.toList ∧ ∀ c ∈ name.toList, ¬ c.isUpper

instance : DecidablePred IsName := fun name =>
  @instDecidableAnd _ _ inferInstance (List.decidableBAll _ name.toList)

/-- Digits with at most one point among them. -/
def IsLiteral (cs : List Char) : Prop :=
  (∀ c ∈ cs, Text.isDecimal c ∨ c = '.') ∧ cs.count '.' ≤ 1

instance : DecidablePred IsLiteral := fun cs =>
  @instDecidableAnd _ _ (List.decidableBAll _ cs) inferInstance

/-- What is written for `x` is a literal whose value is `x`, which is finite. -/
def Spells (lit : Float → List Char) (x : Float) : Prop :=
  IsLiteral (lit x) ∧ Number.finite? (lit x) = some x

namespace Expr

def WellFormed (lit : Float → List Char) : Expr → Prop
  | .num x => Spells lit x
  | .var name => IsName name
  | .unary op e => (op = .plus ∨ op = .minus) ∧ e.WellFormed lit
  | .bin op l r => (∃ b, op = .known b) ∧ l.WellFormed lit ∧ r.WellFormed lit
  | .foreign _ => False

/-- How much of its budget for nesting a reader takes: one for a sign or a leaf, and five for a pair
of parentheses. -/
def nesting : Expr → Nat
  | .unary _ e => e.nesting + 6
  | .bin _ l r => max l.nesting r.nesting + 5
  | _ => 1

/-- An expression that can be written inside `n` pairs of parentheses. -/
def Writable (lit : Float → List Char) (n : Nat) (e : Expr) : Prop :=
  e.WellFormed lit ∧ e.nesting + 5 * n ≤ nestingBudget

end Expr

def Amount.WellFormed (lit : Float → List Char) : Amount → Prop
  | .lit x => Spells lit x
  | .var name => IsName name

/-- A lone underscore stands for no variable. -/
def HsvParam.WellFormed (lit : Float → List Char) : HsvParam → Prop
  | .ignore => True
  | .offset sign a => (sign = .plus ∨ sign = .minus) ∧ a.WellFormed lit
  | .absolute a => a.WellFormed lit ∧ a ≠ .var "_"
  | .foreign _ => False

mutual
/-- An instruction that can be written; `inLoop` tells whether a loop surrounds it. -/
def Instr.WellFormed (lit : Float → List Char) (inLoop : Bool) : Instr → Prop
  | .move way e _ => (way = .forward ∨ way = .back) ∧ e.Writable lit 0
  | .turn side e _ => (side = .left ∨ side = .right) ∧ e.Writable lit 0
  | .pen state _ => state = .up ∨ state = .down
  | .hsv h s v _ => h.WellFormed lit ∧ s.WellFormed lit ∧ v.WellFormed lit
  | .assign name e reassign _ =>
    IsName name ∧ (reassign = true → name ≠ "var") ∧ e.Writable lit 0
  | .loop mode count until? body _ =>
    ((mode = .count ∧ until? = none ∧ ∃ e, count = some e ∧ e.Writable lit 1) ∨
      (mode = .until ∧ count = none ∧ ∃ e, until? = some e ∧ e.Writable lit 1)) ∧
    WellFormedAll lit true body
  | .branch test body _ => test.Writable lit 0 ∧ WellFormedAll lit inLoop body
  | .breakLoop _ => inLoop = true
  | .continueLoop _ => inLoop = true
  | .foreign _ => False

/-- Instructions that can be written. -/
def WellFormedAll (lit : Float → List Char) (inLoop : Bool) : List Instr → Prop
  | [] => True
  | i :: is => i.WellFormed lit inLoop ∧ WellFormedAll lit inLoop is
end

end PixelTurtle
