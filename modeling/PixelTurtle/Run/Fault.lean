import PixelTurtle.Color.Param
import PixelTurtle.Expr.Eval
import PixelTurtle.Number.Exact

/-!
# How a run can fail

A fault is a failure that the language knows: it ends the run, and the host gets what was drawn so
far. An abort is either a fault, with the line of the instruction, or a failure that the language
does not know, after which a host may go on with the next instruction.

* `Fault` are the failures of the language, with `Fault.message` and `Fault.code`.
* `Abort` is why an instruction was not finished.
-/

namespace PixelTurtle

/-- The two jumps. -/
inductive Jump
  | breakLoop
  | continueLoop
  deriving DecidableEq, Repr

def Jump.keyword : Jump → String
  | .breakLoop => "break"
  | .continueLoop => "continue"

/-- The values that an instruction needs as a finite number. -/
inductive Quantity
  | distance
  | angle
  | count
  | until
  | test
  | value (name : String)
  deriving DecidableEq, Repr

def Quantity.message : Quantity → String
  | .distance => "Invalid move value"
  | .angle => "Invalid turn value"
  | .count => "Invalid repeat count"
  | .until => "Invalid until expression"
  | .test => "Invalid if condition"
  | .value name => "Undefined variable or invalid value in assignment to " ++ name

/-- The failures of the language. -/
inductive Fault
  | stepLimit
  | outputLimit
  | cancelled
  | notFinite (q : Quantity)
  | undeclared (name : String)
  | outsideLoop (j : Jump)
  | param (f : ParamFault)
  | unknownInstr (kind : String)
  deriving DecidableEq, Repr

def Fault.message : Fault → String
  | .stepLimit => "Step limit exceeded"
  | .outputLimit => "Operation log limit reached"
  | .cancelled => "Run cancelled"
  | .notFinite q => q.message
  | .undeclared name => "Cannot reassign undeclared variable '" ++ name ++ "'"
  | .outsideLoop j => "'" ++ j.keyword ++ "' outside repeat loop"
  | .param f => f.message
  | .unknownInstr kind => "Unknown instruction type: " ++ kind

/-- The code of a fault for a host. -/
def Fault.code : Fault → String
  | .stepLimit => "STEP_LIMIT"
  | .outputLimit => "OUTPUT_LIMIT"
  | .cancelled => "CANCELLED"
  | _ => "RUNTIME_ERROR"

/-- Why an instruction was not finished. -/
inductive Abort
  | fault (f : Fault) (line : Option Int)
  /-- An expression outside the language. -/
  | expr (e : EvalError)
  /-- The direction of an infinite heading. -/
  | noDirection
  /-- A position without a cell. -/
  | noCell (reason : Number.NoInteger)
  deriving DecidableEq, Repr

end PixelTurtle
