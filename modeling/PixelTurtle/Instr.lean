import PixelTurtle.Color.Param

/-!
# Instructions

A program is a list of instructions. Loops and conditionals hold the instructions of their bodies.
Each instruction knows the source line it came from; one built by hand may give any number, or none.

* `Instr` is the type of instructions.
* `Instr.dump` and `dumpAll` write a program as a document.
* `levels` is how deep the written document is nested.
-/

namespace PixelTurtle

/-- The ways to move. -/
abbrev Way := Choice "forward" "back"

/-- The sides to turn to. -/
abbrev Side := Choice "left" "right"

/-- The positions of the pen. -/
abbrev PenState := Choice "up" "down"

/-- The kinds of loops. -/
abbrev LoopMode := Choice "count" "until"

@[match_pattern]
abbrev Way.forward : Way := .first

@[match_pattern]
abbrev Way.back : Way := .second

@[match_pattern]
abbrev Side.left : Side := .first

@[match_pattern]
abbrev Side.right : Side := .second

@[match_pattern]
abbrev PenState.up : PenState := .first

@[match_pattern]
abbrev PenState.down : PenState := .second

@[match_pattern]
abbrev LoopMode.count : LoopMode := .first

@[match_pattern]
abbrev LoopMode.until : LoopMode := .second

/-- An instruction. A loop evaluates the expression of its mode, which a hand-built one may lack. -/
inductive Instr
  | move (way : Way) (distance : Expr) (line : Option Int)
  | turn (side : Side) (angle : Expr) (line : Option Int)
  | pen (state : PenState) (line : Option Int)
  | hsv (h s v : HsvParam) (line : Option Int)
  | assign (name : String) (value : Expr) (reassign : Bool) (line : Option Int)
  | loop (mode : LoopMode) (count until? : Option Expr) (body : List Instr) (line : Option Int)
  | branch (test : Expr) (body : List Instr) (line : Option Int)
  | breakLoop (line : Option Int)
  | continueLoop (line : Option Int)
  /-- An instruction outside the language, with the name of its kind. -/
  | foreign (kind : String)
  deriving Inhabited

namespace Instr

/-- The source line of an instruction. -/
def line : Instr → Option Int
  | .move _ _ l => l
  | .turn _ _ l => l
  | .pen _ l => l
  | .hsv _ _ _ l => l
  | .assign _ _ _ l => l
  | .loop _ _ _ _ l => l
  | .branch _ _ l => l
  | .breakLoop l => l
  | .continueLoop l => l
  | .foreign _ => none

end Instr

/-! ## Written programs -/

/-- A written expression. -/
def Expr.dump : Expr → Json
  | .num x => .obj [("type", .str "num"), ("value", .real x)]
  | .var name => .obj [("type", .str "var"), ("name", .str name)]
  | .unary op e => .obj [("type", .str "unary"), ("op", .str op.text), ("operand", e.dump)]
  | .bin op l r =>
    .obj [("type", .str "bin"), ("op", .str op.symbol), ("left", l.dump), ("right", r.dump)]
  | .foreign kind => .str kind

/-- A written expression, or null. -/
def Expr.dump? : Option Expr → Json
  | some e => e.dump
  | none => .null

/-- A written amount. -/
def Amount.dump : Amount → Json
  | .lit x => .real x
  | .var name => .obj [("type", .str "var"), ("name", .str name)]

/-- A written parameter. -/
def HsvParam.dump : HsvParam → Json
  | .ignore => .obj [("type", .str "ignore")]
  | .offset sign a =>
    .obj [("type", .str "offset"), ("source", a.dump), ("sign", .str sign.text)]
  | .absolute a => .obj [("type", .str "absolute"), ("source", a.dump)]
  | .foreign kind => .str kind

/-- The field for a source line, left out when there is none. -/
def lineField : Option Int → List (String × Json)
  | some n => [("line", .int n)]
  | none => []

mutual
/-- A written instruction. -/
def Instr.dump : Instr → Json
  | .move way e l =>
    .obj ([("type", .str "MOVE"), ("direction", .str way.text), ("value", e.dump)] ++ lineField l)
  | .turn side e l =>
    .obj ([("type", .str "TURN"), ("direction", .str side.text), ("value", e.dump)] ++ lineField l)
  | .pen state l => .obj ([("type", .str "PEN"), ("state", .str state.text)] ++ lineField l)
  | .hsv h s v l =>
    .obj ([("type", .str "HSV"), ("h", h.dump), ("s", s.dump), ("v", v.dump)] ++ lineField l)
  | .assign name e reassign l =>
    .obj ([("type", .str "VAR"), ("name", .str name), ("value", e.dump),
      ("reassign", .bool reassign)] ++ lineField l)
  | .loop mode count until? body l =>
    .obj ([("type", .str "REPEAT"), ("mode", .str mode.text), ("count", Expr.dump? count),
      ("until", Expr.dump? until?), ("body", .arr (dumpAll body))] ++ lineField l)
  | .branch test body l =>
    .obj ([("type", .str "IF"), ("test", test.dump), ("body", .arr (dumpAll body))] ++ lineField l)
  | .breakLoop l => .obj ([("type", .str "BREAK")] ++ lineField l)
  | .continueLoop l => .obj ([("type", .str "CONTINUE")] ++ lineField l)
  | .foreign kind => .str kind

/-- A written program. -/
def dumpAll : List Instr → List Json
  | [] => []
  | i :: is => i.dump :: dumpAll is
end

/-! ## Nesting of written programs -/

/-- The levels of an expression that may be missing. -/
def Expr.depth? : Option Expr → Nat
  | some e => e.depth
  | none => 1

mutual
/-- The levels of a written instruction. -/
def Instr.levels : Instr → Nat
  | .move _ e _ => e.depth + 1
  | .turn _ e _ => e.depth + 1
  | .pen _ _ => 2
  | .hsv _ _ _ _ => 3
  | .assign _ e _ _ => e.depth + 1
  | .loop _ count until? body _ =>
    max (max (Expr.depth? count) (Expr.depth? until?)) (levelsAll body + 2) + 1
  | .branch test body _ => max test.depth (levelsAll body + 2) + 1
  | .breakLoop _ => 2
  | .continueLoop _ => 2
  | .foreign _ => 1

/-- The levels of the deepest of some written instructions. -/
def levelsAll : List Instr → Nat
  | [] => 0
  | i :: is => max i.levels (levelsAll is)
end

/-- How deep a program may be nested to be written. -/
def dumpLimit : Nat := 950

/-- Whether a program is shallow enough to be written. -/
def canDump (program : List Instr) : Bool :=
  levelsAll program ≤ dumpLimit

end PixelTurtle
