import PixelTurtle.Source.Statement

/-!
# Programs from source text

The lines that follow a block header and are indented more deeply than it are its body.

* `block` reads a run of lines.
* `parse` reads a whole text.
-/

namespace PixelTurtle.Source

/-- The lines below `line` that belong to its block. -/
def Line.below (line : Line) (rest : List Line) : List Line :=
  rest.takeWhile fun l => line.indent < l.indent

/-- The lines after the block of `line`. -/
def Line.after (line : Line) (rest : List Line) : List Line :=
  rest.dropWhile fun l => line.indent < l.indent

/-- Reads a run of lines with statements; `inLoop` tells whether a loop surrounds them. -/
def block (inLoop : Bool) : List Line → Except Error (List Instr)
  | [] => .ok []
  | line :: rest =>
    match line.statement inLoop with
    | .error e => .error e
    | .ok (.simple i) =>
      match block inLoop rest with
      | .error e => .error e
      | .ok is => .ok (i :: is)
    | .ok (.header h) =>
      match block (inLoop || h.isLoop) (line.below rest) with
      | .error e => .error e
      | .ok body =>
        match block inLoop (line.after rest) with
        | .error e => .error e
        | .ok is => .ok (h.instr line.number body :: is)
termination_by lines => lines.length
decreasing_by
  · simp
  · exact Nat.lt_succ_of_le (List.takeWhile_sublist _).length_le
  · exact Nat.lt_succ_of_le (List.dropWhile_sublist _).length_le

/-- Reads a program. -/
def parse (source : String) : Except Error (List Instr) :=
  block false ((linesOf source.toList).filter Line.isStatement)

end PixelTurtle.Source
