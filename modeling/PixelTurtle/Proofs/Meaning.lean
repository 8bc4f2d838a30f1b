import PixelTurtle.Run.Machine

/-!
# The meaning of programs

What a program does, by recursion on its structure and without a stack of frames. A piece of a
program starts in a state and ends in another one, in one of three ways: at its end, with a jump
that has not met its loop yet, or with an abort. It is the measure that the machine is held
against (`Proofs/Refinement.lean`).

* `Exit` is how a piece ends, `Piece` what can be run: one instruction, a list of them, or the
  rounds of a loop.
* `Rounds.first` decides whether a loop runs its body at all, and `Rounds.next` whether it does
  once more.
* `Derives` are the rules.
-/

namespace PixelTurtle

/-- How a piece of a program ends. -/
inductive Exit
  | done
  /-- A jump that has not met its loop, and the line it comes from. -/
  | jump (j : Jump) (line : Option Int)
  | stop (a : Abort)

namespace Exit

/-- The ways in which a body may end so that its loop goes on to the next check. -/
inductive EndsRound : Exit → Prop
  | done : EndsRound .done
  | skipped (line : Option Int) : EndsRound (.jump .continueLoop line)

/-- What the end of a whole program is reported as. A jump that met no loop is a fault. -/
def report : Exit → Option Abort
  | .done => none
  | .jump j line => some (.fault (.outsideLoop j) line)
  | .stop a => some a

end Exit

/-- What a loop does after the round in progress: a number of further rounds, or rounds until a
condition holds. -/
inductive Rounds
  | more (n : Nat)
  | awaiting (condition : Option Expr)

namespace Rounds

/-- Whether a loop runs its body, and how it goes on then. A count is evaluated once and rounded
down. An empty body is not counted through. -/
def first (line : Option Int) (count until? : Option Expr) (body : List Instr) :
    LoopMode → Action (Option Rounds)
  | .count => do
    let x ← number .count line count
    match Number.floor x with
    | .error reason => throw (.noCell reason)
    | .ok n =>
      if 0 < n && !body.isEmpty then return some (.more (n.toNat - 1))
      else return none
  | _ => do
    if ← holds line until? then return none
    else return some (.awaiting until?)

/-- Whether a loop runs its body once more, which costs a step. -/
def next (o : Options) (line : Option Int) : Rounds → Action (Option Rounds)
  | .more 0 => return none
  | .more (n + 1) => do
    tick o line
    return some (.more n)
  | .awaiting condition => do
    if ← holds line condition then return none
    else
      tick o line
      return some (.awaiting condition)

end Rounds

/-- What can be run. -/
inductive Piece
  | one (i : Instr)
  | all (is : List Instr)
  /-- The round of a loop that is about to start, and the rounds after it. -/
  | rounds (r : Rounds) (body : List Instr) (line : Option Int)

/-- An action that costs a step. -/
def paid {α : Type} (o : Options) (line : Option Int) (act : Action α) : Action α := do
  tick o line
  act

/-- What the instructions do that neither jump nor have a body. -/
def actionOf? (o : Options) : Instr → Option (Action Unit)
  | .move way e line => some (move o way e line)
  | .turn side e line => some (turn o side e line)
  | .pen state line => some (setPen o (state == .down) line)
  | .hsv h s v line => some (setColor o h s v line)
  | .assign name e reassign line => some (assign name e reassign line)
  | _ => none

/-- The jump that an instruction is. -/
def jumpOf? : Instr → Option Jump
  | .breakLoop _ => some .breakLoop
  | .continueLoop _ => some .continueLoop
  | _ => none

/-- `Derives o p s x s'`: the piece `p`, started in the state `s`, ends with `x` in the state
`s'`. -/
inductive Derives (o : Options) : Piece → RunState → Exit → RunState → Prop
  | action {i : Instr} {act : Action Unit} {s s' : RunState} :
    actionOf? o i = some act → paid o i.line act s = .ok () s' → Derives o (.one i) s .done s'
  | action_stop {i : Instr} {act : Action Unit} {a : Abort} {s s' : RunState} :
    actionOf? o i = some act → paid o i.line act s = .error a s' →
    Derives o (.one i) s (.stop a) s'
  | jump {i : Instr} {j : Jump} {s s' : RunState} :
    jumpOf? i = some j → tick o i.line s = .ok () s' → Derives o (.one i) s (.jump j i.line) s'
  | jump_stop {i : Instr} {j : Jump} {a : Abort} {s s' : RunState} :
    jumpOf? i = some j → tick o i.line s = .error a s' → Derives o (.one i) s (.stop a) s'
  | branch {test : Expr} {body : List Instr} {line : Option Int} {v : Float} {x : Exit}
      {s s₁ s₂ : RunState} :
    paid o line (number .test line test) s = .ok v s₁ → (v != 0) = true →
    Derives o (.all body) s₁ x s₂ → Derives o (.one (.branch test body line)) s x s₂
  | branch_skip {test : Expr} {body : List Instr} {line : Option Int} {v : Float}
      {s s' : RunState} :
    paid o line (number .test line test) s = .ok v s' → (v != 0) = false →
    Derives o (.one (.branch test body line)) s .done s'
  | branch_stop {test : Expr} {body : List Instr} {line : Option Int} {a : Abort}
      {s s' : RunState} :
    paid o line (number .test line test) s = .error a s' →
    Derives o (.one (.branch test body line)) s (.stop a) s'
  | loop {mode : LoopMode} {count until? : Option Expr} {body : List Instr} {line : Option Int}
      {r : Rounds} {x : Exit} {s s₁ s₂ : RunState} :
    paid o line (Rounds.first line count until? body mode) s = .ok (some r) s₁ →
    Derives o (.rounds r body line) s₁ x s₂ →
    Derives o (.one (.loop mode count until? body line)) s x s₂
  | loop_skip {mode : LoopMode} {count until? : Option Expr} {body : List Instr}
      {line : Option Int} {s s' : RunState} :
    paid o line (Rounds.first line count until? body mode) s = .ok none s' →
    Derives o (.one (.loop mode count until? body line)) s .done s'
  | loop_stop {mode : LoopMode} {count until? : Option Expr} {body : List Instr}
      {line : Option Int} {a : Abort} {s s' : RunState} :
    paid o line (Rounds.first line count until? body mode) s = .error a s' →
    Derives o (.one (.loop mode count until? body line)) s (.stop a) s'
  | foreign {kind : String} {s : RunState} :
    Derives o (.one (.foreign kind)) s (.stop (.fault (.unknownInstr kind) none)) s
  | nil {s : RunState} : Derives o (.all []) s .done s
  | cons {i : Instr} {is : List Instr} {x : Exit} {s s₁ s₂ : RunState} :
    Derives o (.one i) s .done s₁ → Derives o (.all is) s₁ x s₂ →
    Derives o (.all (i :: is)) s x s₂
  | cons_exit {i : Instr} {is : List Instr} {x : Exit} {s s' : RunState} :
    Derives o (.one i) s x s' → x ≠ .done → Derives o (.all (i :: is)) s x s'
  | again {r r' : Rounds} {body : List Instr} {line : Option Int} {x x' : Exit}
      {s s₁ s₂ s₃ : RunState} :
    Derives o (.all body) s x s₁ → x.EndsRound → r.next o line s₁ = .ok (some r') s₂ →
    Derives o (.rounds r' body line) s₂ x' s₃ → Derives o (.rounds r body line) s x' s₃
  | finished {r : Rounds} {body : List Instr} {line : Option Int} {x : Exit} {s s₁ s₂ : RunState} :
    Derives o (.all body) s x s₁ → x.EndsRound → r.next o line s₁ = .ok none s₂ →
    Derives o (.rounds r body line) s .done s₂
  | check_stop {r : Rounds} {body : List Instr} {line : Option Int} {x : Exit} {a : Abort}
      {s s₁ s₂ : RunState} :
    Derives o (.all body) s x s₁ → x.EndsRound → r.next o line s₁ = .error a s₂ →
    Derives o (.rounds r body line) s (.stop a) s₂
  | left {r : Rounds} {body : List Instr} {line line' : Option Int} {s s' : RunState} :
    Derives o (.all body) s (.jump .breakLoop line') s' →
    Derives o (.rounds r body line) s .done s'
  | body_stop {r : Rounds} {body : List Instr} {line : Option Int} {a : Abort}
      {s s' : RunState} :
    Derives o (.all body) s (.stop a) s' → Derives o (.rounds r body line) s (.stop a) s'

end PixelTurtle
