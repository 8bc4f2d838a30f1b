import PixelTurtle.Run.Engine
import PixelTurtle.Source.Program

/-!
# Reports to a host

A host gets a reply in any case: a result, a report of what went wrong, or both. Only few failures
escape this form.

* `ErrorReport` is a structured error, `Reply` a reply.
* `Escape` are the failures that are not reported.
* `lineText?` is the source line an error points at.
-/

namespace PixelTurtle.Host

/-- A structured error. -/
structure ErrorReport where
  code : String
  message : String
  line : Option Int := none
  column : Option Nat := none
  lineText : Option String := none
  hint : Option String := none

def ErrorReport.toJson (e : ErrorReport) : Json :=
  .obj ([("code", .str e.code), ("message", .str e.message), ("line", .ofOption .int e.line),
    ("column", .ofOption (fun n => .int n) e.column)] ++
    (match e.lineText with
    | some t => [("context", .obj [("line_text", .str t)])]
    | none => []) ++
    (match e.hint with
    | some h => [("hint", .str h)]
    | none => []))

/-- A reply to a host. -/
structure Reply where
  result : Option RunResult
  errors : Option ErrorReport

def Reply.fields (r : Reply) : List (String × Json) :=
  [("result", .ofOption RunResult.toJson r.result),
    ("errors", .ofOption ErrorReport.toJson r.errors)]

def Reply.toJson (r : Reply) : Json :=
  .obj r.fields

/-- A reply that is only a report. -/
def Reply.failed (e : ErrorReport) : Reply :=
  ⟨none, some e⟩

/-- A failure that is not reported. -/
inductive Escape
  /-- A program that has no length. -/
  | noLength (kind : String)
  /-- A limit that no length can be compared with. -/
  | noLimit (kind : String)
  /-- A program that is no text. -/
  | notText
  /-- A numeral of the program whose digits have no value. -/
  | numeral (digits : List Char)
  /-- Settings that are no object. -/
  | notSettings (kind : String)
  /-- A setting that is too large. -/
  | setting (e : ConversionError)
  /-- A run that failed otherwise than by a fault. -/
  | expr (e : EvalError)
  | noDirection
  | noCell (reason : Number.NoInteger)
  | unfinished

def Escape.message : Escape → String
  | .noLength kind => "object of type '" ++ kind ++ "' has no len()"
  | .noLimit kind => "'>' not supported between instances of 'int' and '" ++ kind ++ "'"
  | .notText => "parse() requires a string"
  | .numeral digits => (ConversionError.numeral (String.ofList digits)).message
  | .notSettings kind => "'" ++ kind ++ "' object has no attribute 'get'"
  | .setting e => e.message
  | .expr e => e.message
  | .noDirection => "math domain error"
  | .noCell reason => reason.message
  | .unfinished => ""

/-- Why a request is not carried out: a report, or a failure that is not reported. -/
inductive Refusal
  | report (e : ErrorReport)
  | escape (e : Escape)

/-- The source line of a number. -/
def lineText? (code : String) : Option Int → Option String
  | some (.ofNat (n + 1)) => (Source.splitLines code.toList)[n]?.map String.ofList
  | _ => none

/-- The reply to a run that is over. -/
def replyTo (code : String) : Except Failure RunResult → Except Escape Reply
  | .ok r => .ok ⟨some r, none⟩
  | .error (.runtime f line r) =>
    .ok ⟨some r, some {
      code := f.code
      message := f.message
      line := line
      lineText := lineText? code line }⟩
  | .error (.expr e) => .error (.expr e)
  | .error .noDirection => .error .noDirection
  | .error (.noCell reason) => .error (.noCell reason)
  | .error .unfinished => .error .unfinished

end PixelTurtle.Host
