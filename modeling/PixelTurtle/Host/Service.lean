import PixelTurtle.Canvas.PixelGrid
import PixelTurtle.Host.Settings

/-!
# The service for hosts

A host hands over a program, settings and the name of an engine as documents, and gets a reply.

* `Limits.prepare` reads the program and the settings, which may be missing.
* `Limits.parse` only reads the program.
* `Limits.run` runs it with the engine of the given name, `Limits.runAsync` with pauses. Either may
  draw on a grid, which the host gets back.
-/

namespace PixelTurtle.Host

/-- A report about the settings. A number that is too large is not reported. -/
def refuseSetting (e : ConversionError) : Refusal :=
  if e.isOverflow then .escape (.setting e)
  else .report { code := "INVALID_SETTINGS", message := e.message }

/-- A report about the program text. -/
def refuseSource (code : String) : Source.Error → Refusal
  | .malformed c line column =>
    .report {
      code := "SYNTAX_ERROR"
      message := c.message
      line := some line
      column := some column
      lineText := lineText? code (some line)
      hint := some "Check the command name or syntax." }
  | .numeral digits => .escape (.numeral digits)

/-- The length of a program that a host hands over. -/
def codeLength : Json → Except Escape Nat
  | .str s => .ok s.length
  | .arr items => .ok items.length
  | .obj fields => .ok fields.length
  | j => .error (.noLength j.kind)

/-- Whether a length exceeds a limit. -/
def exceeds (n : Nat) : Json → Except Escape Bool
  | .int m => .ok (m < n)
  | .bool b => .ok (b.toNat < n)
  | .real x => .ok (x < .ofNat n)
  | j => .error (.noLimit j.kind)

/-- Settings as an object. A value that counts as false stands for no settings. -/
def settingsObject (settings : Json) : Except Escape Json :=
  if !settings.truthy then .ok (.obj [])
  else
    match settings with
    | .obj fields => .ok (.obj fields)
    | j => .error (.notSettings j.kind)

namespace Limits

/-- Reads a program, which is a text that is not too long. -/
def program (limits : Limits) (code : Json) : Except Refusal (List Instr) := do
  let n ← (codeLength code).mapError .escape
  if ← (exceeds n limits.maxCodeChars).mapError .escape then
    throw (.report {
      code := "CODE_TOO_LARGE"
      message := "Program longer than " ++ limits.maxCodeChars.plain ++ " characters" })
  match code with
  | .str s => (Source.parse s).mapError (refuseSource s)
  | _ => throw (.escape .notText)

/-- Reads a program and its settings. -/
def prepare (limits : Limits) (code settings : Json) :
    Except Refusal (List Instr × Options) := do
  let program ← limits.program code
  let settings ← (settingsObject settings).mapError .escape
  let options ← (limits.options settings).mapError refuseSetting
  return (program, options)

/-- Reads a program and writes the instructions. The limits are looked at, too. -/
def parse (limits : Limits) (code : Json) : Except Refusal (List Json) := do
  let (program, _) ← limits.prepare code .null
  if canDump program then return dumpAll program
  else
    throw (.report {
      code := "CODE_TOO_LARGE"
      message := "Instruction tree too deeply nested to serialize" })

end Limits

/-! ## Runs -/

/-- A reply, and the grid that was drawn on. -/
structure Served where
  reply : Except Escape Reply
  grid : Option PixelGrid

/-- A request that was not carried out. -/
def Served.refused (grid : Option PixelGrid) : Refusal → Served
  | .report e => ⟨.ok (.failed e), grid⟩
  | .escape e => ⟨.error e, grid⟩

/-- A run that is over, which drew on the grid. -/
def Served.ran (code : Json) (grid : Option PixelGrid) (run : Run) : Served :=
  ⟨replyTo code.plain run.outcome, grid.map fun g => g.receiveAll run.state.calls⟩

/-- The options of a run that draws on a grid. -/
def onGrid (grid : Option PixelGrid) (o : Options) : Options :=
  { o with renderer := grid.map fun _ => Renderer.full }

namespace Limits

/-- Runs a program with the engine `sync` or `step`. -/
def run (limits : Limits) (code settings engine : Json) (grid : Option PixelGrid) : Served :=
  let run (engine : Options → List Instr → Run) : Served :=
    match limits.prepare code settings with
    | .error r => .refused grid r
    | .ok (program, o) => .ran code grid (engine (onGrid grid o) program)
  match engine with
  | .str "sync" => run interpret
  | .str "step" => run interpretStepping
  | j =>
    .refused grid (.report {
      code := "INVALID_ENGINE"
      message := "Unknown engine '" ++ j.plain ++ "'" })

/-- The pause after each movement. It must be a number, but nothing in a reply depends on it. -/
def delay (settings : Json) : Except ConversionError Float :=
  match settings.get? "delay" with
  | some j => j.toFloat
  | none => .ok 0

/-- Runs a program with pauses. -/
def runAsync (limits : Limits) (code settings : Json) (signal : CancelSignal)
    (grid : Option PixelGrid) : Served :=
  match limits.prepare code settings with
  | .error r => .refused grid r
  | .ok (program, o) =>
    match delay settings with
    | .error e => .refused grid (refuseSetting e)
    | .ok _ => .ran code grid (interpretAsync (onGrid grid o) signal program).run

end Limits

end PixelTurtle.Host
