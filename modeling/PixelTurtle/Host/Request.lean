import PixelTurtle.Host.Service

/-!
# Requests over the network

A request is an object with a program text and, for a run, settings, an engine and whether the
picture is wanted. The limits of a request are capped.

* `RunRequest.ofJson` and `ParseRequest.ofJson` check the form of a request.
* `capSettings` caps the limits.
* `RunRequest.respond` and `ParseRequest.respond` answer it.
-/

namespace PixelTurtle.Host

/-! ## The form of a request -/

/-- What is wrong with a field. -/
inductive FieldFlaw
  | notObject
  | missing
  | notText
  | notMapping
  | noFlag
  | badFlag
  deriving DecidableEq, Repr

def FieldFlaw.text : FieldFlaw → String
  | .notObject => "model_type"
  | .missing => "missing"
  | .notText => "string_type"
  | .notMapping => "dict_type"
  | .noFlag => "bool_type"
  | .badFlag => "bool_parsing"

/-- A flawed field of a request; the request itself has the empty name. -/
structure FieldError where
  field : String
  flaw : FieldFlaw

/-- A field, or what is wrong with it. -/
abbrev Field := Except FieldFlaw

def textField : Json → Field String
  | .str s => .ok s
  | _ => .error .notText

def codeField (body : Json) : Field String :=
  match body.get? "code" with
  | some j => textField j
  | none => .error .missing

/-- Settings, where null counts as none. -/
def settingsField (body : Json) : Field Json :=
  match body.get? "settings" with
  | none => .ok .null
  | some .null => .ok .null
  | some (.obj fields) => .ok (.obj fields)
  | some _ => .error .notMapping

def engineField (body : Json) : Field String :=
  match body.get? "engine" with
  | some j => textField j
  | none => .ok "sync"

/-- The flag of a word, in any case. -/
def flagWord (s : String) : Field Bool :=
  let w := String.ofList (s.toList.map Char.toLower)
  if ["1", "on", "t", "true", "y", "yes"].contains w then .ok true
  else if ["0", "off", "f", "false", "n", "no"].contains w then .ok false
  else .error .badFlag

/-- The machine words lie below this number and not below its negation. -/
def wordBound : Int :=
  0x8000000000000000

/-- Whether an integer is a machine word. -/
def isWord (n : Int) : Bool :=
  -wordBound ≤ n && n < wordBound

/-- The flag of a whole number, which must be zero or one. -/
def flagNumber : Int → Field Bool
  | 0 => .ok false
  | 1 => .ok true
  | n => .error (if isWord n then .badFlag else .noFlag)

/-- The flag of a value: a truth value, zero or one, or a word. -/
def flagField : Json → Field Bool
  | .bool b => .ok b
  | .int n => flagNumber n
  | .real x =>
    match Number.floor x with
    -- the least machine word is not reached by a real number
    | .ok n => if x == .ofInt n && n != -wordBound then flagNumber n else .error .noFlag
    | .error _ => .error .noFlag
  | .str s => flagWord s
  | _ => .error .noFlag

def renderField (body : Json) : Field Bool :=
  match body.get? "render" with
  | some j => flagField j
  | none => .ok false

/-- The flaw of a field, if it has one. -/
def flaws {α : Type} (name : String) : Field α → List FieldError
  | .ok _ => []
  | .error flaw => [⟨name, flaw⟩]

/-- A request to run a program. -/
structure RunRequest where
  code : String
  settings : Json
  engine : String
  render : Bool

/-- Checks a request to run a program; all flawed fields are listed. -/
def RunRequest.ofJson (body : Json) : Except (List FieldError) RunRequest :=
  match body with
  | .obj _ =>
    let code := codeField body
    let settings := settingsField body
    let engine := engineField body
    let render := renderField body
    match code, settings, engine, render with
    | .ok code, .ok settings, .ok engine, .ok render => .ok ⟨code, settings, engine, render⟩
    | _, _, _, _ =>
      .error (flaws "code" code ++ flaws "settings" settings ++ flaws "engine" engine ++
        flaws "render" render)
  | _ => .error [⟨"", .notObject⟩]

/-- A request to read a program. -/
structure ParseRequest where
  code : String

/-- Checks a request to read a program. -/
def ParseRequest.ofJson (body : Json) : Except (List FieldError) ParseRequest :=
  match body with
  | .obj _ =>
    match codeField body with
    | .ok code => .ok ⟨code⟩
    | .error flaw => .error [⟨"code", flaw⟩]
  | _ => .error [⟨"", .notObject⟩]

/-! ## Capped limits -/

/-- The longest pause of a request, in seconds. -/
def maxDelay : Float := 0.05

/-- The settings of a request with capped limits. -/
structure Capped where
  maxSteps : Int
  maxOperations : Int
  delay : Float
  /-- The other settings, as they are. -/
  others : List (String × Json)

/-- The keys of the capped settings. -/
def cappedKeys : List String :=
  ["max_steps", "max_operations", "delay"]

/-- A pause between zero and the longest one. What is not a number counts as zero. -/
def capDelay (x : Float) : Float :=
  let x := if maxDelay < x then maxDelay else x
  if 0 < x then x else 0

/-- Brings an integer between two bounds. -/
def between (lo hi n : Int) : Int :=
  max lo (min n hi)

/-- The most steps of a request. -/
def stepCap : Int := defaultMaxSteps

/-- The longest log of a request. -/
def operationCap : Int := 200000

/-- Caps the settings of a request. -/
def capSettings (settings : Json) : Except Escape Capped := do
  match ← settingsObject settings with
  | .obj [] => return ⟨stepCap, operationCap, 0, []⟩
  | settings =>
    let steps ← (limit settings "max_steps" (.int stepCap)).mapError .setting
    let operations ← (limit settings "max_operations" (.int operationCap)).mapError .setting
    let delay ← (Limits.delay settings).mapError .setting
    return {
      maxSteps := between 1 stepCap steps
      maxOperations := between 0 operationCap operations
      delay := capDelay delay
      others := settings.fields.filter fun (k, _) => !cappedKeys.contains k }

def Capped.toJson (c : Capped) : Json :=
  .obj (c.others ++ [("max_steps", .int c.maxSteps), ("max_operations", .int c.maxOperations),
    ("delay", .real c.delay)])

/-! ## Responses -/

/-- The response to a request to run a program. -/
inductive Response
  | answered (reply : Reply) (canvas : Option PixelGrid)
  /-- A failure that is not reported otherwise. -/
  | serverError (message : String)

def Response.toJson : Response → Json
  | .answered reply canvas =>
    .obj (reply.fields ++
      (match canvas with
      | some g => [("canvas", g.toJson)]
      | none => []))
  | .serverError message =>
    .obj [("result", .null),
      ("errors", .obj [("code", .str "SERVER_ERROR"), ("message", .str message)])]

/-- The response to what was served. -/
def Response.ofServed (s : Served) : Response :=
  match s.reply with
  | .ok reply => .answered reply s.grid
  | .error e => .serverError e.message

/-- Runs the program of a request with capped settings. -/
def RunRequest.respond (r : RunRequest) : Response :=
  match capSettings r.settings with
  | .error e => .serverError e.message
  | .ok capped =>
    let limits : Limits :=
      { maxSteps := .int capped.maxSteps, maxOperations := .int capped.maxOperations }
    let grid : Option PixelGrid := if r.render then some {} else none
    .ofServed <|
      if r.engine == "async" then
        limits.runAsync (.str r.code) capped.toJson (fun _ => false) grid
      else limits.run (.str r.code) capped.toJson (.str r.engine) grid

/-- Reads the program of a request. -/
def ParseRequest.respond (r : ParseRequest) : Except Escape Json :=
  match ({} : Limits).parse (.str r.code) with
  | .ok instructions => .ok (.obj [("instructions", .arr instructions)])
  | .error (.report e) => .ok (.obj [("errors", e.toJson)])
  | .error (.escape e) => .error e

end PixelTurtle.Host
