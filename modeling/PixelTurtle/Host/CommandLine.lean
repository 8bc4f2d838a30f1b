import PixelTurtle.Host.Service

/-!
# The command line

The command line takes options only. A long option may be shortened as long as it is the only one
with that beginning, and its value may follow after an equals sign. An argument that starts with a
dash is an option, unless it is a negative number or holds a blank. Short options can be written
together.

* `Flag` are the options, `Argument.classify` resolves a written one.
* `Invocation.parse` reads the arguments.
* `Invocation.run` runs the program.
-/

namespace PixelTurtle.Host

/-- The options. -/
inductive Flag
  | help
  | code
  | engine
  | startX
  | startY
  | heading
  | penDown
  | width
  | height
  | delay
  | maxSteps
  | noRecord
  | verbose
  deriving DecidableEq, Repr

namespace Flag

/-- The long options. -/
def names : List (String × Flag) :=
  [("--help", .help), ("--code", .code), ("--engine", .engine), ("--start-x", .startX),
    ("--start-y", .startY), ("--heading", .heading), ("--pen-down", .penDown), ("--width", .width),
    ("--height", .height), ("--delay", .delay), ("--max-steps", .maxSteps),
    ("--no-record", .noRecord), ("--verbose", .verbose)]

/-- The short options. -/
def letters : List (Char × Flag) :=
  [('h', .help), ('v', .verbose)]

/-- Whether an option has a value. -/
def takesValue : Flag → Bool
  | .help => false
  | .penDown => false
  | .noRecord => false
  | .verbose => false
  | _ => true

end Flag

/-- What an argument is. -/
inductive Argument
  /-- A long option, which may come with a value. -/
  | long (f : Flag) (value : Option String)
  /-- A group of short options. -/
  | group (fs : List Flag)
  /-- A group with a letter that is no option. -/
  | badGroup
  /-- A text, which can be a value. -/
  | plain (text : String)
  /-- An option that does not exist. -/
  | unknown
  /-- The end of the options. -/
  | separator

/-- Why the program is not run. -/
inductive Exit
  | help
  | usage
  deriving DecidableEq, Repr

/-- The status of the process. -/
def Exit.status : Exit → Nat
  | .help => 0
  | .usage => 2

namespace Argument

/-- Splits a text at its first equals sign. -/
def splitValue (cs : List Char) : List Char × Option String :=
  match cs.dropWhile (· != '=') with
  | [] => (cs, none)
  | _ :: value => (cs.takeWhile (· != '='), some (String.ofList value))

/-- A text without the line feed that ends it. -/
def chomp (cs : List Char) : List Char :=
  if cs.getLast? == some '\n' then cs.dropLast else cs

/-- Whether a text is a dash and a plain decimal number. A line feed may end it. -/
def isNegativeNumber (cs : List Char) : Bool :=
  match chomp cs with
  | '-' :: cs =>
    match cs.dropWhile Text.isDecimal with
    | [] => !cs.isEmpty
    | '.' :: part => !part.isEmpty && part.all Text.isDecimal
    | _ => false
  | _ => false

/-- A text with a dash that is no option. -/
def unresolved (cs : List Char) : Argument :=
  if isNegativeNumber cs || cs.contains ' ' then .plain (String.ofList cs) else .unknown

/-- The group of a short option and the letters after it, which must all be options. -/
def groupOf (first : Flag) (letters : List Char) : Argument :=
  match letters.mapM (Flag.letters.lookup ·) with
  | some fs => .group (first :: fs)
  | none => .badGroup

/-- A short option and what follows it: letters, or an equals sign and at least one letter. -/
def short (first : Flag) : List Char → Argument
  | ['='] => .badGroup
  | '=' :: letters => groupOf first letters
  | letters => groupOf first letters

/-- Resolves an argument. -/
def classify (arg : String) : Except Exit Argument :=
  match arg.toList with
  | [] => .ok (.plain arg)
  | ['-'] => .ok (.plain arg)
  | ['-', '-'] => .ok .separator
  | '-' :: '-' :: name =>
    let (name, value) := splitValue ('-' :: '-' :: name)
    match Flag.names.lookup arg with
    | some f => .ok (.long f none)
    | none =>
      match Flag.names.lookup (String.ofList name) with
      | some f => .ok (.long f value)
      | none =>
        match Flag.names.filter fun (n, _) => name.isPrefixOf n.toList with
        | [] => .ok (unresolved arg.toList)
        | [(_, f)] => .ok (.long f value)
        | _ => .error .usage
  | '-' :: c :: rest =>
    match Flag.letters.lookup c with
    | some f => .ok (short f rest)
    | none => .ok (unresolved arg.toList)
  | _ => .ok (.plain arg)

/-- Resolves the arguments; after a separator they are all plain. -/
def classifyAll : List String → Except Exit (List Argument)
  | [] => .ok []
  | arg :: args => do
    match ← classify arg with
    | .separator => return .separator :: args.map .plain
    | a => return a :: (← classifyAll args)

end Argument

/-! ## Invocations -/

/-- What the command line asks for. An option whose value is just the mark for the end of the
options has an empty list as its value. -/
structure Invocation where
  /-- The program; without one it is read from the standard input. -/
  code : Json := .null
  engine : Json := .str "sync"
  startX : Json := .real 0
  startY : Json := .real 0
  heading : Json := .real 0
  penDown : Bool := false
  width : Json := .null
  height : Json := .null
  delay : Json := .real 0
  maxSteps : Json := .null
  noRecord : Bool := false

namespace Invocation

def realValue (value : String) : Except Exit Json :=
  match Number.ofText? value.toList with
  | some x => .ok (.real x)
  | none => .error .usage

def intValue (value : String) : Except Exit Json :=
  match Number.intOfText? value.toList with
  | .ok n => .ok (.int n)
  | .error _ => .error .usage

def engineValue (value : String) : Except Exit Json :=
  if ["sync", "async", "step"].contains value then .ok (.str value) else .error .usage

/-- Reads the value of an option. -/
def readValue (convert : String → Except Exit Json) (value : String) : Except Exit Json :=
  if value == "--" then .ok (.arr []) else convert value

/-- Sets an option that has a value. -/
def setValue (v : Invocation) (value : String) : Flag → Except Exit Invocation
  | .code => do return { v with code := ← readValue (fun s => .ok (.str s)) value }
  | .engine => do return { v with engine := ← readValue engineValue value }
  | .startX => do return { v with startX := ← readValue realValue value }
  | .startY => do return { v with startY := ← readValue realValue value }
  | .heading => do return { v with heading := ← readValue realValue value }
  | .delay => do return { v with delay := ← readValue realValue value }
  | .width => do return { v with width := ← readValue intValue value }
  | .height => do return { v with height := ← readValue intValue value }
  | .maxSteps => do return { v with maxSteps := ← readValue intValue value }
  | _ => .error .usage

/-- Sets an option that has no value. -/
def setFlag (v : Invocation) : Flag → Except Exit Invocation
  | .help => .error .help
  | .penDown => .ok { v with penDown := true }
  | .noRecord => .ok { v with noRecord := true }
  | .verbose => .ok v
  | _ => .error .usage

/-- Sets options that have no value, in order. -/
def setFlags (v : Invocation) : List Flag → Except Exit Invocation
  | [] => .ok v
  | f :: fs => do (← v.setFlag f).setFlags fs

/-- Reads resolved arguments. An argument that belongs to no option is refused in the end, after all
options have been looked at. -/
def fill (v : Invocation) (stray : Bool) : List Argument → Except Exit Invocation
  | [] => if stray then .error .usage else .ok v
  | .long f (some value) :: args =>
    if f.takesValue then do (← v.setValue value f).fill stray args else .error .usage
  | .long f none :: args =>
    if f.takesValue then
      match args with
      | .plain value :: args => do (← v.setValue value f).fill stray args
      | _ => .error .usage
    else do (← v.setFlag f).fill stray args
  | .group fs :: args => do (← v.setFlags fs).fill stray args
  | .badGroup :: _ => .error .usage
  | .plain _ :: args => v.fill true args
  | .unknown :: args => v.fill true args
  | .separator :: args => v.fill true args

/-- Reads the arguments of the command line. -/
def parse (args : List String) : Except Exit Invocation := do
  ({} : Invocation).fill false (← Argument.classifyAll args)

/-- The settings that an invocation stands for. -/
def settings (v : Invocation) : Json :=
  .obj ([("start_x", v.startX), ("start_y", v.startY), ("heading", v.heading),
    ("initial_pen_down", .bool v.penDown), ("width", v.width), ("height", v.height),
    ("record", .bool !v.noRecord), ("delay", v.delay), ("max_steps", v.maxSteps)].filter
    fun (_, j) => !j.isNull)

/-- Runs the program of an invocation, which is `input` unless the arguments give one. -/
def run (v : Invocation) (input : String) : Except Escape Reply :=
  let limits : Limits := {}
  let code := if v.code.isNull then .str input else v.code
  let served :=
    match v.engine with
    | .str "async" => limits.runAsync code v.settings (fun _ => false) none
    | engine => limits.run code v.settings engine none
  served.reply

/-- The status of the process after a reply. -/
def status (r : Reply) : Nat :=
  if r.errors.isSome then 1 else 0

end Invocation

end PixelTurtle.Host
