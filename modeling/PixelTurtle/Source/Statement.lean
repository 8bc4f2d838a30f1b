import PixelTurtle.Expr.Parser
import PixelTurtle.Instr
import PixelTurtle.Source.Line

/-!
# Statements

A line holds one statement: a command, an assignment, or the header of a block.

* `Complaint` is what can be wrong with a line, `Error` a complaint with its place.
* `Command.resolve` completes the abbreviations of the movements.
* `Header` is the start of a block, whose body comes from the lines below.
* `Line.statement` reads a line.
-/

namespace PixelTurtle.Source

/-! ## Complaints -/

/-- What is wrong with a statement. -/
inductive Complaint
  | expression (p : Problem)
  | tooDeep
  | noColon (keyword : String)
  | afterColon (keyword : String)
  | varForm
  | varName (name : List Char)
  | untilMissing
  | countMissing
  | testMissing
  | noArguments (keyword : String)
  | outsideLoop (keyword : String)
  | argumentMissing (keyword : String)
  | penForm
  | penState
  | hsvForm
  | hsvParam (e : ParamError)
  | unknown (word : List Char)
  deriving DecidableEq, Repr

def Complaint.message : Complaint → String
  | .expression p => p.message
  | .tooDeep => "Expression too deeply nested"
  | .noColon keyword => "Expected ':' after " ++ keyword
  | .afterColon keyword => "Unexpected text after ':' in " ++ keyword
  | .varForm => "Invalid var declaration. Use: var name = value"
  | .varName name => "Invalid variable name: " ++ String.ofList name
  | .untilMissing => "repeat until requires an expression"
  | .countMissing => "repeat requires a count"
  | .testMissing => "if requires an expression"
  | .noArguments keyword => keyword ++ " takes no arguments"
  | .outsideLoop keyword => "'" ++ keyword ++ "' outside repeat loop"
  | .argumentMissing keyword => keyword ++ " requires 1 argument"
  | .penForm => "pen requires one argument: up|down"
  | .penState => "Invalid pen state"
  | .hsvForm => "hsv requires 3 params: h s v"
  | .hsvParam e => e.message
  | .unknown word => "Unknown command: " ++ String.ofList word

/-- Why a text is no program. -/
inductive Error
  /-- A complaint, with its line and column counted from one. -/
  | malformed (c : Complaint) (line column : Nat)
  /-- A numeral whose digits have no value. -/
  | numeral (digits : List Char)
  deriving DecidableEq, Repr

/-- A complaint at the `column`-th character of the content of a line. -/
def Line.error {α : Type} (line : Line) (c : Complaint) (column : Nat) : Except Error α :=
  .error (.malformed c line.number (line.offset + column + 1))

/-! ## Commands -/

/-- The movements, which can be abbreviated. -/
def Command.movements : List String :=
  ["forward", "back", "left", "right"]

/-- Completes an abbreviation of a movement; another word stays. The movements start with different
letters, so there is at most one completion. -/
def Command.resolve (word : String) : String :=
  if word.isEmpty then word
  else (movements.find? fun m => word.toList.isPrefixOf m.toList).getD word

/-- The start of a block. -/
inductive Header
  | count (e : Expr)
  | until (e : Expr)
  | branch (e : Expr)
  deriving DecidableEq

def Header.isLoop : Header → Bool
  | .branch _ => false
  | _ => true

/-- The instruction of a block. -/
def Header.instr (line : Nat) (body : List Instr) : Header → Instr
  | .count e => .loop .count (some e) none body (some line)
  | .until e => .loop .until none (some e) body (some line)
  | .branch e => .branch e body (some line)

/-- What a line holds. -/
inductive Statement
  | simple (i : Instr)
  | header (h : Header)

/-! ## Parts of a line -/

/-- The place where `needle` first occurs in a text. -/
def positionOf (needle : List Char) : List Char → Nat
  | [] => 0
  | c :: cs => if needle.isPrefixOf (c :: cs) then 0 else positionOf needle cs + 1

/-- A text that `until` starts, without that word and the blanks after it. Dotted and dotless forms
of the letter i count alike. -/
def untilText? : List Char → Option (List Char)
  | u :: n :: t :: i :: l :: rest =>
    let dotted := i.toLower == 'i' || i.toNat == 0x130 || i.toNat == 0x131
    if u.toLower == 'u' && n.toLower == 'n' && t.toLower == 't' && dotted && l.toLower == 'l' then
      match rest with
      | [] => some []
      | c :: _ => if Text.isBlank c then some (Text.trimLeft rest) else none
    else none
  | _ => none

namespace Line

/-- Reads the expression `text`, which starts at the `column`-th character of the content. -/
def expression (line : Line) (text : List Char) (column : Nat) : Except Error Expr :=
  match Expr.parse text with
  | .ok e => .ok e
  | .error (.malformed p c) =>
    let lead := text.length - (Text.trimLeft text).length
    line.error (.expression p) (column + lead + c - 1)
  | .error .tooDeep => line.error .tooDeep column
  | .error (.numeral digits) => .error (.numeral digits)

/-- Reads the expression that ends the content or one of its beginnings, `whole`. -/
def expressionAtEnd (line : Line) (whole text : List Char) : Except Error Expr :=
  line.expression text (whole.length - text.length)

/-- The part of a block header before its colon, which must be the last character. -/
def beforeColon (line : Line) (keyword : String) : Except Error (List Char) :=
  let after := (line.content.reverse.takeWhile (· != ':')).reverse
  if after.length == line.content.length then line.error (.noColon keyword) line.content.length
  else
    let colon := line.content.length - after.length - 1
    if (Text.trim after).isEmpty then .ok (Text.trimRight (line.content.take colon))
    else line.error (.afterColon keyword) (colon + 1)

/-- The expression after the first equals sign. -/
def assigned (line : Line) : Except Error Expr :=
  line.expressionAtEnd line.content ((line.content.dropWhile (· != '=')).drop 1)

/-! ## Statements by keyword -/

def declaration (line : Line) : List (List Char) → Except Error Statement
  | _ :: name :: eq :: _ :: _ =>
    if eq != ['='] then line.error .varForm 0
    else if !Name.isIdentifier name then
      line.error (.varName name) (positionOf name line.content)
    else do
      let e ← line.assigned
      return .simple (.assign (Name.canonical name) e false (some line.number))
  | _ => line.error .varForm 0

def assignment (line : Line) (name : List Char) : Except Error Statement := do
  let e ← line.assigned
  return .simple (.assign (Name.canonical name) e true (some line.number))

def repetition (line : Line) : Except Error Statement := do
  let header ← line.beforeColon "repeat"
  let text := Text.trimLeft (header.drop 6)
  match untilText? text with
  | some [] => line.error .untilMissing 0
  | some condition => return .header (.until (← line.expressionAtEnd header condition))
  | none =>
    if text.isEmpty then line.error .countMissing 0
    else return .header (.count (← line.expressionAtEnd header text))

def conditional (line : Line) : Except Error Statement := do
  let header ← line.beforeColon "if expression"
  let text := Text.trimLeft (header.drop 2)
  if text.isEmpty then line.error .testMissing 0
  else return .header (.branch (← line.expressionAtEnd header text))

def jump (line : Line) (inLoop : Bool) (keyword : String) (i : Instr) :
    List (List Char) → Except Error Statement
  | [_] => if inLoop then .ok (.simple i) else line.error (.outsideLoop keyword) 0
  | ws => line.error (.noArguments keyword) ((ws.head?.getD []).length + 1)

def movement (line : Line) (keyword : String) (instr : Expr → Instr) :
    List (List Char) → Except Error Statement
  | w :: _ :: _ => do
    let e ← line.expressionAtEnd line.content (Text.trimLeft (line.content.drop w.length))
    return .simple (instr e)
  | ws => line.error (.argumentMissing keyword) (ws.head?.getD []).length

def penChange (line : Line) : List (List Char) → Except Error Statement
  | [_, state] =>
    let word := Name.canonical state
    if word == "up" then .ok (.simple (.pen .up (some line.number)))
    else if word == "down" then .ok (.simple (.pen .down (some line.number)))
    else line.error .penState (positionOf state line.content)
  | _ => line.error .penForm 0

def colorChange (line : Line) : List (List Char) → Except Error Statement
  | [_, h, s, v] =>
    match HsvParam.parse h, HsvParam.parse s, HsvParam.parse v with
    | .ok h, .ok s, .ok v => .ok (.simple (.hsv h s v (some line.number)))
    | .error e, _, _ => line.error (.hsvParam e) 0
    | _, .error e, _ => line.error (.hsvParam e) 0
    | _, _, .error e => line.error (.hsvParam e) 0
  | _ => line.error .hsvForm 0

/-- Whether the words are those of an assignment to a name. -/
def isAssignment : List (List Char) → Bool
  | name :: eq :: _ :: _ => Name.isIdentifier name && eq == ['=']
  | _ => false

/-- Reads the statement of a line that has one. An assignment may use a keyword as its name. -/
def statement (inLoop : Bool) (line : Line) : Except Error Statement :=
  let words := Text.words line.content
  let first := words.head?.getD []
  let at? := some line.number
  let keyword := Command.resolve (Name.canonical first)
  if keyword == "var" then line.declaration words
  else if isAssignment words then line.assignment first
  else
    match keyword with
    | "repeat" => line.repetition
    | "if" => line.conditional
    | "break" => line.jump inLoop keyword (.breakLoop at?) words
    | "continue" => line.jump inLoop keyword (.continueLoop at?) words
    | "forward" => line.movement keyword (.move .forward · at?) words
    | "back" => line.movement keyword (.move .back · at?) words
    | "left" => line.movement keyword (.turn .left · at?) words
    | "right" => line.movement keyword (.turn .right · at?) words
    | "pen" => line.penChange words
    | "hsv" => line.colorChange words
    | _ => line.error (.unknown first) 0

end Line

end PixelTurtle.Source
