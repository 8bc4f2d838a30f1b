import PixelTurtle.Text.Quoted

/-!
# Templates

A template is a text with places that start with a percent sign. It is filled with one number, so
exactly one place may take a value; a doubled percent sign takes none. A place has flags, a width, a
precision and a letter for the form of the value. The result of filling is a text, and a text where
a number is expected is refused in any case: what matters is why.

* `TemplateFlaw` is the reason, with its wording in `TemplateFlaw.message`.
* `Place.read` reads one place.
* `templateFlaw` is the reason for a template.
-/

namespace PixelTurtle.Text

/-- Why a text cannot stand for a number. -/
inductive TemplateFlaw
  /-- The text ends within a place. -/
  | incomplete
  /-- A place whose letter stands for no form. -/
  | unsupported (c : Char) (index : Nat)
  | widthTooBig
  | precisionTooBig
  /-- A place that asks for a value by its name. -/
  | noNames
  /-- More places than values. -/
  | tooFew
  /-- No place takes the value. -/
  | unused
  /-- The text could be filled, but is no number. -/
  | stillText
  deriving DecidableEq, Repr

namespace TemplateFlaw

/-- The wording of a reason. Only plain characters are shown as they are. -/
def message : TemplateFlaw → String
  | .incomplete => "incomplete format"
  | .unsupported c index =>
    let shown := if 31 ≤ c.toNat && c.toNat ≤ 126 then c else '?'
    "unsupported format character '" ++ shown.toString ++ "' (0x" ++
      String.ofList (Nat.toDigits 16 (codePoint c)) ++ ") at index " ++ toString index
  | .widthTooBig => "width too big"
  | .precisionTooBig => "precision too big"
  | .noNames => "format requires a mapping"
  | .tooFew => "not enough arguments for format string"
  | .unused => "not all arguments converted during string formatting"
  | .stillText => "can only concatenate str (not \"int\") to str"

/-- Whether the template itself is ill-formed. -/
def isMalformed : TemplateFlaw → Bool
  | .incomplete => true
  | .unsupported .. => true
  | .widthTooBig => true
  | .precisionTooBig => true
  | _ => false

end TemplateFlaw

namespace Place

/-- The characters of a place that have not been read, and whether the value is still there. -/
abbrev Reader := StateT (List Char × Bool) (Except TemplateFlaw)

/-- Takes the value, which can be done once. -/
def takeValue : Reader Unit := do
  let (cs, free) ← get
  if free then set (cs, false) else throw .tooFew

/-- The next character. -/
def next : Reader Char := do
  match ← get with
  | (c :: cs, free) =>
    set (cs, free)
    return c
  | ([], _) => throw .incomplete

/-- Drops the characters of a class. -/
def skip (p : Char → Bool) : Reader Unit :=
  modify fun (cs, free) => (cs.dropWhile p, free)

def isFlag (c : Char) : Bool :=
  c == '-' || c == '+' || c == ' ' || c == '#' || c == '0'

/-- Adds the digits of a number to `n`, which may not exceed `most`. -/
def digits (most : Nat) (flaw : TemplateFlaw) : List Char → Nat → Except TemplateFlaw Unit
  | [], _ => .ok ()
  | d :: ds, n =>
    let v := d.toNat - '0'.toNat
    if (most - v) / 10 < n then .error flaw else digits most flaw ds (10 * n + v)

/-- A number, which an asterisk replaces by the value. -/
def size (most : Nat) (flaw : TemplateFlaw) : Reader Unit := do
  match (← get).1 with
  | '*' :: _ =>
    discard next
    takeValue
  | cs =>
    digits most flaw (cs.takeWhile Char.isDigit) 0
    skip Char.isDigit

/-- A precision, if there is one. -/
def precision : Reader Unit := do
  if (← get).1.head? == some '.' then
    discard next
    size (1 <<< 31 - 1) .precisionTooBig

/-- The letters that stand for a form of the value. -/
def forms : List Char :=
  "sraidouxXeEfFgGc".toList

/-- Reads a place that takes a value, after its percent sign; the text has `length` characters. -/
def readValue (length : Nat) : Reader Unit := do
  skip isFlag
  size (1 <<< 63 - 1) .widthTooBig
  precision
  if (← get).1.head?.any fun c => c == 'h' || c == 'l' || c == 'L' then discard next
  let c ← next
  takeValue
  if !forms.contains c then throw (.unsupported c (length - (← get).1.length - 1))

/-- Reads a place after its percent sign; the text has `length` characters. -/
def read (length : Nat) : Reader Unit := do
  match (← get).1 with
  | '%' :: _ => discard next
  | '(' :: _ => throw .noNames
  | _ => readValue length

end Place

/-- Fills the places of a text of `length` characters, by at most `n` of them. -/
def fillPlaces (length : Nat) : Nat → Place.Reader Unit
  | 0 => pure ()
  | n + 1 => do
    Place.skip (· != '%')
    match (← get).1 with
    | [] => pure ()
    | _ :: _ =>
      discard Place.next
      Place.read length
      fillPlaces length n

/-- Why a text cannot stand for a number. -/
def templateFlaw (cs : List Char) : TemplateFlaw :=
  match (fillPlaces cs.length cs.length).run (cs, true) with
  | .error flaw => flaw
  | .ok (_, (_, true)) => .unused
  | .ok (_, (_, false)) => .stillText

end PixelTurtle.Text
