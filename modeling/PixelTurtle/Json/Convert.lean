import PixelTurtle.Json
import PixelTurtle.Number.Numeral
import PixelTurtle.Text.Template

/-!
# Numbers and flags from documents

Settings come from outside: a number may be written as a number, as a truth value or as a text. The
conversions here say what is accepted and why something is not.

* `Json.toFloat`, `Json.toInt` and `Json.toBool` are the conversions.
* `ConversionError` is the reason of a refusal, with its wording in `ConversionError.message`.
* `ConversionError.isOverflow` tells the numbers that are too large from the values that are no
  numbers.
-/

namespace PixelTurtle

open Number

/-- Why a value cannot be converted. -/
inductive ConversionError
  /-- A text that is no numeral. -/
  | numeral (text : String)
  /-- A value of a kind that is no number. -/
  | notFloat (kind : String)
  /-- An integer beyond the largest double. -/
  | tooLarge
  /-- An integer whose half is beyond the largest double. -/
  | halfTooLarge
  /-- A text that is no integer. -/
  | literal (text : String)
  /-- A text of too many digits. -/
  | tooLong (digits : Nat)
  /-- A value of a kind that is no integer. -/
  | notInt (kind : String)
  /-- A double without an integer part. -/
  | noInteger (reason : NoInteger)
  /-- A value that is no flag. -/
  | notBool (key : String) (value : Json)
  /-- A color of too few components. -/
  | tooFew (count : Nat)
  /-- A color of too many components. -/
  | tooMany
  /-- A value that has no components. -/
  | notList (kind : String)
  /-- A value of which no remainder can be taken. -/
  | notAngle (kind : String)
  /-- A text in the place of an angle, which is filled as a template. -/
  | template (flaw : Text.TemplateFlaw)
  /-- A value that cannot be divided. -/
  | notExtent (kind : String)
  /-- A value that cannot name a cell. -/
  | notKey (kind : String)

namespace ConversionError

/-- How much of a quoted text a message about an integer shows. -/
def shownLength : Nat := 200

/-- The wording of a refusal. -/
def message : ConversionError → String
  | .numeral text => "could not convert string to float: " ++ Text.quote text
  | .notFloat kind =>
    "float() argument must be a string or a real number, not '" ++ kind ++ "'"
  | .tooLarge => "int too large to convert to float"
  | .halfTooLarge => "integer division result too large for a float"
  | .literal text =>
    "invalid literal for int() with base 10: " ++
      String.ofList ((Text.quote text).toList.take shownLength)
  | .tooLong digits =>
    "Exceeds the limit (4300 digits) for integer string conversion: value has " ++
      toString digits ++ " digits; use sys.set_int_max_str_digits() to increase the limit"
  | .notInt kind =>
    "int() argument must be a string, a bytes-like object or a real number, not '" ++ kind ++ "'"
  | .noInteger reason => reason.message
  | .notBool key value => "Invalid boolean for " ++ key ++ ": " ++ value.display
  | .tooFew count =>
    "not enough values to unpack (expected 3, got " ++ toString count ++ ")"
  | .tooMany => "too many values to unpack (expected 3)"
  | .notList kind => "cannot unpack non-iterable " ++ kind ++ " object"
  | .notAngle kind => "unsupported operand type(s) for %: '" ++ kind ++ "' and 'int'"
  | .template flaw => flaw.message
  | .notExtent kind => "unsupported operand type(s) for //: '" ++ kind ++ "' and 'int'"
  | .notKey kind => "unhashable type: '" ++ kind ++ "'"

/-- Whether the value is a number, only too large a one. -/
def isOverflow : ConversionError → Bool
  | .tooLarge => true
  | .halfTooLarge => true
  | .noInteger .infinite => true
  | _ => false

end ConversionError

namespace Json

/-- The double of a value: a number, a truth value or a numeral. -/
def toFloat : Json → Except ConversionError Float
  | .real x => .ok x
  | .int n =>
    match ofInt? n with
    | some x => .ok x
    | none => .error .tooLarge
  | .bool b => .ok (if b then 1 else 0)
  | .str s =>
    match ofText? s.toList with
    | some x => .ok x
    | none => .error (.numeral s)
  | j => .error (.notFloat j.kind)

/-- The integer of a value: a number without its fraction, a truth value or an integer numeral. -/
def toInt : Json → Except ConversionError Int
  | .int n => .ok n
  | .real x => (truncate x).mapError .noInteger
  | .bool b => .ok (if b then 1 else 0)
  | .str s =>
    match intOfText? s.toList with
    | .ok n => .ok n
    | .error .literal => .error (.literal s)
    | .error (.tooLong n) => .error (.tooLong n)
  | j => .error (.notInt j.kind)

/-- The flag of a text: the usual words for yes and no in any case. -/
def flag? (s : String) : Option Bool :=
  let w := String.ofList (Text.trim s.toList |>.map Char.toLower)
  if ["true", "1", "yes", "on"].contains w then some true
  else if ["false", "0", "no", "off"].contains w then some false
  else none

/-- The flag of a value: a truth value, zero or one, or a word for yes or no. The `key` is named
when the value is none of these. -/
def toBool (key : String) : Json → Except ConversionError Bool
  | .bool b => .ok b
  | .int 0 => .ok false
  | .int 1 => .ok true
  | .str s =>
    match flag? s with
    | some b => .ok b
    | none => .error (.notBool key (.str s))
  | j => .error (.notBool key j)

end Json

end PixelTurtle
