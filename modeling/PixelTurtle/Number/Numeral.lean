import PixelTurtle.Number.Exact
import PixelTurtle.Text.Blank
import PixelTurtle.Text.Digit

/-!
# Decimal numerals

A numeral is an optional sign, digits with at most one point among them, and an optional exponent.
Digits of every script count. Its value is the double nearest to it.

* `Numeral.parse?` reads a whole text as a numeral.
* `Numeral.toFloat` is its value.
* `finite?` reads a numeral whose value is finite.
* `ofText?` is the lenient reader for values typed by a user: blanks around the numeral, underscores
  between digits, and the names of the infinities and of not-a-number.
* `intOfText?` is its counterpart for integers.
-/

namespace PixelTurtle.Number

open Text

/-- The number `± digits · 10 ^ scale`. -/
structure Numeral where
  negative : Bool
  digits : Nat
  scale : Int
  deriving DecidableEq, Repr

/-- The number written by a row of digit characters; other characters count as zero. -/
def ofDigits (ds : List Char) : Nat :=
  ds.foldl (fun n d => 10 * n + (decimalValue? d).getD 0) 0

namespace Numeral

/-- The double nearest to a numeral; one that is too large is infinite. -/
def toFloat (n : Numeral) : Float :=
  let x := Float.ofScientific n.digits (n.scale < 0) n.scale.natAbs
  if n.negative then -x else x

/-- Reads a sign, and tells whether it is a minus. -/
def sign : List Char → Bool × List Char
  | '-' :: cs => (true, cs)
  | '+' :: cs => (false, cs)
  | cs => (false, cs)

/-- Reads an exponent that ends the text. -/
def exponent? : List Char → Option Int
  | [] => some 0
  | c :: cs =>
    if c == 'e' || c == 'E' then
      let (negative, ds) := sign cs
      if ds.isEmpty || !ds.all isDecimal then none
      else some (if negative then -(ofDigits ds : Int) else ofDigits ds)
    else none

/-- Splits a point and the digits after it off a text. -/
def fraction : List Char → List Char × List Char
  | '.' :: cs => (cs.takeWhile isDecimal, cs.dropWhile isDecimal)
  | cs => ([], cs)

/-- Reads a whole text as a numeral. -/
def parse? (cs : List Char) : Option Numeral :=
  let (negative, cs) := sign cs
  let whole := cs.takeWhile isDecimal
  let (part, rest) := fraction (cs.dropWhile isDecimal)
  if whole.isEmpty && part.isEmpty then none
  else (exponent? rest).map fun e => ⟨negative, ofDigits (whole ++ part), e - part.length⟩

end Numeral

/-- The value of a text that is a numeral of finite value. -/
def finite? (cs : List Char) : Option Float :=
  (Numeral.parse? cs).bind fun n =>
    let x := n.toFloat
    if x.isFinite then some x else none

/-! ## Values typed by a user -/

/-- The blanks that may surround a number: all but the four ASCII separators. -/
def isPadding (c : Char) : Bool :=
  isBlank c && !(0x1C ≤ c.toNat && c.toNat ≤ 0x1F)

/-- A text without the blanks around it. -/
def unpad (cs : List Char) : List Char :=
  ((cs.dropWhile isPadding).reverse.dropWhile isPadding).reverse

/-- Removes the underscores between digits, given the character before the text. An underscore
elsewhere spoils the text. -/
def dropUnderscores (before : Option Char) : List Char → Option (List Char)
  | [] => some []
  | '_' :: cs =>
    if before.any isDecimal && cs.head?.any isDecimal then dropUnderscores (some '_') cs else none
  | c :: cs => (dropUnderscores (some c) cs).map (c :: ·)

/-- The value of a name of a number that has no digits. -/
def named? (cs : List Char) : Option Float :=
  let (negative, cs) := Numeral.sign cs
  let name := String.ofList (cs.map Char.toLower)
  let x? :=
    if name == "inf" || name == "infinity" then some (1.0 / 0.0)
    else if name == "nan" then some nan
    else none
  x?.map fun x => if negative then -x else x

/-- The value of a text typed by a user. -/
def ofText? (cs : List Char) : Option Float :=
  let cs := unpad cs
  match named? cs with
  | some x => some x
  | none => ((dropUnderscores none cs).bind Numeral.parse?).map Numeral.toFloat

/-- The most digits that are read as an integer. -/
def maxIntDigits : Nat := 4300

/-- Why a text is no integer. -/
inductive IntFlaw
  | literal
  | tooLong (digits : Nat)
  deriving DecidableEq, Repr

/-- The integer written by a text typed by a user. -/
def intOfText? (cs : List Char) : Except IntFlaw Int :=
  let (negative, ds) := Numeral.sign (unpad cs)
  match dropUnderscores none ds with
  | none => .error .literal
  | some ds =>
    if ds.isEmpty || !ds.all isDecimal then .error .literal
    else if maxIntDigits < ds.length then .error (.tooLong ds.length)
    else .ok (if negative then -(ofDigits ds : Int) else ofDigits ds)

end PixelTurtle.Number
