/-!
# Shortest decimals

The text of a double is the decimal with the fewest digits that reads back as the same double; of
two such decimals it is the nearer one, and of two equally near ones the even one. The search is
exact: for each number of digits it tries the two neighbours of the value on that decimal grid.

* `Decimal` is a number `digits · 10 ^ exponent`.
* `shortest` finds the decimal of `m · 2 ^ e`.
* `text` writes a double: positional notation from `1e-4` up to `1e16`, an exponent elsewhere.
-/

namespace PixelTurtle.Number

open Float.Model (UnpackedFloat)

/-- The number `digits · 10 ^ exponent`. -/
structure Decimal where
  digits : Nat
  exponent : Int
  deriving DecidableEq, Repr

/-- A positive rational as numerator and denominator. -/
structure Ratio where
  num : Nat
  den : Nat

/-- `m · 2 ^ e / 10 ^ k`. -/
def Ratio.scaled (m : Nat) (e k : Int) : Ratio :=
  ⟨(m <<< e.toNat) * Nat.pow 10 (-k).toNat, (1 <<< (-e).toNat) * Nat.pow 10 k.toNat⟩

/-- The exponent of the leading decimal digit of `m · 2 ^ e`; the double is not below `1e-400`. -/
def leadingExponent (m : Nat) (e : Int) : Int :=
  let r := Ratio.scaled m e (-400)
  ((Nat.toDigits 10 (r.num / r.den)).length : Int) - 401

/-- Whether `d · 10 ^ k` reads back as `m · 2 ^ e`. The interval of such numbers reaches half way to
the neighbouring doubles, and its ends belong to it when `m` is even. -/
def readsBack (m : Nat) (e k : Int) (d : Nat) : Bool :=
  let r := Ratio.scaled m e k
  let below := if m == 1 <<< 52 && e != -1074 then 1 else 2
  let lo := (4 * m - below) * r.num
  let hi := (4 * m + 2) * r.num
  let x := 4 * m * d * r.den
  if m % 2 == 0 then lo ≤ x && x ≤ hi else lo < x && x < hi

/-- The nearer of `d` and `d + 1` to a value that lies `rem / (2 · den)` above `d`; a tie goes to
the even one. -/
def nearest (d rem den : Nat) : Nat :=
  if rem < den || (rem == den && d % 2 == 0) then d else d + 1

/-- The decimal of at most `n` digits that reads back as `m · 2 ^ e`, if there is one. -/
def decimalOf? (m : Nat) (e : Int) (n : Nat) : Option Decimal :=
  let k := leadingExponent m e - (n - 1 : Int)
  let r := Ratio.scaled m e k
  let d := r.num / r.den
  match readsBack m e k d, readsBack m e k (d + 1) with
  | true, true => some ⟨nearest d (2 * (r.num % r.den)) r.den, k⟩
  | true, false => some ⟨d, k⟩
  | false, true => some ⟨d + 1, k⟩
  | false, false => none

/-- The shortest decimal that reads back as `m · 2 ^ e`; seventeen digits always do. -/
def shortest (m : Nat) (e : Int) : Decimal :=
  ((List.range 17).findSome? fun i => decimalOf? m e (i + 1)).getD ⟨m, 0⟩

/-- Writes a decimal as a real number: a point is always present in positional notation, and an
exponent has a sign and at least two digits. -/
def Decimal.text (d : Decimal) : String :=
  let ds := Nat.toDigits 10 d.digits
  -- the exponent of the leading digit
  let p := d.exponent + (ds.length - 1 : Int)
  if -4 ≤ p ∧ p < 16 then
    if p < 0 then
      "0." ++ String.ofList (List.replicate (-p - 1).toNat '0' ++ ds)
    else if 0 ≤ d.exponent then
      String.ofList (ds ++ List.replicate d.exponent.toNat '0') ++ ".0"
    else
      String.ofList (ds.take (p + 1).toNat) ++ "." ++ String.ofList (ds.drop (p + 1).toNat)
  else
    let es := Nat.toDigits 10 p.natAbs
    let tail := if ds.length == 1 then [] else '.' :: ds.drop 1
    String.ofList (ds.take 1 ++ tail) ++ (if p < 0 then "e-" else "e+") ++
      String.ofList (List.replicate (2 - es.length) '0' ++ es)

/-- Drops the zeros at the end of the digits. -/
def Decimal.normalize (d : Decimal) : Nat → Decimal
  | 0 => d
  | n + 1 =>
    if d.digits % 10 == 0 && d.digits != 0 then
      Decimal.normalize ⟨d.digits / 10, d.exponent + 1⟩ n
    else d

/-- The shortest text of a double. -/
def text (x : Float) : String :=
  match x.toModel.unpack with
  | .notANumber => "nan"
  | .infinity .positive => "inf"
  | .infinity .negative => "-inf"
  | .zero .positive => "0.0"
  | .zero .negative => "-0.0"
  | .finite s m e _ =>
    let t := ((shortest m e).normalize 20).text
    match s with
    | .positive => t
    | .negative => "-" ++ t

end PixelTurtle.Number
