/-!
# Exact arithmetic on doubles

A finite double is a dyadic number `± m · 2 ^ e`, and the whole-number operations of the turtle are
defined on that form. Nothing here rounds, except where a result is packed into a double again, and
there the result is representable.

* `floor` and `truncate` give the integer below a double and the one towards zero.
* `roundHalfUp` gives the cell a coordinate falls into: halves go up.
* `remainder` has the sign of the dividend, `modulo` that of the divisor.
* `quotient` is the whole quotient of a division that rounds down.
* `ofInt?` is the nearest double of an integer and `half?` that of its half, if there is one.
-/

namespace PixelTurtle.Number

open Float.Model (UnpackedFloat)

/-- Why a double has no integer part. -/
inductive NoInteger
  | nan
  | infinite
  deriving DecidableEq, Repr

/-- The wording of a failed conversion to an integer. -/
def NoInteger.message : NoInteger → String
  | .nan => "cannot convert float NaN to integer"
  | .infinite => "cannot convert float infinity to integer"

/-! ## Integers from doubles -/

/-- The floor of `m · 2 ^ e`. -/
def dyadicFloor (m e : Int) : Int :=
  if 0 ≤ e then m <<< e.toNat else m >>> (-e).toNat

/-- The greatest integer that is at most `x`. -/
def floor (x : Float) : Except NoInteger Int :=
  match x.toModel.unpack with
  | .notANumber => .error .nan
  | .infinity _ => .error .infinite
  | .zero _ => .ok 0
  | .finite s m e _ => .ok (dyadicFloor (s.apply m) e)

/-- The integer part of `x`: the fraction is dropped. -/
def truncate (x : Float) : Except NoInteger Int :=
  match x.toModel.unpack with
  | .notANumber => .error .nan
  | .infinity _ => .error .infinite
  | .zero _ => .ok 0
  | .finite s m e _ => .ok (s.apply (dyadicFloor m e))

/-- The nearest integer to `x`; a half goes up, so 2.5 gives 3 and -2.5 gives -2. -/
def roundHalfUp (x : Float) : Except NoInteger Int :=
  floor (x + 0.5)

/-! ## Remainders -/

/-- The double `± m · 2 ^ e`, where the sign also tells the zeros apart. -/
def ofDyadic (s : UnpackedFloat.Sign) (m : Nat) (e : Int) : Float :=
  .ofModel <| .pack <|
    if m = 0 then .zero s else UnpackedFloat.round .binary64 s m e

/-- The not-a-number double. -/
def nan : Float :=
  .ofModel (.pack .notANumber)

/-- The remainder of a division whose quotient is cut off: it has the sign of `a` and is smaller
than `b`. It is not a number when `a` is infinite or `b` is zero. -/
def remainder (a b : Float) : Float :=
  match a.toModel.unpack, b.toModel.unpack with
  | .notANumber, _ => nan
  | _, .notANumber => nan
  | .infinity _, _ => nan
  | _, .zero _ => nan
  | .zero _, _ => a
  | _, .infinity _ => a
  | .finite s m e _, .finite _ n f _ =>
    let k := min e f
    ofDyadic s ((m <<< (e - k).toNat) % (n <<< (f - k).toNat)) k

/-- The remainder of a division that rounds down: it has the sign of `b`. -/
def modulo (a b : Float) : Float :=
  let r := remainder a b
  if r == 0 then (if b < 0 then -0.0 else 0.0)
  else if (b < 0 : Bool) != (r < 0 : Bool) then r + b
  else r

/-- Whether a double has a minus sign; the zeros are told apart. -/
def hasMinus (x : Float) : Bool :=
  1 <<< 63 ≤ x.toBits.toNat

/-- The greatest whole double that is at most `x`; a double that has no integer part stays. -/
def wholeBelow (x : Float) : Float :=
  match floor x with
  | .ok n => .ofInt n
  | .error _ => x

/-- The quotient of a division that rounds down, computed from the remainder and rounded to the
nearest whole number. A zero quotient has the sign of `a / b`. -/
def quotient (a b : Float) : Float :=
  let r := remainder a b
  let q := (a - r) / b
  let q := if r != 0 && (b < 0 : Bool) != (r < 0 : Bool) then q - 1 else q
  if q == 0 then (if hasMinus (a / b) then -0.0 else 0.0)
  else
    let whole := wholeBelow q
    if q - whole > 0.5 then whole + 1 else whole

/-! ## Doubles from integers -/

/-- The double nearest to `n`, unless `n` is beyond the largest double. -/
def ofInt? (n : Int) : Option Float :=
  let x := Float.ofInt n
  if x.isFinite then some x else none

/-- The double nearest to half of `n`, unless it is beyond the largest double. -/
def half? (n : Int) : Option Float :=
  let x := ofDyadic (if n < 0 then .negative else .positive) n.natAbs (-1)
  if x.isFinite then some x else none

end PixelTurtle.Number
