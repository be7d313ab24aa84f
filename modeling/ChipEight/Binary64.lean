/-!
# Binary floating point, exactly

A `Float` taken apart into integers, so that what has to be exact is computed on integers.
`Binary64.ofFloat` gives sign, significand and exponent, and `Binary64.nearest` goes back: it is
the float nearest to a quotient of natural numbers, a tie going to the even significand. On top of
these stand the integer nearest to or below a float, the exact remainder of a division, and
`Binary64.floorQuotient`, the number of times one span goes into another. The latter is made of
`Binary64.floor` and arithmetic that unfolds, so it can be computed in proofs too.
-/

namespace ChipEight

/-- The quotient rounded to the nearest integer, a tie going to the even neighbour. -/
def roundDiv (num den : Nat) : Nat :=
  let quotient := num / den
  let rest := num % den
  if 2 * rest < den then quotient
  else if den < 2 * rest then quotient + 1
  else quotient + quotient % 2

/-- A float taken apart: a dyadic number with its sign, an infinity or no number. -/
inductive Binary64 where
  /-- `significand * 2 ^ exponent`, or its opposite. -/
  | finite (negative : Bool) (significand : Nat) (exponent : Int)
  | infinite (negative : Bool)
  | nan
deriving DecidableEq, Repr

namespace Binary64

/-! ## Taking floats apart and putting them together -/

/-- What the bits of a float say. Numbers too small for a leading bit have the lowest exponent. -/
def ofFloat (x : Float) : Binary64 :=
  let bits := x.toBits.toNat
  let negative := bits / Nat.pow 2 63 == 1
  let biased := bits / Nat.pow 2 52 % 2048
  let fraction := bits % Nat.pow 2 52
  if biased = 2047 then if fraction = 0 then infinite negative else nan
  else if biased = 0 then finite negative fraction (-1074)
  else finite negative (fraction + Nat.pow 2 52) (Int.ofNat biased - 1075)

/-- Numerator and denominator of `significand * 2 ^ exponent`. -/
def fraction (significand : Nat) (exponent : Int) : Nat × Nat :=
  (significand * Nat.pow 2 exponent.toNat, Nat.pow 2 (-exponent).toNat)

/-- The exponent of the last place of the float nearest to `num / den`. -/
def unitExponent (num den : Nat) : Int :=
  let low : Int := Int.ofNat num.log2 - Int.ofNat den.log2 - 53
  let scaled := fraction num (-low)
  max (-1074) (if scaled.1 < den * scaled.2 * Nat.pow 2 53 then low else low + 1)

/-- The float nearest to `num / den` or to its opposite, ties going to the even significand. -/
def nearest (negative : Bool) (num den : Nat) : Float :=
  let unit := unitExponent num den
  let scaled := fraction num (-unit)
  let significand := if num = 0 then 0 else roundDiv scaled.1 (den * scaled.2)
  let place := if num = 0 then 0 else (unit + 1074).toNat
  let magnitude := min (place * Nat.pow 2 52 + significand) (2047 * Nat.pow 2 52)
  Float.ofBits (UInt64.ofNat (magnitude + if negative then Nat.pow 2 63 else 0))

/-- The float that has been taken apart, or the one nearest to it. -/
def toFloat : Binary64 → Float
  | finite negative significand exponent =>
    let f := fraction significand exponent
    nearest negative f.1 f.2
  | infinite negative => if negative then -(1.0 / 0.0) else 1.0 / 0.0
  | nan => 0.0 / 0.0

/-- The float nearest to an integer, unless the integer lies beyond every float. -/
def ofInt? (n : Int) : Option Float :=
  let x := nearest (n < 0) n.natAbs 1
  if x.isInf then none else some x

/-! ## Integers from floats -/

def applySign (negative : Bool) (n : Nat) : Int := if negative then -Int.ofNat n else Int.ofNat n

/-- The reasons why a float has no integer near it. -/
inductive NoInteger where
  | notANumber
  | endless
deriving DecidableEq, Repr

/-- The integer that is left of a float when its fraction is dropped. -/
def truncate : Binary64 → Except NoInteger Int
  | finite negative significand exponent =>
    let f := fraction significand exponent
    .ok (applySign negative (f.1 / f.2))
  | infinite _ => .error .endless
  | nan => .error .notANumber

/-- The integer nearest to a float, a tie going to the even one. -/
def round : Binary64 → Except NoInteger Int
  | finite negative significand exponent =>
    let f := fraction significand exponent
    .ok (applySign negative (roundDiv f.1 f.2))
  | infinite _ => .error .endless
  | nan => .error .notANumber

/-! ## Division with remainder -/

/-- The largest integer that is not above a float, as a float. It is exact: where the last place of
a float counts more than one, the float is an integer. -/
def floor (x : Float) : Float :=
  match ofFloat x with
  | finite negative significand exponent =>
    let f := fraction significand exponent
    nearest negative (if negative then (f.1 + f.2 - 1) / f.2 else f.1 / f.2) 1
  | infinite _ | nan => x

/-- What is left of the first float when the second is taken from it as often as possible. The
result is exact and has the sign of the first float. -/
def remainder : Binary64 → Binary64 → Binary64
  | finite negative m e, finite _ n f =>
    if n = 0 then nan
    else
      let unit := min e f
      finite negative (m * Nat.pow 2 (e - unit).toNat % (n * Nat.pow 2 (f - unit).toNat)) unit
  | finite negative m e, infinite _ => finite negative m e
  | _, _ => nan

/-- How often the second float goes into the first, rounded down, as a float. The remainder is
exact; what is left when it is subtracted is divided and lies next to an integer, to which it is
rounded. -/
def floorQuotient (a b : Float) : Float :=
  let rest := (remainder (ofFloat a) (ofFloat b)).toFloat
  let quotient := (a - rest) / b
  let quotient := if rest != 0.0 && ((b < 0.0) != (rest < 0.0)) then quotient - 1.0 else quotient
  if quotient == 0.0 then 0.0
  else
    let below := floor quotient
    if 0.5 < quotient - below then below + 1.0 else below

end Binary64

end ChipEight
