import ChipEight.Decimal
import ChipEight.Fault

/-!
# Amounts

A host hands times, rates and volumes over as it has them: as a whole number of any size or as a
float. `Amount.text` shows an amount as it was given, `Amount.ofText?` reads one, and
`Amount.toFloat` is the float that computations go on with. What cannot be used is refused with a
`NumberFault`.
-/

namespace ChipEight

/-- A number as a host hands it in: a whole number of any size, or a float. -/
inductive Amount where
  | whole (n : Int)
  | real (x : Float)

namespace Binary64

/-- The reason why a float has no integer near it, as a fault. -/
def NoInteger.fault : NoInteger → NumberFault
  | notANumber => .notANumber
  | endless => .endless

/-- The integer that is left when the fraction of a float is dropped. -/
def truncated (x : Float) : Except NumberFault Int :=
  (ofFloat x).truncate.mapError NoInteger.fault

/-- The integer nearest to a float, a tie going to the even one. -/
def rounded (x : Float) : Except NumberFault Int := (ofFloat x).round.mapError NoInteger.fault

end Binary64

namespace Amount

/-- An amount as it was given. -/
def text : Amount → String
  | whole n => toString n
  | real x => Decimal.shortest x

/-- The float that an amount stands for; a whole number is rounded, and may lie beyond every
float. -/
def toFloat : Amount → Except NumberFault Float
  | whole n =>
    match Binary64.ofInt? n with
    | some x => .ok x
    | none => .error .tooLarge
  | real x => .ok x

/-- Below zero; what is no number is not. -/
def isNegative : Amount → Bool
  | whole n => n < 0
  | real x => x < 0.0

/-- Above zero; what is no number is not. -/
def isPositive : Amount → Bool
  | whole n => 0 < n
  | real x => 0.0 < x

/-- At or below zero; what is no number is not. -/
def isNonpositive : Amount → Bool
  | whole n => n ≤ 0
  | real x => x ≤ 0.0

/-- Two whole numbers have a whole product; any other product is a float. -/
def mul : Amount → Amount → Except NumberFault Amount
  | whole m, whole n => .ok (whole (m * n))
  | a, b => do return real ((← a.toFloat) * (← b.toFloat))

/-- The whole number nearest to an amount, a tie going to the even one. -/
def round : Amount → Except NumberFault Int
  | whole n => .ok n
  | real x => Binary64.rounded x

/-- The whole number left when the fraction of an amount is dropped. -/
def truncate : Amount → Except NumberFault Int
  | whole n => .ok n
  | real x => Binary64.truncated x

/-! ## Reading -/

/-- The number that a text of decimal digits writes. -/
def natOfDigits (digits : List Char) : Nat :=
  digits.foldl (fun total c => 10 * total + (c.toNat - 48)) 0

/-- The exponent behind the mark of an exponent: an optional sign and digits. -/
def exponent? : List Char → Option Int
  | '-' :: digits =>
    if digits.all Char.isDigit then some (-Int.ofNat (natOfDigits digits)) else none
  | '+' :: digits => if digits.all Char.isDigit then some (natOfDigits digits) else none
  | digits => if digits.all Char.isDigit then some (natOfDigits digits) else none

/-- An unsigned number: digits alone are a whole number; a point or an exponent makes a float, the
one nearest to the decimal. -/
def unsigned? (negative : Bool) (cs : List Char) : Option Amount :=
  let whole := cs.takeWhile Char.isDigit
  match cs.dropWhile Char.isDigit with
  | [] => some (.whole (Binary64.applySign negative (natOfDigits whole)))
  | rest =>
    let places :=
      match rest with
      | '.' :: digits => digits.takeWhile Char.isDigit
      | _ => []
    let behind :=
      match rest with
      | '.' :: digits => digits.dropWhile Char.isDigit
      | _ => rest
    let exponent :=
      match behind with
      | [] => some 0
      | mark :: digits => if mark = 'e' ∨ mark = 'E' then exponent? digits else none
    exponent.map fun e =>
      let scale := e - Int.ofNat places.length
      .real (Binary64.nearest negative (natOfDigits (whole ++ places) * Nat.pow 10 scale.toNat)
        (Nat.pow 10 (-scale).toNat))

/-- Reads an amount: a decimal number, or one of the words for what is not finite. -/
def ofText? (s : String) : Option Amount :=
  match s with
  | "nan" => some (.real (0.0 / 0.0))
  | "inf" => some (.real (1.0 / 0.0))
  | "-inf" => some (.real (-(1.0 / 0.0)))
  | _ =>
    match s.toList with
    | [] => none
    | '-' :: cs => unsigned? true cs
    | cs => unsigned? false cs

end Amount

end ChipEight
