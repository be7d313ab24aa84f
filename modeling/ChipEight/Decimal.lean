import ChipEight.Binary64

/-!
# Decimal text of floats

Three ways to write a float: `Decimal.fixed` with a given number of places, `Decimal.general` with
at most a given number of digits, and `Decimal.shortest` with the fewest digits that read back as
the same float. All three round the exact value to the nearest decimal, a tie going to the even
digit. The last two share the layout of `Decimal.Layout`: positional inside a range of exponents,
and otherwise one digit, the rest after a point, and an exponent of at least two digits.
-/

namespace ChipEight.Decimal

open Binary64

/-! ## Digits -/

/-- The decimal digits of a number, the highest first. -/
def natDigits (n : Nat) : List Char := Nat.toDigits 10 n

/-- The digits of a number in at least `width` places. -/
def zeroPadded (width n : Nat) : List Char :=
  let digits := natDigits n
  List.replicate (width - digits.length) '0' ++ digits

/-- The exponent of the first digit of `num / den`, which is not zero. -/
def leadingExponent (num den : Nat) : Int :=
  if den ≤ num then Int.ofNat (natDigits (num / den)).length - 1
  else -Int.ofNat (natDigits ((den - 1) / num)).length

/-- Numerator and denominator of `num / den` in units of the decimal place `place`. -/
def inPlaces (num den : Nat) (place : Int) : Nat × Nat :=
  (num * Nat.pow 10 (-place).toNat, den * Nat.pow 10 place.toNat)

/-- The sign of a number that is below zero, and nothing for the others. -/
def signText (negative : Bool) : String := if negative then "-" else ""

/-- The text of what is no finite number. -/
def specialText : Binary64 → String
  | .infinite negative => signText negative ++ "inf"
  | _ => "nan"

/-! ## Fixed places -/

/-- A float with `places` digits behind the point. -/
def fixed (places : Nat) (x : Float) : String :=
  match ofFloat x with
  | .finite negative significand exponent =>
    let f := fraction significand exponent
    let scaled := roundDiv (f.1 * Nat.pow 10 places) f.2
    signText negative ++ String.ofList (natDigits (scaled / Nat.pow 10 places) ++
      '.' :: zeroPadded places (scaled % Nat.pow 10 places))
  | other => specialText other

/-- A text in at least `width` places, blanks coming first. -/
def padLeft (width : Nat) (text : String) : String :=
  String.ofList (List.replicate (width - text.length) ' ') ++ text

/-! ## Digits and an exponent -/

/-- A way of writing digits and an exponent. -/
structure Layout where
  /-- The smallest exponent written positionally. -/
  lowest : Int
  /-- The first exponent that is no longer written positionally. -/
  bound : Int
  /-- Whether an integer keeps a point and a zero behind it. -/
  keepsPoint : Bool

/-- A number with these digits, the point standing `exponent` digits behind the first. -/
def Layout.text (layout : Layout) (digits : List Char) (exponent : Int) : String :=
  if layout.lowest ≤ exponent ∧ exponent < layout.bound then
    if exponent < 0 then
      "0." ++ String.ofList (List.replicate (-exponent - 1).toNat '0' ++ digits)
    else
      let before := exponent.toNat + 1
      let whole := digits.take before ++ List.replicate (before - digits.length) '0'
      let rest := digits.drop before
      String.ofList whole ++
        if rest = [] then (if layout.keepsPoint then ".0" else "") else "." ++ String.ofList rest
  else
    let rest := digits.drop 1
    String.ofList (digits.take 1) ++ (if rest = [] then "" else "." ++ String.ofList rest) ++
      (if exponent < 0 then "e-" else "e+") ++ String.ofList (zeroPadded 2 exponent.natAbs)

/-- Digits without the zeros at their end, one digit at least. -/
def trim (digits : List Char) : List Char :=
  match (digits.reverse.dropWhile (· = '0')).reverse with
  | [] => ['0']
  | kept => kept

/-- The digits of a decimal `significand`, and the exponent of the first when that of the last
is `place`. -/
def scientific (significand : Nat) (place : Int) : List Char × Int :=
  let digits := natDigits significand
  (trim digits, place + Int.ofNat digits.length - 1)

/-- Integers stay without a point, and six digits are the bound between the two forms. -/
def generalLayout : Layout := ⟨-4, 6, false⟩

/-- A float with at most six digits. -/
def general (x : Float) : String :=
  match ofFloat x with
  | .finite negative significand exponent =>
    signText negative ++
      if significand = 0 then generalLayout.text ['0'] 0
      else
        let f := fraction significand exponent
        let place := leadingExponent f.1 f.2 - 5
        let scaled := inPlaces f.1 f.2 place
        let digits := scientific (roundDiv scaled.1 scaled.2) place
        generalLayout.text digits.1 digits.2
  | other => specialText other

/-! ## The fewest digits -/

/-- Integers keep a point, and sixteen digits are the bound between the two forms. -/
def shortestLayout : Layout := ⟨-4, 16, true⟩

/-- The float nearest to `significand` in units of the decimal place `place`. -/
def read (significand : Nat) (place : Int) : Float :=
  nearest false (significand * Nat.pow 10 place.toNat) (Nat.pow 10 (-place).toNat)

/-- The neighbours of `num / den` among the multiples of a decimal place, the nearer first and of
two equally near the even one. -/
def neighbours (num den : Nat) (place : Int) : List Nat :=
  let scaled := inPlaces num den place
  let below := scaled.1 / scaled.2
  let near := roundDiv scaled.1 scaled.2
  [near, if near = below then below + 1 else below]

/-- The first decimal with at most `count` digits, then one more and so on, that reads back as the
float with these bits. -/
def search (bits : UInt64) (num den : Nat) (leading : Int) : Nat → Nat × Int
  | 0 => let place := leading - 16; ((neighbours num den place).headD 0, place)
  | more + 1 =>
    let place := leading - 16 + Int.ofNat (more + 1)
    match (neighbours num den place).find? fun d => (read d place).toBits == bits with
    | some d => (d, place)
    | none => search bits num den leading more

/-- A float with the fewest digits that read back as it. -/
def shortest (x : Float) : String :=
  match ofFloat x with
  | .finite negative significand exponent =>
    signText negative ++
      if significand = 0 then shortestLayout.text ['0'] 0
      else
        let f := fraction significand exponent
        let best := search (nearest false f.1 f.2).toBits f.1 f.2 (leadingExponent f.1 f.2) 16
        let digits := scientific best.1 best.2
        shortestLayout.text digits.1 digits.2
  | other => specialText other

end ChipEight.Decimal
