import ChipEight.Clock

/-!
# Clocks without rounding

Clocks that reckon in rational numbers: the interval is exactly the reciprocal of the frequency,
and the ticks in a span are the quotient rounded down.
-/

namespace ChipEight.ExactTime

/-- The integer nearest to a rational number, a tie going to the even one. -/
def roundEven (q : Rat) : Int :=
  let below := q.floor
  let rest := q - below
  if rest < 1 / 2 then below else if 1 / 2 < rest then below + 1 else below + below % 2

instance : ClockNumber Rat where
  zero := 0
  interval hz := 1 / hz
  add := Rat.add
  ticksIn elapsed interval :=
    if interval = 0 then .error .emptyInterval else .ok (elapsed / interval).floor
  spend elapsed ticks interval := elapsed - ticks * interval

instance : HostAmount Rat Rat where
  frequency hz := if hz ≤ 0 then .error (.frequencyNotPositive (toString hz)) else .ok hz
  span delta := if delta < 0 then .error (.elapsedNegative (toString delta)) else .ok delta
  frameCount seconds rate := .ok (roundEven (seconds * rate))
  frameSpan rate := if rate = 0 then .error .emptyInterval else .ok (1 / rate)

end ChipEight.ExactTime
