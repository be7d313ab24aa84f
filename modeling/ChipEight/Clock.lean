import ChipEight.Amount

/-!
# Clocks

A clock turns spans of elapsed time into whole ticks and keeps what is left of a span for the next
one. The arithmetic is a parameter: `ClockNumber τ` says how clocks reckon in `τ`, and
`HostAmount σ τ` how an amount given as `σ` becomes a number of that arithmetic. Floats reckon as
a processor does and refuse what has no answer; rational numbers (`ChipEight.Clock.Exact`) reckon
without rounding.
-/

namespace ChipEight

/-- Numbers that clocks reckon with. -/
class ClockNumber (τ : Type) where
  zero : τ
  /-- The length of one tick at a frequency. -/
  interval : τ → τ
  add : τ → τ → τ
  /-- How many whole intervals a span holds. -/
  ticksIn : τ → τ → Except NumberFault Int
  /-- What is left of a span after a number of intervals. -/
  spend : τ → Int → τ → τ

/-- Amounts that hosts hand in, and what clocks make of them. -/
class HostAmount (σ : Type) (τ : outParam Type) where
  /-- A frequency, which has to be positive. -/
  frequency : σ → Except NumberFault τ
  /-- A span of time, which must not be negative. -/
  span : σ → Except NumberFault τ
  /-- How many frames a duration holds at a frame rate, rounded. -/
  frameCount : σ → σ → Except NumberFault Int
  /-- The duration of one frame at a frame rate. -/
  frameSpan : σ → Except NumberFault σ

/-- A clock, with the time that has not made up a tick yet. -/
structure Clock (τ : Type) where
  frequency : τ
  interval : τ
  remainder : τ
deriving DecidableEq

namespace Clock

variable {σ τ : Type} [ClockNumber τ]

/-- A clock at a frequency, with no time elapsed. -/
def ofFrequency [HostAmount σ τ] (hz : σ) : Except NumberFault (Clock τ) := do
  let frequency ← HostAmount.frequency hz
  return ⟨frequency, ClockNumber.interval frequency, ClockNumber.zero⟩

/-- Adds a span of time and takes the ticks that are due. -/
def advance [HostAmount σ τ] (c : Clock τ) (delta : σ) : Except NumberFault (Clock τ × Int) := do
  let span ← HostAmount.span delta
  let elapsed := ClockNumber.add c.remainder span
  let ticks ← ClockNumber.ticksIn elapsed c.interval
  return ({ c with remainder := ClockNumber.spend elapsed ticks c.interval }, ticks)

/-- Forgets the time that has not made up a tick. -/
def reset (c : Clock τ) : Clock τ := { c with remainder := ClockNumber.zero }

/-- A clock in one line. -/
def describe (c : Clock Float) : String :=
  "Clock(frequency=" ++ Decimal.general c.frequency ++ ", remainder=" ++
    Decimal.fixed 6 c.remainder ++ ")"

end Clock

/-! ## Binary floating point -/

/-- Reckoning as a processor does: sums and products are rounded, and there is no number of empty
intervals and no whole number beyond all bounds. -/
instance : ClockNumber Float where
  zero := 0.0
  interval hz := 1.0 / hz
  add := Float.add
  ticksIn elapsed interval :=
    if interval == 0.0 then .error .emptyInterval
    else Binary64.truncated (Binary64.floorQuotient elapsed interval)
  spend elapsed ticks interval :=
    elapsed - ((Binary64.ofInt? ticks).getD 0.0) * interval

instance : HostAmount Amount Float where
  frequency hz :=
    if hz.isNonpositive then .error (.frequencyNotPositive hz.text) else hz.toFloat
  span delta := if delta.isNegative then .error (.elapsedNegative delta.text) else delta.toFloat
  frameCount seconds rate := do (← seconds.mul rate).round
  frameSpan rate := do return .real (1.0 / (← rate.toFloat))

/-! ## Two clocks -/

/-- The clock of the instructions and the clock of the delay and sound timers. -/
structure Timers (τ : Type) where
  instructions : Clock τ
  countdown : Clock τ
deriving DecidableEq

namespace Timers

variable {σ τ : Type} [ClockNumber τ] [HostAmount σ τ]

/-- Builds both clocks, the one of the instructions first; either may refuse its frequency. -/
def ofFrequencies (instructionHz timerHz : σ) : Except NumberFault (Timers τ) := do
  return ⟨← Clock.ofFrequency instructionHz, ← Clock.ofFrequency timerHz⟩

/-- Advances the instruction clock and then the timer clock. When the second refuses the span, the
first has advanced all the same. -/
def advance (t : Timers τ) (delta : σ) : Timers τ × Except NumberFault (Int × Int) :=
  match t.instructions.advance delta with
  | .error fault => (t, .error fault)
  | .ok (instructions, due) =>
    match t.countdown.advance delta with
    | .error fault => ({ t with instructions }, .error fault)
    | .ok (countdown, decrements) => (⟨instructions, countdown⟩, .ok (due, decrements))

/-- Both clocks forget the time that has not made up a tick. -/
def reset (t : Timers τ) : Timers τ := ⟨t.instructions.reset, t.countdown.reset⟩

end Timers

end ChipEight
