import ChipEight.Amount
import ChipEight.Word

/-!
# The beeper

One period of a square wave, which a mixer repeats for the duration of a tone. `Beeper.wave` is the
period as signed sixteen-bit samples, and `Beeper.play?` is what the mixer is asked to do for a
tone: nothing for a tone without duration.
-/

namespace ChipEight.Beeper

/-- Samples in a second. -/
def sampleRate : Nat := 44100

/-- The pitch of the tone, in periods a second. -/
def frequency : Nat := 440

/-- The samples of one period. -/
def period : Nat := sampleRate / frequency

/-- The signed sixteen-bit number with the same low bits. -/
def wrap16 (n : Int) : Int := Int.bmod n 65536

/-- The largest sample at a volume. -/
def amplitude (volume : Amount) : Except NumberFault Int := do
  ((← (Amount.whole 32767).mul volume)).truncate

/-- One period: the first half high, the second half low. -/
def wave (volume : Amount) : Except NumberFault (List Int) := do
  let a ← amplitude volume
  return (List.range period).map fun i => wrap16 (if i < period / 2 then a else -a)

/-- The volume where none is asked for. -/
def defaultVolume : Amount := .real 0.2

/-- A request to a mixer: how often the period is repeated, `-1` standing for no bound, and for how
many milliseconds at most. -/
structure Play where
  loops : Int
  milliseconds : Int
deriving DecidableEq, Repr

/-- The request for a tone of a number of seconds. -/
def play? (seconds : Amount) : Except NumberFault (Option Play) :=
  if seconds.isPositive then do
    return some ⟨-1, ← (← seconds.mul (.whole 1000)).truncate⟩
  else .ok none

/-- The duration of a tone of a number of sixtieths of a second. -/
def toneSeconds (ticks : Byte) : Float := Float.ofNat ticks.toNat / 60.0

end ChipEight.Beeper
