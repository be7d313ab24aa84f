import Mathlib.Algebra.Order.BigOperators.Group.List
import ChipEight.Proofs.ExactClock
import ChipEight.Proofs.Reset

/-!
# What a clock counts over many spans

A clock that reckons in rational numbers gives back, over any spans in a row, as many ticks as there
are whole intervals in their sum, and what it has left is the rest of that sum. How the time was cut
into spans is forgotten, and so is everything before a reset.

* `Clock.Exact.advanceAll_eq`: spans in a row are one span as long as all of them.
* `Clock.ticks_account_for_time`: ticks and remainder of a clock, told from the sum of the spans
  since its start.
-/

namespace ChipEight

/-- One thing that a host does with a clock. -/
inductive ClockCall (σ : Type) where
  | advance (delta : σ)
  | reset

namespace Clock

section Calls

variable {σ τ : Type} [ClockNumber τ] [HostAmount σ τ]

/-- The clock after a call. A span that is refused leaves it as it was. -/
def afterCall (c : Clock τ) : ClockCall σ → Clock τ
  | .advance delta =>
    match c.advance delta with
    | .ok (c', _) => c'
    | .error _ => c
  | .reset => c.reset

/-- The clock after all calls, those that it refuses included. -/
def afterCalls (c : Clock τ) (calls : List (ClockCall σ)) : Clock τ := calls.foldl afterCall c

/-- Hands in spans one after the other, up to the first that is refused. The answer is the clock
after them and the ticks that came due with each. -/
def advanceAll (c : Clock τ) : List σ → Except NumberFault (Clock τ × List Int)
  | [] => .ok (c, [])
  | delta :: rest => do
    let (c, due) ← c.advance delta
    let (c, later) ← c.advanceAll rest
    return (c, due :: later)

theorem advanceAll_cons_of_ok {c c' : Clock τ} {delta : σ} {due : Int}
    (hadvance : c.advance delta = .ok (c', due)) (rest : List σ) :
    c.advanceAll (delta :: rest) =
      (c'.advanceAll rest).map fun (last, ticks) => (last, due :: ticks) := by
  rw [advanceAll, hadvance]
  change (c'.advanceAll rest >>= _) = _
  cases c'.advanceAll rest with
  | error fault => rfl
  | ok answer => rfl

/-! ## Starting over -/

/-- No call changes the frequency or the interval, and what else a clock has goes with a reset. -/
theorem reset_afterCall (c : Clock τ) (call : ClockCall σ) :
    (c.afterCall call).reset = c.reset := by
  cases call with
  | reset => rfl
  | advance delta =>
    cases hadvance : c.advance delta with
    | error fault => simp only [afterCall, hadvance]
    | ok answer =>
      simp only [afterCall, hadvance]
      exact reset_of_advance hadvance

/-- A clock that is reset does not show what it has been called for. -/
theorem reset_afterCalls (c : Clock τ) (calls : List (ClockCall σ)) :
    (c.afterCalls calls).reset = c.reset := by
  induction calls generalizing c with
  | nil => rfl
  | cons call rest ih => exact (ih (c.afterCall call)).trans (c.reset_afterCall call)

end Calls

/-! ## Many spans -/

namespace Exact

variable {c : Clock Rat}

theorem later_zero (hc : c.Exact) : c.later 0 = c := by
  unfold Clock.later
  rw [hc.dueIn_zero]
  simp

/-- Two spans in a row leave what their sum leaves. -/
theorem later_add (hc : c.Exact) (first second : Rat) :
    (c.later first).later second = c.later (first + second) := by
  unfold Clock.later
  rw [hc.dueIn_add first second]
  congr 1
  change c.remainder + first - c.dueIn first * c.interval + second -
    ((c.later first).dueIn second : Int) * c.interval = _
  push_cast
  ring

/-- Spans in a row are all taken, each is worth some ticks or none, and together they do to the
clock, and are worth, what one span as long as all of them does and is worth. -/
theorem advanceAll_eq (hc : c.Exact) {deltas : List Rat} (hdeltas : ∀ delta ∈ deltas, 0 ≤ delta) :
    ∃ ticks, c.advanceAll deltas = .ok (c.later deltas.sum, ticks) ∧
      ticks.length = deltas.length ∧ (∀ count ∈ ticks, 0 ≤ count) ∧
      ticks.sum = c.dueIn deltas.sum := by
  induction deltas generalizing c with
  | nil =>
    refine ⟨[], ?_, rfl, by simp, ?_⟩
    · rw [List.sum_nil, hc.later_zero, advanceAll]
    · rw [List.sum_nil, List.sum_nil, hc.dueIn_zero]
  | cons delta rest ih =>
    obtain ⟨hdelta, hrest⟩ := List.forall_mem_cons.mp hdeltas
    obtain ⟨ticks, hticks, hlength, hnonneg, hsum⟩ := ih (hc.later delta) hrest
    refine ⟨c.dueIn delta :: ticks, ?_, ?_, ?_, ?_⟩
    · rw [advanceAll_cons_of_ok (hc.advance_eq hdelta), hticks, hc.later_add, List.sum_cons]
      rfl
    · rw [List.length_cons, List.length_cons, hlength]
    · exact List.forall_mem_cons.mpr ⟨hc.dueIn_nonneg hdelta, hnonneg⟩
    · rw [List.sum_cons, List.sum_cons, hc.dueIn_add, hsum]

end Exact

/-! ## From the start -/

/-- The books of a clock are in order: `ticks` are what it has given back since `elapsed` began, and
with what it has left they make up that time. -/
structure Accounts (hz elapsed : Rat) (c : Clock Rat) (ticks : List Int) : Prop where
  ticks_nonneg : ∀ count ∈ ticks, 0 ≤ count
  interval_eq : c.interval = 1 / hz
  remainder_nonneg : 0 ≤ c.remainder
  remainder_lt : c.remainder < c.interval
  total : ticks.sum = ⌊hz * elapsed⌋
  left : c.remainder = elapsed - ticks.sum * c.interval

/-- Every frequency above zero is accepted. -/
theorem ofFrequency_of_pos {hz : Rat} (hpositive : 0 < hz) :
    ofFrequency hz = .ok (⟨hz, 1 / hz, 0⟩ : Clock Rat) := by
  have hfrequency : HostAmount.frequency hz = (.ok hz : Except NumberFault Rat) :=
    if_neg hpositive.not_ge
  unfold ofFrequency
  rw [hfrequency]
  rfl

/-- Without a remainder the ticks due are the whole intervals in the span itself. -/
theorem dueIn_start (hz span : Rat) : (⟨hz, 1 / hz, 0⟩ : Clock Rat).dueIn span = ⌊hz * span⌋ := by
  unfold dueIn
  rw [zero_add, div_div_eq_mul_div, div_one, mul_comm]

/-- A clock can be built at every frequency above zero. From its start, or from a reset that comes
after any calls whatever, it takes every sequence of spans that are not negative; and as the
beginnings of a sequence are sequences too, its books are in order after each of the spans. So two
sequences with the same sum are worth the same number of ticks and leave the same clock. -/
theorem ticks_account_for_time {hz : Rat} (hpositive : 0 < hz) :
    ∃ c₀ : Clock Rat, ofFrequency hz = .ok c₀ ∧
      ∀ c : Clock Rat, (c = c₀ ∨ ∃ calls : List (ClockCall Rat), c = (c₀.afterCalls calls).reset) →
        (∀ deltas : List Rat, (∀ delta ∈ deltas, 0 ≤ delta) →
          ∃ c' ticks, c.advanceAll deltas = .ok (c', ticks) ∧ ticks.length = deltas.length ∧
            Accounts hz deltas.sum c' ticks) ∧
        ∀ deltas deltas' : List Rat, (∀ delta ∈ deltas, 0 ≤ delta) →
          (∀ delta ∈ deltas', 0 ≤ delta) → deltas.sum = deltas'.sum →
          ∃ c' ticks ticks', c.advanceAll deltas = .ok (c', ticks) ∧
            c.advanceAll deltas' = .ok (c', ticks') ∧ ticks.sum = ticks'.sum := by
  have hstart := ofFrequency_of_pos hpositive
  have hexact := exact_of_ofFrequency hstart
  refine ⟨_, hstart, ?_⟩
  intro c hc
  have hfresh : c = ⟨hz, 1 / hz, 0⟩ := by
    rcases hc with hc | ⟨calls, hc⟩
    · exact hc
    · rw [hc, reset_afterCalls]
      rfl
  subst hfresh
  constructor
  · intro deltas hdeltas
    obtain ⟨ticks, hticks, hlength, hnonneg, hsum⟩ := hexact.advanceAll_eq hdeltas
    have hlater := hexact.later deltas.sum
    refine ⟨_, ticks, hticks, hlength, ?_⟩
    exact {
      ticks_nonneg := hnonneg
      interval_eq := rfl
      remainder_nonneg := hlater.remainder_nonneg
      remainder_lt := hlater.remainder_lt
      total := hsum.trans (dueIn_start hz _)
      left := by rw [hsum, later, zero_add] }
  · intro deltas deltas' hdeltas hdeltas' hsums
    obtain ⟨ticks, hticks, -, -, hsum⟩ := hexact.advanceAll_eq hdeltas
    obtain ⟨ticks', hticks', -, -, hsum'⟩ := hexact.advanceAll_eq hdeltas'
    rw [← hsums] at hticks' hsum'
    exact ⟨_, ticks, ticks', hticks, hticks', hsum.trans hsum'.symm⟩

/-- Ticks of three thousandths of a second, on a clock that has run, has refused a span and has been
reset: seven thousandths are worth two ticks, five more are worth two again, and nothing is left. -/
theorem ticks_account_for_time_of_threes : ∃ c₀ c c' : Clock Rat,
    ofFrequency (1000 / 3 : Rat) = .ok c₀ ∧
    c = (c₀.afterCalls [.advance (1 / 50 : Rat), .advance (-1)]).reset ∧
    c.advanceAll [(7 / 1000 : Rat), 5 / 1000] = .ok (c', [2, 2]) ∧
    Accounts (1000 / 3) (12 / 1000) c' [2, 2] := by
  obtain ⟨c₀, hstart, hclock⟩ := ticks_account_for_time (by norm_num : (0 : Rat) < 1000 / 3)
  obtain ⟨haccounts, -⟩ :=
    hclock _ (Or.inr ⟨[.advance (1 / 50 : Rat), .advance (-1)], rfl⟩)
  obtain ⟨c', ticks, hticks, -, hbooks⟩ := haccounts [7 / 1000, 5 / 1000] (by norm_num)
  have hcounts : (ofFrequency (1000 / 3 : Rat) >>= fun c : Clock Rat =>
      ((c.afterCalls [.advance (1 / 50 : Rat), .advance (-1)]).reset.advanceAll
        [(7 / 1000 : Rat), 5 / 1000]).map Prod.snd) = .ok [2, 2] := by
    decide +kernel
  rw [hstart] at hcounts
  change Except.map Prod.snd _ = _ at hcounts
  rw [hticks] at hcounts
  cases hcounts
  refine ⟨c₀, _, c', hstart, rfl, hticks, ?_⟩
  have hsum : ([7 / 1000, 5 / 1000] : List Rat).sum = 12 / 1000 := by norm_num
  rwa [hsum] at hbooks

end Clock

end ChipEight
