import ChipEight.Proofs.NonFinite
import ChipEight.Proofs.Reset

/-!
# Spans that the clocks refuse

A clock refuses a span before it changes anything. Two clocks in turn do not: when the timer clock
is the only one to refuse, the instruction clock has taken the span already, and the ticks that were
due are gone. What is wrong with the span itself cannot come to that, for every clock finds it.

* `Clock.advance_eq_error_iff`: why a clock refuses a span, in the order in which the reasons are
  found.
* `Clock.refuses_of_not_fit`: a span that is below zero, beyond every float, infinite or no number
  is refused by every clock.
* `Machine.refused_span_unchanged_iff`: what a refused span leaves of two clocks and of a machine,
  and when that is all of it.
* `Machine.refused_span_moves_clock`: a machine whose instruction clock has moved on.
-/

namespace ChipEight

/-! ## Spans -/

namespace Amount

/-- The amount is a span of `x` seconds: a float can hold it, and it is not below zero. -/
def IsSpan (delta : Amount) (x : Float) : Prop := delta.isNegative = false ∧ delta.toFloat = .ok x

/-- The amount is a span that ends. -/
def Fit (delta : Amount) : Prop := ∃ x, delta.IsSpan x ∧ x.isFinite = true

theorem span_eq_ok_iff {delta : Amount} {x : Float} :
    HostAmount.span delta = .ok x ↔ delta.IsSpan x := by
  simp only [HostAmount.span, IsSpan]
  split
  case isTrue hnegative => simp [hnegative]
  case isFalse hsign => simp [hsign]

theorem span_eq_error_iff {delta : Amount} {fault : NumberFault} :
    (HostAmount.span delta : Except NumberFault Float) = .error fault ↔
      (delta.isNegative = true ∧ fault = .elapsedNegative delta.text) ∨
        (delta.isNegative = false ∧ delta.toFloat = .error fault) := by
  simp only [HostAmount.span]
  split
  case isTrue hnegative => simp [hnegative, eq_comm]
  case isFalse hsign => simp [hsign]

end Amount

/-! ## One clock -/

namespace Clock

/-- The reasons why a clock refuses a span, each with the fault that tells it. -/
inductive Refuses (c : Clock Float) (delta : Amount) : NumberFault → Prop
  | negative (hsign : delta.isNegative = true) : Refuses c delta (.elapsedNegative delta.text)
  | beyondFloats {fault : NumberFault} (hsign : delta.isNegative = false)
    (hfloat : delta.toFloat = .error fault) : Refuses c delta fault
  | emptyInterval {x : Float} (hspan : delta.IsSpan x) (hinterval : (c.interval == 0.0) = true) :
    Refuses c delta .emptyInterval
  | notANumber {x : Float} (hspan : delta.IsSpan x) (hinterval : (c.interval == 0.0) = false)
    (hcount : (Binary64.floorQuotient (c.remainder + x) c.interval).isNaN = true) :
    Refuses c delta .notANumber
  | endless {x : Float} (hspan : delta.IsSpan x) (hinterval : (c.interval == 0.0) = false)
    (hcount : (Binary64.floorQuotient (c.remainder + x) c.interval).isInf = true) :
    Refuses c delta .endless

theorem ticksIn_eq_error_iff {elapsed interval : Float} {fault : NumberFault} :
    ClockNumber.ticksIn elapsed interval = .error fault ↔
      ((interval == 0.0) = true ∧ fault = .emptyInterval) ∨
        ((interval == 0.0) = false ∧
          Binary64.truncated (Binary64.floorQuotient elapsed interval) = .error fault) := by
  simp only [ClockNumber.ticksIn]
  split
  case isTrue hempty => simp [hempty, eq_comm]
  case isFalse hinterval => simp [hinterval]

theorem advance_eq_error_iff {c : Clock Float} {delta : Amount} {fault : NumberFault} :
    c.advance delta = .error fault ↔ c.Refuses delta fault := by
  have hadvance : c.advance delta = .error fault ↔
      (HostAmount.span delta : Except NumberFault Float) = .error fault ∨
        ∃ x, (HostAmount.span delta : Except NumberFault Float) = .ok x ∧
          ClockNumber.ticksIn (c.remainder + x) c.interval = .error fault := by
    unfold advance
    simp only [bind_eq_error_iff]
    simp only [pure, Except.pure, reduceCtorEq, and_false, exists_false, or_false]
    rfl
  rw [hadvance]
  simp only [Amount.span_eq_error_iff, Amount.span_eq_ok_iff, ticksIn_eq_error_iff,
    Binary64.truncated_eq_error_iff]
  constructor
  · rintro ((⟨hsign, rfl⟩ | ⟨hsign, hfloat⟩) |
      ⟨x, hspan, ⟨hempty, rfl⟩ | ⟨hinterval, ⟨hcount, rfl⟩ | ⟨hcount, rfl⟩⟩⟩)
    · exact .negative hsign
    · exact .beyondFloats hsign hfloat
    · exact .emptyInterval hspan hempty
    · exact .notANumber hspan hinterval hcount
    · exact .endless hspan hinterval hcount
  · intro hrefuses
    cases hrefuses with
    | negative hsign => exact Or.inl (Or.inl ⟨hsign, rfl⟩)
    | beyondFloats hsign hfloat => exact Or.inl (Or.inr ⟨hsign, hfloat⟩)
    | emptyInterval hspan hempty => exact Or.inr ⟨_, hspan, Or.inl ⟨hempty, rfl⟩⟩
    | notANumber hspan hinterval hcount =>
      exact Or.inr ⟨_, hspan, Or.inr ⟨hinterval, Or.inl ⟨hcount, rfl⟩⟩⟩
    | endless hspan hinterval hcount =>
      exact Or.inr ⟨_, hspan, Or.inr ⟨hinterval, Or.inr ⟨hcount, rfl⟩⟩⟩

/-- What is wrong with a span is found by every clock. -/
theorem refuses_of_not_fit (c : Clock Float) {delta : Amount} (hunfit : ¬ delta.Fit) :
    ∃ fault, c.Refuses delta fault := by
  cases hspan : (HostAmount.span delta : Except NumberFault Float) with
  | error fault =>
    rcases Amount.span_eq_error_iff.mp hspan with ⟨hsign, -⟩ | ⟨hsign, hfloat⟩
    · exact ⟨_, .negative hsign⟩
    · exact ⟨_, .beyondFloats hsign hfloat⟩
  | ok x =>
    rw [Amount.span_eq_ok_iff] at hspan
    have hendless : x.isFinite = false := by
      by_contra hfinite
      exact hunfit ⟨x, hspan, eq_true_of_ne_false hfinite⟩
    have helapsed := Binary64.isFinite_add_right c.remainder hendless
    cases hinterval : c.interval == 0.0 with
    | true => exact ⟨_, .emptyInterval hspan hinterval⟩
    | false => exact ⟨_, .notANumber hspan hinterval (Binary64.isNaN_floorQuotient helapsed _)⟩

end Clock

/-! ## Two clocks -/

section Refusals

variable {σ τ : Type} [ClockNumber τ] [HostAmount σ τ]

/-- The first clock refuses and nothing has happened, or the second refuses what the first has
taken. -/
theorem Timers.advance_error_cases {t : Timers τ} {delta : σ} {cause : NumberFault}
    (hrefused : (t.advance delta).2 = .error cause) :
    (t.instructions.advance delta = .error cause ∧ (t.advance delta).1 = t) ∨
      ∃ instructions due, t.instructions.advance delta = .ok (instructions, due) ∧
        t.countdown.advance delta = .error cause ∧
        (t.advance delta).1 = { t with instructions } := by
  unfold advance at hrefused ⊢
  cases hfirst : t.instructions.advance delta with
  | error fault =>
    simp only [hfirst] at hrefused ⊢
    cases hrefused
    exact Or.inl ⟨rfl, trivial⟩
  | ok taken =>
    obtain ⟨instructions, due⟩ := taken
    cases hsecond : t.countdown.advance delta with
    | error fault =>
      simp only [hfirst, hsecond] at hrefused ⊢
      cases hrefused
      exact Or.inr ⟨_, _, rfl, rfl, rfl⟩
    | ok counted =>
      simp only [hfirst, hsecond] at hrefused
      cases hrefused

/-- An update fails over a number exactly when a running machine cannot take the span in. -/
theorem Machine.update_number_iff {m : Machine τ} {delta : σ} {cause : NumberFault} :
    (m.update delta).result = .error (.number cause) ↔
      m.halted = false ∧ m.timers.Rejects delta cause := by
  constructor
  · intro hresult
    rcases m.update_cases delta with hhalted | ⟨hrunning, fault, hrejects⟩ |
        ⟨hrunning, timers, due, decrements, htime, hcount⟩
    · rw [(update_of_halted hhalted delta).1] at hresult
      cases hresult
    · rw [(update_of_error hrunning hrejects).1] at hresult
      cases hresult
      exact ⟨hrunning, hrejects⟩
    · rw [(update_of_ok hrunning htime hcount).1] at hresult
      obtain ⟨fault, hfault⟩ := runSteps_failure (Outcome.map_result_eq_error_iff.mp hresult)
      cases hfault
  · rintro ⟨hrunning, hrejects⟩
    rw [(update_of_error hrunning hrejects).1]
    rfl

end Refusals

/-- Two clocks have refused a span for this reason, and `t'` is what they are afterwards. -/
structure Timers.Refusal (t : Timers Float) (delta : Amount) (cause : NumberFault)
    (t' : Timers Float) : Prop where
  /-- Nothing but the remainder of the instruction clock can have changed. -/
  frame : t' = { t with
    instructions := { t.instructions with remainder := t'.instructions.remainder } }
  /-- And it has not exactly when that clock refuses the span as well, or takes it and has the same
  remainder again. -/
  unchanged_iff : t' = t ↔ (∃ fault, t.instructions.Refuses delta fault) ∨
    ∃ due, t.instructions.advance delta = .ok (t.instructions, due)
  /-- If it has, nothing is wrong with the span, and the timer clock alone has refused it. -/
  moved : t' ≠ t → delta.Fit ∧ t.countdown.Refuses delta cause ∧
    ∃ due, t.instructions.advance delta = .ok (t'.instructions, due)

theorem Timers.refusal {t : Timers Float} {delta : Amount} {cause : NumberFault}
    (hrefused : (t.advance delta).2 = .error cause) :
    t.Refusal delta cause (t.advance delta).1 := by
  rcases advance_error_cases hrefused with ⟨hfirst, hclocks⟩ |
      ⟨instructions, due, hfirst, hsecond, hclocks⟩
  · have hrefuses := Clock.advance_eq_error_iff.mp hfirst
    rw [hclocks]
    exact {
      frame := rfl
      unchanged_iff := iff_of_true rfl (Or.inl ⟨cause, hrefuses⟩)
      moved := fun hmoved => absurd rfl hmoved }
  -- The instruction clock has taken the span, so the span is not what is wrong.
  · have htaken : ¬ ∃ fault, t.instructions.Refuses delta fault := by
      rintro ⟨fault, hrefuses⟩
      rw [Clock.advance_eq_error_iff.mpr hrefuses] at hfirst
      cases hfirst
    rw [hclocks]
    refine ⟨?_, ?_, ?_⟩
    · rw [← Clock.eq_of_advance hfirst]
    · rw [or_iff_right htaken, hfirst]
      constructor
      · intro hsame
        have hclock : instructions = t.instructions := congrArg Timers.instructions hsame
        exact ⟨due, by rw [hclock]⟩
      · rintro ⟨due', hsame⟩
        cases hsame
        rfl
    · intro hmoved
      refine ⟨?_, Clock.advance_eq_error_iff.mp hsecond, due, hfirst⟩
      by_contra hunfit
      exact htaken (t.instructions.refuses_of_not_fit hunfit)

namespace Machine

/-- Two clocks that refuse a span are as they were but for the remainder of the instruction clock;
and that is as it was exactly when the instruction clock refuses the span itself, as it does
whenever something is wrong with the span, or takes it and comes to the same remainder. Otherwise
the ticks that were due are neither executed nor kept. A machine that fails over a span in an update
is as it was but for its clocks: these have refused the span, or have taken it and owe the timers
too many ticks. -/
theorem refused_span_unchanged_iff (delta : Amount) :
    (∀ (t : Timers Float) (cause : NumberFault), (t.advance delta).2 = .error cause →
      t.Refusal delta cause (t.advance delta).1) ∧
    ∀ (m : Machine Float) (cause : NumberFault), (m.update delta).result = .error (.number cause) →
      m.timers.Rejects delta cause ∧
      m.update delta =
        ⟨{ m with timers := (m.timers.advance delta).1 }, [], .error (.number cause)⟩ ∧
      ((m.update delta).machine = m ↔ (m.timers.advance delta).1 = m.timers) := by
  refine ⟨fun t cause => Timers.refusal, fun m cause hfails => ?_⟩
  obtain ⟨hrunning, hrejects⟩ := update_number_iff.mp hfails
  have hupdate : m.update delta =
      ⟨{ m with timers := (m.timers.advance delta).1 }, [], .error (.number cause)⟩ :=
    (update_of_error hrunning hrejects).1
  refine ⟨hrejects, hupdate, ?_⟩
  rw [hupdate]
  constructor
  · intro hsame
    exact congrArg Machine.timers hsame
  · intro hclocks
    rw [hclocks]

/-- A machine without a program, at five hundred instructions a second and with a timer clock whose
ticks take no time. -/
def endlessTimer : Setup Amount := { Setup.standard with timerHz := .real (1.0 / 0.0) }

/-- What is no number is refused by the instruction clock already, so the machine is as it was. -/
theorem refused_span_unchanged_iff_of_nan : ∃ (m : Machine Float) (events : List Event),
    boot endlessTimer = .ok (m, events) ∧
      (m.update (Amount.real (0.0 / 0.0))).result = .error (.number .notANumber) ∧
      (m.timers.advance (Amount.real (0.0 / 0.0))).1 = m.timers ∧
      (m.update (Amount.real (0.0 / 0.0))).machine = m := by
  have hok : ∃ started : Machine Float × List Event, boot endlessTimer = .ok started :=
    exists_eq_ok (by decide +kernel)
  obtain ⟨⟨m, events⟩, hboot⟩ := hok
  have hresult : (boot endlessTimer).map (fun started =>
      (started.1.update (Amount.real (0.0 / 0.0))).result) =
      .ok (.error (.number .notANumber)) := by
    decide +kernel
  rw [hboot] at hresult
  have hfails : (m.update (Amount.real (0.0 / 0.0))).result = .error (.number .notANumber) :=
    Except.ok.inj hresult
  have hunfit : ¬ (Amount.real (0.0 / 0.0)).Fit := by
    rintro ⟨x, ⟨-, hfloat⟩, hfinite⟩
    cases hfloat
    exact absurd hfinite (by decide)
  obtain ⟨hclocks, hmachine⟩ := refused_span_unchanged_iff (Amount.real (0.0 / 0.0))
  obtain ⟨hrefused | ⟨-, -, -, -, hcause⟩, -, hsame⟩ := hmachine m _ hfails
  case inr => cases hcause
  have hkept : (m.timers.advance (Amount.real (0.0 / 0.0))).1 = m.timers := by
    by_contra hmoved
    exact hunfit ((hclocks m.timers _ hrefused).moved hmoved).1
  exact ⟨m, events, hboot, hfails, hkept, hsame.mpr hkept⟩

/-- Of three thousandths of a second the instruction clock has taken two, and the tick that was due
for them is lost, when the timer clock finds that its own ticks take no time. -/
theorem refused_span_moves_clock : ∃ (t : Timers Float) (m : Machine Float) (events : List Event),
    Timers.ofFrequencies (Amount.whole 500) (Amount.real (1.0 / 0.0)) = .ok t ∧
      (t.advance (Amount.real 0.003)).2 = .error .emptyInterval ∧
      (t.advance (Amount.real 0.003)).1.instructions.remainder ≠ t.instructions.remainder ∧
      boot endlessTimer = .ok (m, events) ∧ m.timers = t ∧
      (m.update (Amount.real 0.003)).result = .error (.number .emptyInterval) ∧
      (m.update (Amount.real 0.003)).machine ≠ m := by
  have hok : ∃ started : Machine Float × List Event, boot endlessTimer = .ok started :=
    exists_eq_ok (by decide +kernel)
  obtain ⟨⟨m, events⟩, hboot⟩ := hok
  obtain ⟨t, seed, state, htimers, -, -, hm, -⟩ := boot_eq_ok_iff.mp hboot
  have hclocks : m.timers = t := by rw [hm]; rfl
  have hanswers : (boot endlessTimer).map (fun started =>
      ((started.1.timers.advance (Amount.real 0.003)).2,
        (started.1.update (Amount.real 0.003)).result,
        decide ((started.1.timers.advance (Amount.real 0.003)).1.instructions.remainder ≠
            started.1.timers.instructions.remainder ∧
          (started.1.update (Amount.real 0.003)).machine.timers.instructions.remainder ≠
            started.1.timers.instructions.remainder))) =
      .ok (.error .emptyInterval, .error (.number .emptyInterval), true) := by
    decide +kernel
  rw [hboot] at hanswers
  obtain ⟨hrefused, hrest⟩ := Prod.mk.inj (Except.ok.inj hanswers)
  obtain ⟨hfails, hmoved⟩ := Prod.mk.inj hrest
  obtain ⟨hclock, hmachine⟩ := of_decide_eq_true hmoved
  rw [hclocks] at hrefused hclock
  refine ⟨t, m, events, htimers, hrefused, hclock, hboot, hclocks, hfails, ?_⟩
  intro hsame
  exact hmachine (congrArg (fun m : Machine Float => m.timers.instructions.remainder) hsame)

end Machine

end ChipEight
