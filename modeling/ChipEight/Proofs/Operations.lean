import ChipEight.Proofs.Effects
import ChipEight.Session

/-!
# What an operation does to a machine

Whatever a host asks for, a machine executes instructions, counts time, takes in keys or starts
over. `Machine.attempts` lists the machines on which an operation sets out to execute an
instruction, each as it is before that instruction.

* `step_of_halted`, `step_of_fault`, `step_of_ok`: the three ways of a step.
* `runSteps_add`: steps in a row can be done in two parts.
* `reset_of_ok`, `reset_of_error`: the two ways of a reset.
* `Timers.Rejects`: when a span of time is not taken in. `update_cases` with `update_of_halted`,
  `update_of_error` and `update_of_ok`: the three ways of an update.
* `perform_events`: an operation other than a reset reports what its attempts report, one after
  the other.
* `Law.perform`: a relation that holds of each single piece of work, and of two pieces done in
  turn when it holds of both, holds of every operation other than a reset.
* `running_of_mem_attempts`: no attempt is made on a machine that has halted.
* `Machine.after`, `Session.after`: many operations, with anything happening to the keypad in
  between.
-/

namespace ChipEight

theorem exists_eq_ok {ε α : Type} {x : Except ε α} (hx : x.isOk = true) : ∃ a, x = .ok a := by
  cases x with
  | error e => cases hx
  | ok a => exact ⟨a, rfl⟩

namespace Outcome

variable {τ α β γ : Type}

/-- Work that goes on after a success: the events of both pieces in turn, and the result of the
second. -/
theorem bind_of_ok {o : Outcome τ α} {a : α} (hresult : o.result = .ok a)
    (next : Machine τ → α → Outcome τ β) :
    o.bind next = ⟨(next o.machine a).machine, o.events ++ (next o.machine a).events,
      (next o.machine a).result⟩ := by
  unfold bind
  rw [hresult]

/-- Work does not go on after a failure. -/
theorem bind_of_error {o : Outcome τ α} {failure : Failure} (hresult : o.result = .error failure)
    (next : Machine τ → α → Outcome τ β) :
    o.bind next = ⟨o.machine, o.events, .error failure⟩ := by
  unfold bind
  rw [hresult]

theorem map_result_eq_error_iff {o : Outcome τ α} {f : α → β} {failure : Failure} :
    (o.map f).result = .error failure ↔ o.result = .error failure := by
  unfold map
  cases o.result with
  | error failure' => simp [Except.map]
  | ok a => simp [Except.map]

end Outcome

/-- Operations in their order, each with what happens to the keypad before it: `id` if nothing does.
-/
abbrev Script (σ : Type) := List ((Keypad → Keypad) × Operation σ)

/-- Most facts hold of all operations but resets, which have facts of their own. -/
theorem Operation.reset_or_other {σ : Type} (op : Operation σ) :
    (∃ rom, op = .reset rom) ∨ ∀ rom, op ≠ .reset rom := by
  cases op with
  | reset rom => exact Or.inl ⟨rom, rfl⟩
  | _ => exact Or.inr (fun rom hop => by cases hop)

/-! ## Spans of time -/

namespace Timers

variable {σ τ : Type} [ClockNumber τ] [HostAmount σ τ]

/-- A span cannot be taken in: the clocks refuse it, or they owe the timers more ticks than fit
into a count. -/
def Rejects (t : Timers τ) (delta : σ) (cause : NumberFault) : Prop :=
  (t.advance delta).2 = .error cause ∨
    ∃ due decrements, (t.advance delta).2 = .ok (due, decrements) ∧ 2147483648 ≤ decrements ∧
      cause = .countTooLarge

/-- A span is rejected for a cause, or taken in. -/
theorem rejects_or_takes (t : Timers τ) (delta : σ) :
    (∃ cause, t.Rejects delta cause) ∨
      ∃ timers due decrements, t.advance delta = (timers, .ok (due, decrements)) ∧
        decrements < 2147483648 := by
  rcases htime : t.advance delta with ⟨timers, cause | ⟨due, decrements⟩⟩
  · exact Or.inl ⟨cause, Or.inl (by rw [htime])⟩
  · rcases Int.lt_or_le decrements 2147483648 with hcount | hcount
    · exact Or.inr ⟨timers, due, decrements, rfl, hcount⟩
    · exact Or.inl ⟨_, Or.inr ⟨due, decrements, by rw [htime], hcount, rfl⟩⟩

end Timers

namespace Machine

variable {σ τ : Type}

def setKeypad (m : Machine τ) (keypad : Keypad) : Machine τ := { m with keypad }

/-- The machine after something has happened to its keypad. -/
def withKeys (m : Machine τ) (change : Keypad → Keypad) : Machine τ :=
  m.setKeypad (change m.keypad)

/-! ## One step -/

/-- What a poll does: the keypad has told its presses, and the state has the snapshot. -/
theorem pollKeys_eq (m : Machine τ) :
    m.pollKeys = { m with
      keypad := { m.keypad with fresh := Keys.none }
      state := { m.state with held := m.keypad.held, pressed := m.keypad.fresh } } := rfl

/-- A machine that has halted refuses a step, and nothing happens. -/
theorem step_of_halted {m : Machine τ} (hhalted : m.halted = true) :
    m.step = .refused m (.fault Fault.machineHalted) := by
  unfold step
  rw [if_pos hhalted]

/-- An instruction that fails halts the machine, and leaves nothing but the poll. -/
theorem step_of_fault {m : Machine τ} {cause : Fault} (hrunning : m.halted = false)
    (hfault : m.pollKeys.state.step = .error cause) :
    m.step = ⟨{ m.pollKeys with halted := true }, [.stopped cause], .error (.fault cause)⟩ := by
  unfold step
  rw [if_neg (by rw [hrunning]; decide)]
  simp only [hfault]

/-- An instruction that succeeds gives the machine its state, and is counted and reported. -/
theorem step_of_ok {m : Machine τ} {t : State screenWidth screenHeight} {op : Opcode}
    (hrunning : m.halted = false) (hstep : m.pollKeys.state.step = .ok (t, op)) :
    m.step = ⟨{ m.pollKeys with state := t, steps := m.steps + 1 },
      .executed m.state.pc op :: effects m.pollKeys.state t op.instruction?, .ok op⟩ := by
  unfold step
  rw [if_neg (by rw [hrunning]; decide)]
  simp only [hstep]
  rfl

/-- The two ways of a step on a machine that runs. -/
theorem step_cases {m : Machine τ} (hrunning : m.halted = false) :
    (∃ cause, m.pollKeys.state.step = .error cause ∧
        m.step = ⟨{ m.pollKeys with halted := true }, [.stopped cause], .error (.fault cause)⟩) ∨
      ∃ t op, m.pollKeys.state.step = .ok (t, op) ∧
        m.step = ⟨{ m.pollKeys with state := t, steps := m.steps + 1 },
          .executed m.state.pc op :: effects m.pollKeys.state t op.instruction?, .ok op⟩ := by
  cases hstep : m.pollKeys.state.step with
  | error cause => exact Or.inl ⟨cause, rfl, step_of_fault hrunning hstep⟩
  | ok r =>
    obtain ⟨t, op⟩ := r
    exact Or.inr ⟨t, op, rfl, step_of_ok hrunning hstep⟩

/-! ## Steps in a row -/

/-- The machines on which a number of steps, up to the first that fails, set out. -/
def stepAttempts : Nat → Machine τ → List (Machine τ)
  | 0, _ => []
  | count + 1, m =>
    if m.halted then []
    else
      m :: match m.step.result with
        | .error _ => []
        | .ok _ => m.step.machine.stepAttempts count

theorem runSteps_of_halted {m : Machine τ} (hhalted : m.halted = true) (count : Nat) :
    m.runSteps (count + 1) = .refused m (.fault Fault.machineHalted) ∧
      m.stepAttempts (count + 1) = [] := by
  constructor
  · rw [runSteps, step_of_halted hhalted]
    rfl
  · rw [stepAttempts, if_pos hhalted]

theorem runSteps_of_error {m : Machine τ} {failure : Failure} (hrunning : m.halted = false)
    (hresult : m.step.result = .error failure) (count : Nat) :
    m.runSteps (count + 1) = ⟨m.step.machine, m.step.events, .error failure⟩ ∧
      m.stepAttempts (count + 1) = [m] := by
  constructor
  · rw [runSteps, Outcome.bind_of_error hresult]
  · rw [stepAttempts, if_neg (by rw [hrunning]; decide)]
    simp only [hresult]

theorem runSteps_of_ok {m : Machine τ} {op : Opcode} (hrunning : m.halted = false)
    (hresult : m.step.result = .ok op) (count : Nat) :
    m.runSteps (count + 1) = ⟨(m.step.machine.runSteps count).machine,
        m.step.events ++ (m.step.machine.runSteps count).events,
        (m.step.machine.runSteps count).result⟩ ∧
      m.stepAttempts (count + 1) = m :: m.step.machine.stepAttempts count := by
  constructor
  · rw [runSteps, Outcome.bind_of_ok hresult]
  · rw [stepAttempts, if_neg (by rw [hrunning]; decide)]
    simp only [hresult]

theorem stepAttempts_one (m : Machine τ) : m.stepAttempts 1 = if m.halted then [] else [m] := by
  rw [stepAttempts]
  split
  · rfl
  · cases m.step.result with
    | error failure => rfl
    | ok op => rfl

/-- A machine is halted, or fails in its next step, or executes an instruction. -/
theorem step_result_cases (m : Machine τ) :
    m.halted = true ∨ (m.halted = false ∧ ∃ failure, m.step.result = .error failure) ∨
      (m.halted = false ∧ ∃ op, m.step.result = .ok op) := by
  cases hhalted : m.halted with
  | true => exact Or.inl rfl
  | false =>
    cases m.step.result with
    | error failure => exact Or.inr (Or.inl ⟨rfl, failure, rfl⟩)
    | ok op => exact Or.inr (Or.inr ⟨rfl, op, rfl⟩)

/-- Steps in a row report what each of them reports. -/
theorem runSteps_events (count : Nat) (m : Machine τ) :
    (m.runSteps count).events = (m.stepAttempts count).flatMap fun x => x.step.events := by
  induction count generalizing m with
  | zero => rfl
  | succ count ih =>
    rcases m.step_result_cases with hhalted | ⟨hrunning, failure, hresult⟩ |
        ⟨hrunning, op, hresult⟩
    · obtain ⟨hrun, hattempts⟩ := runSteps_of_halted hhalted count
      rw [hrun, hattempts]
      rfl
    · obtain ⟨hrun, hattempts⟩ := runSteps_of_error hrunning hresult count
      rw [hrun, hattempts]
      exact (List.append_nil _).symm
    · obtain ⟨hrun, hattempts⟩ := runSteps_of_ok hrunning hresult count
      rw [hrun, hattempts]
      simp only [ih, List.flatMap_cons]

/-- Steps fail by a fault of the program only. -/
theorem runSteps_failure {count : Nat} {m : Machine τ} {failure : Failure}
    (hresult : (m.runSteps count).result = .error failure) : ∃ cause, failure = .fault cause := by
  induction count generalizing m with
  | zero => cases hresult
  | succ count ih =>
    cases hhalted : m.halted with
    | true =>
      rw [(runSteps_of_halted hhalted count).1] at hresult
      cases hresult
      exact ⟨_, rfl⟩
    | false =>
      rcases step_cases hhalted with ⟨cause, -, hm⟩ | ⟨t, op, -, hm⟩
      · have hstep : m.step.result = .error (.fault cause) := by rw [hm]
        rw [(runSteps_of_error hhalted hstep count).1] at hresult
        cases hresult
        exact ⟨cause, rfl⟩
      · have hstep : m.step.result = .ok op := by rw [hm]
        rw [(runSteps_of_ok hhalted hstep count).1] at hresult
        exact ih hresult

/-! ## Resets -/

variable [ClockNumber τ]

/-- A reset with a program that fits. -/
theorem reset_of_ok {m : Machine τ} {rom : Option (List Byte)}
    {s : State screenWidth screenHeight}
    (hstate : initialState m.seed (rom.getD m.rom) m.dialect m.stackLimit = .ok s) :
    m.reset rom = ⟨{ m with
        rom := rom.getD m.rom
        state := s
        timers := m.timers.reset
        halted := false
        steps := 0 }, [.cleared, .started (rom.getD m.rom).length m.dialect], .ok ()⟩ := by
  unfold reset
  simp only [hstate]

/-- A reset with a program that does not fit changes nothing but the program. -/
theorem reset_of_error {m : Machine τ} {rom : Option (List Byte)} {cause : Fault}
    (hstate : initialState m.seed (rom.getD m.rom) m.dialect m.stackLimit = .error cause) :
    m.reset rom = .refused { m with rom := rom.getD m.rom } (.fault cause) := by
  unfold reset
  simp only [hstate]

/-! ## Starting -/

/-- The machine at its start, with clocks that have not run yet. -/
def fresh (setup : Setup σ) (seed : Seed) (timers : Timers τ)
    (state : State screenWidth screenHeight) : Machine τ where
  dialect := setup.dialect
  stackLimit := setup.stackLimit
  seed
  rom := setup.rom
  timers
  keypad := Keypad.idle
  state
  halted := false
  steps := 0

variable [HostAmount σ τ]

/-- A machine can be built if both frequencies, the seed and the program are accepted, and then is
as good as new. -/
theorem boot_eq_ok_iff {setup : Setup σ} {m : Machine τ} {events : List Event} :
    boot setup = .ok (m, events) ↔
      ∃ timers seed state, Timers.ofFrequencies setup.instructionHz setup.timerHz = .ok timers ∧
        Seed.ofInt setup.seed = .ok seed ∧
        initialState seed setup.rom setup.dialect setup.stackLimit = .ok state ∧
        m = fresh setup seed timers state ∧
        events = [.cleared, .started setup.rom.length setup.dialect] := by
  unfold boot
  cases Timers.ofFrequencies setup.instructionHz setup.timerHz with
  | error cause => simp
  | ok timers =>
    cases Seed.ofInt setup.seed with
    | error cause => simp
    | ok seed =>
      dsimp only
      cases hstate : initialState seed setup.rom setup.dialect setup.stackLimit with
      | error cause => simp [hstate]
      | ok state => simp [hstate, fresh, eq_comm]

/-! ## Time -/

/-- Whether a machine takes a span in depends on its clocks only. -/
theorem passTime_eq_error_iff {m n : Machine τ} {delta : σ}
    {cause : NumberFault} :
    m.passTime delta = (n, .error cause) ↔
      n = { m with timers := (m.timers.advance delta).1 } ∧ m.timers.Rejects delta cause := by
  unfold passTime
  rcases htime : m.timers.advance delta with ⟨timers, fault | ⟨due, decrements⟩⟩
  · have hrejects : m.timers.Rejects delta cause ↔ fault = cause := by
      simp [Timers.Rejects, htime]
    simp [hrejects, eq_comm]
  · have hrejects : m.timers.Rejects delta cause ↔
        2147483648 ≤ decrements ∧ cause = .countTooLarge := by
      constructor
      · rintro (hclock | ⟨due', decrements', hcounts, hrest⟩)
        · rw [htime] at hclock
          cases hclock
        · rw [htime] at hcounts
          cases hcounts
          exact hrest
      · exact fun hrest => Or.inr ⟨due, decrements, by rw [htime], hrest⟩
    dsimp only
    rw [hrejects, ← State.tick_eq_error_iff (s := m.state)]
    cases m.state.tick decrements with
    | error cause' => simp [eq_comm]
    | ok state => simp

/-- A span that is not rejected moves the clocks on and counts the timers down. -/
theorem passTime_of_ok {m : Machine τ} {delta : σ} {timers : Timers τ} {due decrements : Int}
    (htime : m.timers.advance delta = (timers, .ok (due, decrements)))
    (hcount : decrements < 2147483648) :
    m.passTime delta =
      ({ m with timers, state := m.state.countDown decrements.toNat }, .ok due) := by
  unfold passTime
  rw [htime]
  dsimp only
  rw [State.tick_eq_ok_iff.mpr ⟨hcount, rfl⟩]

/-! ## The attempts of an operation -/

/-- The attempts of an update: none where the machine has halted or rejects the span. -/
def updateAttempts (m : Machine τ) (delta : σ) : List (Machine τ) :=
  if m.halted then []
  else
    match m.passTime delta with
    | (_, .error _) => []
    | (m, .ok due) => m.stepAttempts due.toNat

/-- A machine that has halted refuses an update, and its clocks stand still. -/
theorem update_of_halted {m : Machine τ} (hhalted : m.halted = true) (delta : σ) :
    m.update delta = .refused m (.fault Fault.machineHalted) ∧ m.updateAttempts delta = [] := by
  constructor
  · rw [update, if_pos hhalted]
  · rw [updateAttempts, if_pos hhalted]

/-- An update by a rejected span executes nothing. What the clocks have done so far stays done. -/
theorem update_of_error {m : Machine τ} {delta : σ} {cause : NumberFault}
    (hrunning : m.halted = false) (hrejects : m.timers.Rejects delta cause) :
    m.update delta =
        .refused { m with timers := (m.timers.advance delta).1 } (.number cause) ∧
      m.updateAttempts delta = [] := by
  have hpass := passTime_eq_error_iff.mpr ⟨rfl, hrejects⟩
  constructor
  · rw [update, if_neg (by rw [hrunning]; decide)]
    simp only [hpass]
  · rw [updateAttempts, if_neg (by rw [hrunning]; decide)]
    simp only [hpass]

/-- An update by a span that is taken in executes what is due after the countdown. -/
theorem update_of_ok {m : Machine τ} {delta : σ} {timers : Timers τ} {due decrements : Int}
    (hrunning : m.halted = false)
    (htime : m.timers.advance delta = (timers, .ok (due, decrements)))
    (hcount : decrements < 2147483648) :
    m.update delta = ({ m with timers, state := m.state.countDown decrements.toNat }.runSteps
        due.toNat).map (fun _ => due) ∧
      m.updateAttempts delta =
        { m with timers, state := m.state.countDown decrements.toNat }.stepAttempts due.toNat := by
  have hpass := passTime_of_ok htime hcount
  constructor
  · rw [update, if_neg (by rw [hrunning]; decide)]
    simp only [hpass]
  · rw [updateAttempts, if_neg (by rw [hrunning]; decide)]
    simp only [hpass]

/-- An update is refused, or the span is rejected, or the instructions due are executed. -/
theorem update_cases (m : Machine τ) (delta : σ) :
    m.halted = true ∨
      (m.halted = false ∧ ∃ cause, m.timers.Rejects delta cause) ∨
      (m.halted = false ∧ ∃ timers due decrements,
        m.timers.advance delta = (timers, .ok (due, decrements)) ∧ decrements < 2147483648) := by
  cases hhalted : m.halted with
  | true => exact Or.inl rfl
  | false => exact Or.inr ((m.timers.rejects_or_takes delta).imp (⟨rfl, ·⟩) (⟨rfl, ·⟩))

/-- The attempts of frames in a row, up to the first that fails. -/
def frameAttempts (delta : σ) : Nat → Machine τ → List (Machine τ)
  | 0, _ => []
  | count + 1, m =>
    m.updateAttempts delta ++ match (m.update delta).result with
      | .error _ => []
      | .ok _ => (m.update delta).machine.frameAttempts delta count

theorem runFrames_of_error {m : Machine τ} {delta : σ} {failure : Failure}
    (hresult : (m.update delta).result = .error failure) (count : Nat) :
    m.runFrames delta (count + 1) =
        ⟨(m.update delta).machine, (m.update delta).events, .error failure⟩ ∧
      m.frameAttempts delta (count + 1) = m.updateAttempts delta := by
  constructor
  · rw [runFrames, Outcome.bind_of_error hresult]
  · rw [frameAttempts, hresult]
    exact List.append_nil _

theorem runFrames_of_ok {m : Machine τ} {delta : σ} {due : Int}
    (hresult : (m.update delta).result = .ok due) (count : Nat) :
    m.runFrames delta (count + 1) =
        ⟨((m.update delta).machine.runFrames delta count).machine,
          (m.update delta).events ++ ((m.update delta).machine.runFrames delta count).events,
          ((m.update delta).machine.runFrames delta count).result.map (due + ·)⟩ ∧
      m.frameAttempts delta (count + 1) =
        m.updateAttempts delta ++ (m.update delta).machine.frameAttempts delta count := by
  constructor
  · rw [runFrames, Outcome.bind_of_ok hresult]
    rfl
  · rw [frameAttempts, hresult]

/-- The attempts of a duration: those of its frames, if there are any. -/
def durationAttempts (m : Machine τ) (seconds rate : σ) : List (Machine τ) :=
  match HostAmount.frameCount seconds rate with
  | .error _ => []
  | .ok frames =>
    if frames ≤ 0 then []
    else
      match HostAmount.frameSpan rate with
      | .error _ => []
      | .ok delta => m.frameAttempts delta frames.toNat

/-- Whatever the machine, a duration changes nothing or is run in frames. -/
theorem runFor_cases (seconds rate : σ) :
    (∃ result, ∀ m : Machine τ, m.runFor seconds rate = ⟨m, [], result⟩ ∧
        m.durationAttempts seconds rate = []) ∨
      ∃ (delta : σ) (count : Nat), ∀ m : Machine τ,
        m.runFor seconds rate = m.runFrames delta count ∧
        m.durationAttempts seconds rate = m.frameAttempts delta count := by
  unfold runFor durationAttempts
  cases HostAmount.frameCount seconds rate with
  | error cause => exact Or.inl ⟨_, fun m => ⟨rfl, rfl⟩⟩
  | ok frames =>
    dsimp only
    split
    · exact Or.inl ⟨_, fun m => ⟨rfl, rfl⟩⟩
    · cases HostAmount.frameSpan rate with
      | error cause => exact Or.inl ⟨_, fun m => ⟨rfl, rfl⟩⟩
      | ok delta => exact Or.inr ⟨delta, frames.toNat, fun m => ⟨rfl, rfl⟩⟩

/-- The machines on which an operation sets out to execute an instruction, in their order. -/
def attempts (m : Machine τ) : Operation σ → List (Machine τ)
  | .step => m.stepAttempts 1
  | .update delta => m.updateAttempts delta
  | .runFor seconds rate => m.durationAttempts seconds rate
  | _ => []

/-! ## Events -/

/-- An update reports what its attempts report. -/
theorem update_events (m : Machine τ) (delta : σ) :
    (m.update delta).events = (m.updateAttempts delta).flatMap fun x => x.step.events := by
  rcases m.update_cases delta with hhalted | ⟨hrunning, cause, hrejects⟩ |
      ⟨hrunning, timers, due, decrements, htime, hcount⟩
  · obtain ⟨hupdate, hattempts⟩ := update_of_halted hhalted delta
    rw [hupdate, hattempts]
    rfl
  · obtain ⟨hupdate, hattempts⟩ := update_of_error hrunning hrejects
    rw [hupdate, hattempts]
    rfl
  · obtain ⟨hupdate, hattempts⟩ := update_of_ok hrunning htime hcount
    rw [hupdate, hattempts]
    exact runSteps_events _ _

theorem runFrames_events (delta : σ) (count : Nat) (m : Machine τ) :
    (m.runFrames delta count).events =
      (m.frameAttempts delta count).flatMap fun x => x.step.events := by
  induction count generalizing m with
  | zero => rfl
  | succ count ih =>
    cases hresult : (m.update delta).result with
    | error failure =>
      obtain ⟨hrun, hattempts⟩ := runFrames_of_error hresult count
      rw [hrun, hattempts]
      exact update_events m delta
    | ok due =>
      obtain ⟨hrun, hattempts⟩ := runFrames_of_ok hresult count
      rw [hrun, hattempts]
      simp only [ih, update_events, List.flatMap_append]

theorem runFor_events (m : Machine τ) (seconds rate : σ) :
    (m.runFor seconds rate).events =
      (m.durationAttempts seconds rate).flatMap fun x => x.step.events := by
  rcases runFor_cases seconds rate with ⟨result, hnothing⟩ | ⟨delta, count, hframes⟩
  · obtain ⟨hrun, hattempts⟩ := hnothing m
    rw [hrun, hattempts]
    rfl
  · obtain ⟨hrun, hattempts⟩ := hframes m
    rw [hrun, hattempts]
    exact runFrames_events delta count m

omit [ClockNumber τ] [HostAmount σ τ] in
theorem withKey_events (m : Machine τ) (key : Int) (change : Keypad → Nibble → Keypad) :
    (m.withKey key change).events = [] := by
  unfold withKey
  split
  · rfl
  · rfl

/-- An operation other than a reset reports what its attempts report. -/
theorem perform_events (m : Machine τ) {op : Operation σ} (hreset : ∀ rom, op ≠ .reset rom) :
    (m.perform op).events = (m.attempts op).flatMap fun x => x.step.events := by
  cases op with
  | step =>
    change m.step.events = _
    rw [attempts, stepAttempts_one]
    split
    case isTrue hhalted =>
      rw [step_of_halted hhalted]
      rfl
    case isFalse => exact (List.append_nil _).symm
  | update delta => exact update_events m delta
  | runFor seconds rate => exact runFor_events m seconds rate
  | press key => exact withKey_events m key _
  | release key => exact withKey_events m key _
  | releaseAll => rfl
  | poll => rfl
  | reset rom => exact absurd rfl (hreset rom)

/-! ## Laws -/

/-- A relation between a machine, the attempts of some work on it, and the machine after that work,
which holds of the single pieces of which operations consist and of work done in turn. -/
structure Law (σ : Type) {τ : Type} [ClockNumber τ] [HostAmount σ τ]
    (R : Machine τ → List (Machine τ) → Machine τ → Prop) : Prop where
  refl : ∀ m, R m [] m
  trans : ∀ {m₁ m₂ m₃ xs ys}, R m₁ xs m₂ → R m₂ ys m₃ → R m₁ (xs ++ ys) m₃
  advance : ∀ m (delta : σ), R m [] { m with timers := (m.timers.advance delta).1 }
  countDown : ∀ m ticks, R m [] { m with state := m.state.countDown ticks }
  step : ∀ m, m.halted = false → R m [m] m.step.machine

namespace Law

variable {R : Machine τ → List (Machine τ) → Machine τ → Prop}

theorem runSteps (law : Law σ R) (count : Nat) (m : Machine τ) :
    R m (m.stepAttempts count) (m.runSteps count).machine := by
  induction count generalizing m with
  | zero => exact law.refl m
  | succ count ih =>
    rcases m.step_result_cases with hhalted | ⟨hrunning, failure, hresult⟩ |
        ⟨hrunning, op, hresult⟩
    · obtain ⟨hrun, hattempts⟩ := runSteps_of_halted hhalted count
      rw [hrun, hattempts]
      exact law.refl m
    · obtain ⟨hrun, hattempts⟩ := runSteps_of_error hrunning hresult count
      rw [hrun, hattempts]
      exact law.step m hrunning
    · obtain ⟨hrun, hattempts⟩ := runSteps_of_ok hrunning hresult count
      rw [hrun, hattempts]
      exact law.trans (law.step m hrunning) (ih m.step.machine)

theorem update (law : Law σ R) (m : Machine τ) (delta : σ) :
    R m (m.updateAttempts delta) (m.update delta).machine := by
  have hadvance := law.advance m delta
  rcases m.update_cases delta with hhalted | ⟨hrunning, cause, hrejects⟩ |
      ⟨hrunning, timers, due, decrements, htime, hcount⟩
  · obtain ⟨hupdate, hattempts⟩ := update_of_halted hhalted delta
    rw [hupdate, hattempts]
    exact law.refl m
  · obtain ⟨hupdate, hattempts⟩ := update_of_error hrunning hrejects
    rw [hupdate, hattempts]
    exact hadvance
  · obtain ⟨hupdate, hattempts⟩ := update_of_ok hrunning htime hcount
    rw [hupdate, hattempts]
    rw [htime] at hadvance
    exact law.trans hadvance
      (law.trans (law.countDown _ decrements.toNat) (law.runSteps _ _))

theorem runFrames (law : Law σ R) (delta : σ) (count : Nat) (m : Machine τ) :
    R m (m.frameAttempts delta count) (m.runFrames delta count).machine := by
  induction count generalizing m with
  | zero => exact law.refl m
  | succ count ih =>
    cases hresult : (m.update delta).result with
    | error failure =>
      obtain ⟨hrun, hattempts⟩ := runFrames_of_error hresult count
      rw [hrun, hattempts]
      exact law.update m delta
    | ok due =>
      obtain ⟨hrun, hattempts⟩ := runFrames_of_ok hresult count
      rw [hrun, hattempts]
      exact law.trans (law.update m delta) (ih _)

theorem runFor (law : Law σ R) (m : Machine τ) (seconds rate : σ) :
    R m (m.durationAttempts seconds rate) (m.runFor seconds rate).machine := by
  rcases runFor_cases seconds rate with ⟨result, hnothing⟩ | ⟨delta, count, hframes⟩
  · obtain ⟨hrun, hattempts⟩ := hnothing m
    rw [hrun, hattempts]
    exact law.refl m
  · obtain ⟨hrun, hattempts⟩ := hframes m
    rw [hrun, hattempts]
    exact law.runFrames delta count m

theorem oneStep (law : Law σ R) (m : Machine τ) : R m (m.stepAttempts 1) m.step.machine := by
  rw [stepAttempts_one]
  split
  case isTrue hhalted =>
    rw [step_of_halted hhalted]
    exact law.refl m
  case isFalse hrunning => exact law.step m (eq_false_of_ne_true hrunning)

/-- A law that keys do not matter to holds of every operation other than a reset. -/
theorem perform (law : Law σ R) (hkeys : ∀ m keypad held pressed,
      R m [] { m with keypad, state := { m.state with held, pressed } })
    (m : Machine τ) {op : Operation σ} (hreset : ∀ rom, op ≠ .reset rom) :
    R m (m.attempts op) (m.perform op).machine := by
  have hkey (key : Int) (change : Keypad → Nibble → Keypad) :
      R m [] (m.withKey key change).machine := by
    unfold withKey
    split
    · exact law.refl m
    · exact hkeys m _ m.state.held m.state.pressed
  cases op with
  | step => exact law.oneStep m
  | update delta => exact law.update m delta
  | runFor seconds rate => exact law.runFor m seconds rate
  | press key => exact hkey key _
  | release key => exact hkey key _
  | releaseAll => exact hkeys m _ m.state.held m.state.pressed
  | poll => exact hkeys m _ _ _
  | reset rom => exact absurd rfl (hreset rom)

end Law

/-- Every attempt is made on a machine that runs. -/
theorem runningAttempts_law :
    Law σ (fun (_ : Machine τ) attempts _ => ∀ x ∈ attempts, x.halted = false) where
  refl m := by simp
  trans := by
    intro m₁ m₂ m₃ xs ys hfirst hsecond x hx
    rcases List.mem_append.mp hx with hx | hx
    · exact hfirst x hx
    · exact hsecond x hx
  advance m delta := by simp
  countDown m ticks := by simp
  step m hrunning := by simpa using hrunning

theorem running_of_mem_attempts {m x : Machine τ} {op : Operation σ} (hx : x ∈ m.attempts op) :
    x.halted = false := by
  rcases op.reset_or_other with ⟨rom, rfl⟩ | hother
  · cases hx
  · exact runningAttempts_law.perform (fun m keypad held pressed => by simp) m hother x hx

/-! ## Scripts -/

/-- The machine after the operations of a script, those that fail included. -/
def after (m : Machine τ) : Script σ → Machine τ
  | [] => m
  | (change, op) :: rest => ((m.withKeys change).perform op).machine.after rest

end Machine

namespace Session

variable {σ τ : Type}

/-- The session after something has happened to the keypad. -/
def withKeys (s : Session τ) (change : Keypad → Keypad) : Session τ :=
  { s with machine := s.machine.withKeys change }

variable [ClockNumber τ] [HostAmount σ τ]

/-- A session starts if its machine can be built, whose first events are shown to the watchers. -/
theorem start_eq_ok_iff {setup : Setup σ} {console : Console} {display : Option Recording}
    {tones : Option (List Byte)} {s : Session τ} {text : String} :
    start setup console display tones = .ok (s, text) ↔
      ∃ machine events, Machine.boot setup = .ok (machine, events) ∧
        ({ machine, console, display, tones : Session τ }).observe events = (s, text) := by
  unfold start
  rw [bind_eq_ok_iff]
  simp only [pure, Except.pure, Except.ok.injEq, Prod.exists]

/-- The session after the operations of a script, those that fail included. -/
def after (s : Session τ) : Script σ → Session τ
  | [] => s
  | (change, op) :: rest => ((s.withKeys change).perform op).1.after rest

/-- The machine of a session goes through what it would go through alone. -/
theorem machine_after (s : Session τ) (script : Script σ) :
    (s.after script).machine = s.machine.after script := by
  induction script generalizing s with
  | nil => rfl
  | cons turn rest ih => exact ih _

end Session

end ChipEight
