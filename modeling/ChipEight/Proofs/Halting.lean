import Mathlib.Control.Monad.Basic
import ChipEight.Proofs.KeyAnswers

/-!
# Halting

An instruction that fails stops the machine. Nothing of the instruction is left but the keys that
were read for it, and from then on steps and updates are refused until a reset succeeds.

* `Machine.failsIn_iff_stopped`: an operation in which an instruction fails is one that says so.
* `Machine.perform_halted_iff`: when a machine is halted after one operation.
* `Machine.after_halted_iff`: when it is after many, in terms of what has happened to it.
* `Session.perform_step_of_failure`: what a step that fails leaves of a session.
* `Session.halts_until_restart`: a session halts when a step fails, is not changed by steps and
  updates as long as it is halted, and is halted exactly between a failure and the next reset.
-/

namespace ChipEight

namespace Machine

variable {σ τ : Type}

/-! ## Failures are reported -/

theorem stopped_notMem_effects (s t : State screenWidth screenHeight) (i : Option Instruction)
    (cause : Fault) : Event.stopped cause ∉ effects s t i := by
  unfold effects
  split
  · simp
  · simp
  · simp
  · simp

/-- A step says that the machine stops exactly when it fails. -/
theorem stopped_mem_step_iff {m : Machine τ} (hrunning : m.halted = false) :
    (∃ cause, Event.stopped cause ∈ m.step.events) ↔ ∃ failure, m.step.result = .error failure := by
  rcases step_cases hrunning with ⟨cause, -, hm⟩ | ⟨t, op, -, hm⟩
  · simp [hm]
  · simp [hm, stopped_notMem_effects]

variable [ClockNumber τ] [HostAmount σ τ]

/-! ## One operation -/

/-- One of the instructions that the operation sets out to execute fails. -/
def FailsIn (m : Machine τ) (op : Operation σ) : Prop :=
  ∃ x ∈ m.attempts op, ∃ failure, x.step.result = .error failure

theorem not_failsIn_reset (m : Machine τ) (rom : Option (List Byte)) :
    ¬ m.FailsIn (.reset rom : Operation σ) := by
  rintro ⟨x, hx, -⟩
  cases hx

/-- An operation reports that the machine has stopped exactly when an instruction fails in it. -/
theorem failsIn_iff_stopped (m : Machine τ) (op : Operation σ) :
    m.FailsIn op ↔ ∃ cause, Event.stopped cause ∈ (m.perform op).events := by
  rcases op.reset_or_other with ⟨rom, rfl⟩ | hother
  · have hsilent : ∀ cause, Event.stopped cause ∉ (m.reset rom).events := by
      intro cause
      cases hstate : initialState m.seed (rom.getD m.rom) m.dialect m.stackLimit with
      | error cause => simp [reset_of_error hstate, Outcome.refused]
      | ok s => simp [reset_of_ok hstate]
    exact iff_of_false (m.not_failsIn_reset rom) (fun ⟨cause, hmem⟩ => hsilent cause hmem)
  · rw [m.perform_events hother]
    constructor
    · rintro ⟨x, hx, hfails⟩
      obtain ⟨cause, hmem⟩ := (stopped_mem_step_iff (running_of_mem_attempts hx)).mpr hfails
      exact ⟨cause, List.mem_flatMap.mpr ⟨x, hx, hmem⟩⟩
    · rintro ⟨cause, hmem⟩
      obtain ⟨x, hx, hmem⟩ := List.mem_flatMap.mp hmem
      exact ⟨x, hx, (stopped_mem_step_iff (running_of_mem_attempts hx)).mp ⟨cause, hmem⟩⟩

/-- The operation is a reset that succeeds. -/
def RestartsIn (m : Machine τ) (op : Operation σ) : Prop :=
  ∃ rom, op = .reset rom ∧ (m.reset rom).result = .ok ()

/-- Work halts a machine exactly when an instruction fails in it. -/
def HaltsByFailure (m : Machine τ) (attempts : List (Machine τ)) (m' : Machine τ) : Prop :=
  m'.halted = true ↔ m.halted = true ∨ ∃ x ∈ attempts, ∃ failure, x.step.result = .error failure

theorem haltsByFailure_law : Law σ (HaltsByFailure (τ := τ)) where
  refl m := by simp [HaltsByFailure]
  trans := by
    intro m₁ m₂ m₃ xs ys hfirst hsecond
    unfold HaltsByFailure at *
    rw [hsecond, hfirst]
    simp only [List.mem_append, or_and_right, exists_or, or_assoc]
  advance m delta := by simp [HaltsByFailure]
  countDown m ticks := by simp [HaltsByFailure]
  step m hrunning := by
    rcases step_cases hrunning with ⟨cause, -, hm⟩ | ⟨t, op, -, hm⟩
    · simp [HaltsByFailure, hm]
    · simp [HaltsByFailure, hm, hrunning, pollKeys_eq]

/-- A reset that succeeds sets a machine going again; one that fails does not. -/
theorem reset_halted_iff (m : Machine τ) (rom : Option (List Byte)) :
    (m.reset rom).machine.halted = true ↔
      m.halted = true ∧ (m.reset rom).result ≠ .ok () := by
  cases hstate : initialState m.seed (rom.getD m.rom) m.dialect m.stackLimit with
  | error cause =>
    rw [reset_of_error hstate]
    simp [Outcome.refused]
  | ok s =>
    rw [reset_of_ok hstate]
    simp

/-- After an operation a machine is halted if it was before, or an instruction failed, unless it
has just started over. -/
theorem perform_halted_iff (m : Machine τ) (op : Operation σ) :
    (m.perform op).machine.halted = true ↔
      (m.halted = true ∨ m.FailsIn op) ∧ ¬ m.RestartsIn op := by
  rcases op.reset_or_other with ⟨rom, rfl⟩ | hother
  · have hrestarts : m.RestartsIn (.reset rom : Operation σ) ↔ (m.reset rom).result = .ok () := by
      simp [RestartsIn]
    rw [hrestarts, or_iff_left (m.not_failsIn_reset rom)]
    exact m.reset_halted_iff rom
  · have hrestarts : ¬ m.RestartsIn op := fun ⟨rom, hop, _⟩ => hother rom hop
    have hlaw : m.HaltsByFailure (m.attempts op) (m.perform op).machine :=
      haltsByFailure_law.perform (fun m keypad held pressed => by simp [HaltsByFailure]) m hother
    rw [and_iff_left hrestarts]
    exact hlaw

/-! ## Many operations -/

/-- None of the operations is a reset that succeeds. -/
def NeverRestarts (m : Machine τ) (script : Script σ) : Prop :=
  ∀ before change op later, script = before ++ (change, op) :: later →
    ¬ ((m.after before).withKeys change).RestartsIn op

/-- An instruction has failed in one of the operations, and no reset since then has succeeded. -/
def FailedSinceStart (m : Machine τ) (script : Script σ) : Prop :=
  ∃ before change op later, script = before ++ (change, op) :: later ∧
    ((m.after before).withKeys change).FailsIn op ∧
    (m.after (before ++ [(change, op)])).NeverRestarts later

theorem neverRestarts_nil (m : Machine τ) : m.NeverRestarts ([] : Script σ) := by
  intro before change op later hscript
  cases before <;> cases hscript

/-- Restarts in a script, told by its first operation and the others. -/
theorem neverRestarts_cons {m : Machine τ} {change : Keypad → Keypad} {op : Operation σ}
    {rest : Script σ} :
    m.NeverRestarts ((change, op) :: rest) ↔
      ¬ (m.withKeys change).RestartsIn op ∧
        ((m.withKeys change).perform op).machine.NeverRestarts rest := by
  constructor
  · intro h
    refine ⟨h [] change op rest rfl, ?_⟩
    intro before change' op' later hrest
    exact h ((change, op) :: before) change' op' later (by rw [hrest]; rfl)
  · rintro ⟨hfirst, hrest⟩ before change' op' later hscript
    cases before with
    | nil =>
      cases hscript
      exact hfirst
    | cons turn before =>
      cases hscript
      exact hrest before change' op' later rfl

/-- A failure that no restart has followed, told by the first operation and the others. -/
theorem failedSinceStart_cons {m : Machine τ} {change : Keypad → Keypad} {op : Operation σ}
    {rest : Script σ} :
    m.FailedSinceStart ((change, op) :: rest) ↔
      ((m.withKeys change).FailsIn op ∧
          ((m.withKeys change).perform op).machine.NeverRestarts rest) ∨
        ((m.withKeys change).perform op).machine.FailedSinceStart rest := by
  constructor
  · rintro ⟨before, change', op', later, hscript, hfails, hlater⟩
    cases before with
    | nil =>
      cases hscript
      exact Or.inl ⟨hfails, hlater⟩
    | cons turn before =>
      cases hscript
      exact Or.inr ⟨before, change', op', later, rfl, hfails, hlater⟩
  · rintro (⟨hfails, hrest⟩ | ⟨before, change', op', later, rfl, hfails, hlater⟩)
    · exact ⟨[], change, op, rest, rfl, hfails, hrest⟩
    · exact ⟨(change, op) :: before, change', op', later, rfl, hfails, hlater⟩

/-- A machine that fails in an operation does not start over in it. -/
theorem FailsIn.not_restartsIn {m : Machine τ} {op : Operation σ} (hfails : m.FailsIn op) :
    ¬ m.RestartsIn op := by
  rintro ⟨rom, rfl, -⟩
  exact m.not_failsIn_reset rom hfails

/-- After many operations a machine is halted if it was before and has not started over, or if an
instruction has failed and it has not started over since. -/
theorem after_halted_iff (m : Machine τ) (script : Script σ) :
    (m.after script).halted = true ↔
      (m.halted = true ∧ m.NeverRestarts script) ∨ m.FailedSinceStart script := by
  induction script generalizing m with
  | nil =>
    have hnone : ¬ m.FailedSinceStart ([] : Script σ) := by
      rintro ⟨before, change, op, later, hscript, -⟩
      cases before <;> cases hscript
    rw [or_iff_left hnone, and_iff_left m.neverRestarts_nil]
    rfl
  | cons turn rest ih =>
    obtain ⟨change, op⟩ := turn
    have hturn := (m.withKeys change).perform_halted_iff op
    have hhalted : (m.withKeys change).halted = m.halted := rfl
    have hfails : (m.withKeys change).FailsIn op ∧ ¬ (m.withKeys change).RestartsIn op ↔
        (m.withKeys change).FailsIn op := and_iff_left_of_imp FailsIn.not_restartsIn
    -- A failing operation is no reset, so both sides split alike over what the first one did.
    rw [after, ih, hturn, hhalted, neverRestarts_cons, failedSinceStart_cons, or_and_right, hfails,
      or_and_right, and_assoc, or_assoc]

end Machine

/-! ## Sessions -/

namespace Session

variable {σ τ : Type}

theorem observe_nil (s : Session τ) : s.observe [] = (s, "") := by
  obtain ⟨machine, console, display, tones⟩ := s
  cases display <;> cases tones <;> simp [observe, Console.logEvents, Recording.observeAll]

variable [ClockNumber τ] [HostAmount σ τ]

/-- What a step that fails leaves of a session. The fault goes to the console, but it is no call of
the display and no tone. -/
theorem perform_step_of_failure {s : Session τ} {failure : Failure}
    (hrunning : s.machine.halted = false)
    (hfails : (s.perform (.step : Operation σ)).2.result = .error failure) :
    ∃ cause, failure = .fault cause ∧
      (s.perform (.step : Operation σ)).1.machine = { s.machine with
        halted := true
        keypad := s.machine.keypad.poll.2
        state := { s.machine.state with
          held := s.machine.keyAnswer.1, pressed := s.machine.keyAnswer.2 } } ∧
      (s.perform (.step : Operation σ)).1.display = s.display ∧
      (s.perform (.step : Operation σ)).1.tones = s.tones := by
  change s.machine.step.result.map Answer.opcode = .error failure at hfails
  rcases Machine.step_cases hrunning with ⟨cause, -, hm⟩ | ⟨t, op, -, hm⟩
  · rw [hm] at hfails
    cases hfails
    refine ⟨cause, rfl, ?_, ?_, ?_⟩
    · change s.machine.step.machine = _
      rw [hm]
      rfl
    · change s.display.map (fun r => r.observeAll s.machine.step.events) = s.display
      rw [hm]
      cases s.display with
      | none => rfl
      | some r => rfl
    · change s.tones.map (fun played => played ++ s.machine.step.events.filterMap toneOf?) = s.tones
      rw [hm]
      cases s.tones with
      | none => rfl
      | some played => exact congrArg some (List.append_nil played)
  · rw [hm] at hfails
    cases hfails

/-- The operation is refused because the machine is halted: nobody is shown anything, and the
machine, its keypad included, is what it was. -/
def Refuses (s : Session τ) (op : Operation σ) : Prop :=
  s.perform op = (s, ⟨.error (.fault Fault.machineHalted), ""⟩)

/-- A session whose machine has halted refuses steps and updates. -/
theorem refuses_of_halted {s : Session τ} (hhalted : s.machine.halted = true) :
    s.Refuses (.step : Operation σ) ∧ ∀ delta : σ, s.Refuses (.update delta) := by
  have hrefused {op : Operation σ}
      (hop : s.machine.perform op = .refused s.machine (.fault Fault.machineHalted)) :
      s.Refuses op := by
    unfold Refuses perform
    rw [hop]
    change ((s.observe []).1, Reply.mk _ (s.observe []).2) = _
    rw [s.observe_nil]
    rfl
  constructor
  · refine hrefused ?_
    rw [Machine.perform, Machine.step_of_halted hhalted]
    rfl
  · intro delta
    refine hrefused ?_
    rw [Machine.perform, (Machine.update_of_halted hhalted delta).1]
    rfl

/-- A step that fails halts the machine of a session, which keeps everything but the keys that were
read, and calls neither the display nor the loudspeaker. As long as no reset succeeds, whatever else
is done and whatever happens to the keypad, steps and updates are refused and change nothing. And a
machine that has been built is halted exactly when one of its instructions has failed since it was
built or, later, since it last started over. -/
theorem halts_until_restart :
    (∀ (s : Session τ) (failure : Failure), s.machine.halted = false →
      (s.perform (.step : Operation σ)).2.result = .error failure →
      ∃ cause, failure = .fault cause ∧
        (s.perform (.step : Operation σ)).1.machine = { s.machine with
          halted := true
          keypad := s.machine.keypad.poll.2
          state := { s.machine.state with
            held := s.machine.keyAnswer.1, pressed := s.machine.keyAnswer.2 } } ∧
        (s.perform (.step : Operation σ)).1.display = s.display ∧
        (s.perform (.step : Operation σ)).1.tones = s.tones) ∧
    (∀ (s : Session τ) (script : Script σ) (change : Keypad → Keypad),
      s.machine.halted = true → s.machine.NeverRestarts script →
      ((s.after script).withKeys change).Refuses (.step : Operation σ) ∧
        ∀ delta : σ, ((s.after script).withKeys change).Refuses (.update delta)) ∧
    ∀ (setup : Setup σ) (m₀ : Machine τ) (events : List Event),
      Machine.boot setup = .ok (m₀, events) → ∀ script : Script σ,
      (m₀.after script).halted = true ↔ m₀.FailedSinceStart script := by
  refine ⟨?_, ?_, ?_⟩
  · intro s failure hrunning hfails
    exact perform_step_of_failure hrunning hfails
  · intro s script change hhalted hnever
    refine refuses_of_halted ?_
    change (s.after script).machine.halted = true
    rw [machine_after]
    exact (Machine.after_halted_iff s.machine script).mpr (Or.inl ⟨hhalted, hnever⟩)
  · intro setup m₀ events hboot script
    obtain ⟨timers, seed, state, -, -, -, rfl, -⟩ := Machine.boot_eq_ok_iff.mp hboot
    rw [Machine.after_halted_iff]
    refine or_iff_right ?_
    rintro ⟨hhalted, -⟩
    cases hhalted

/-- A program that returns without a call, with a display and a loudspeaker. After the fault time
passes and a key goes down, and the machine still refuses to step. -/
theorem halts_until_restart_of_return : ∃ (s : Session Float) (text : String),
    start { Setup.standard with rom := [0x00, 0xEE] }
      (.ofLogger ⟨"chipvm", .critical, false, false, false⟩ []) (some .blank) (some []) =
        .ok (s, text) ∧
      (s.perform (.step : Operation Amount)).2.result = .error (.fault (.stackUnderflow 0x200)) ∧
      (s.perform (.step : Operation Amount)).1.display = s.display ∧
      (∀ change, Refuses (((s.perform (.step : Operation Amount)).1.after
        [((·.press 5), .update (Amount.whole 1)), (id, .press 7)]).withKeys change)
        (.step : Operation Amount)) ∧
      s.machine.FailedSinceStart [(id, (.step : Operation Amount))] := by
  have hok : ∃ started : Session Float × String,
      start { Setup.standard with rom := [0x00, 0xEE] }
        (.ofLogger ⟨"chipvm", .critical, false, false, false⟩ []) (some .blank) (some []) =
          .ok started :=
    exists_eq_ok (by decide +kernel)
  obtain ⟨⟨s, text⟩, hstart⟩ := hok
  obtain ⟨m₀, events, hboot, hobserve⟩ := start_eq_ok_iff.mp hstart
  have hmachine : m₀ = s.machine := congrArg (fun started => started.1.machine) hobserve
  have hfacts : (Machine.boot { Setup.standard with rom := [0x00, 0xEE] }).map (fun started =>
      (started.1.halted, (started.1.perform (.step : Operation Amount)).result,
        (started.1.after [(id, (.step : Operation Amount))]).halted)) =
      .ok (false, .error (.fault (.stackUnderflow 0x200)), true) := by
    decide +kernel
  rw [hboot, hmachine] at hfacts
  obtain ⟨hrunning, hrest⟩ := Prod.mk.inj (Except.ok.inj hfacts)
  obtain ⟨hresult, hafter⟩ := Prod.mk.inj hrest
  obtain ⟨hfailure, hrefuses, hreachable⟩ := halts_until_restart (σ := Amount) (τ := Float)
  obtain ⟨cause, -, hm, hdisplay, -⟩ := hfailure s _ hrunning hresult
  refine ⟨s, text, hstart, hresult, hdisplay, ?_, ?_⟩
  · intro change
    refine (hrefuses _ _ change ?_ ?_).1
    · rw [hm]
    · refine Machine.neverRestarts_cons.mpr ⟨by simp [Machine.RestartsIn], ?_⟩
      refine Machine.neverRestarts_cons.mpr ⟨by simp [Machine.RestartsIn], ?_⟩
      exact Machine.neverRestarts_nil _
  · rw [hmachine] at hboot
    exact (hreachable _ _ events hboot _).mp hafter

end Session

end ChipEight
