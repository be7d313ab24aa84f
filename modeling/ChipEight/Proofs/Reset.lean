import ChipEight.Proofs.Bounds
import ChipEight.Proofs.KeyAnswers

/-!
# Starting over

A reset builds the state of a machine anew from its program, its dialect, its seed and the size of
its stack, none of which an operation changes but a reset that brings another program.

* `Memory.image_eq_error_iff`, `State.create_eq_error_iff`: a program is refused exactly when it is
  too long.
* `reset_unchanged_iff`: a reset that fails reports nothing and changes nothing but the program,
  which is then the one that was refused; so the next reset fails as well.
* `reset_loses_program`: a machine that could start over before a refused program, and cannot
  afterwards.
* `reset_is_fresh_start`: after a reset that succeeds, whatever has happened before, a machine is
  one that has just been built, but for the keypad, and does from then on what that one does.
-/

namespace ChipEight

/-! ## Programs that fit -/

namespace Memory

/-- Memory with a program: the font, the program at its place, and zeros elsewhere. -/
theorem image_eq (rom : List Byte) : image rom =
    if programCapacity < rom.length then .error (.romTooLarge rom.length programCapacity)
    else .ok ((blank.writeAll 0 font).writeAll programStart rom) := by
  have hstart : (programStart.val : Int) = 512 := rfl
  have hcapacity : programCapacity = 3584 := rfl
  have hlong : (512 + rom.length : Int) > 4096 ↔ 3584 < rom.length := by omega
  unfold image load store
  rw [hstart, hcapacity]
  simp only [hlong]
  rfl

/-- Only a program that is too long is refused, with its length. -/
theorem image_eq_error_iff {rom : List Byte} {f : Fault} :
    image rom = .error f ↔
      programCapacity < rom.length ∧ f = .romTooLarge rom.length programCapacity := by
  rw [image_eq]
  split
  case isTrue hlong => simp [hlong, eq_comm]
  case isFalse hfits => simp [hfits]

theorem image_eq_ok_iff {rom : List Byte} {m : Memory} : image rom = .ok m ↔
    rom.length ≤ programCapacity ∧ m = (blank.writeAll 0 font).writeAll programStart rom := by
  rw [image_eq, ← Nat.not_lt]
  split
  case isTrue hlong => simp [hlong]
  case isFalse hfits => simp [hfits, eq_comm]

end Memory

theorem State.create_eq_error_iff {w h : Nat} {random : RandomKey} {rom : List Byte}
    {dialect : Dialect} {limit : Nat} {f : Fault} :
    State.create w h random rom dialect limit = .error f ↔
      Memory.programCapacity < rom.length ∧
        f = .romTooLarge rom.length Memory.programCapacity := by
  rw [← Memory.image_eq_error_iff]
  unfold State.create
  rw [bind_eq_error_iff]
  simp [pure, Except.pure]

/-! ## Clocks that have run -/

section Clocks

variable {σ τ : Type} [ClockNumber τ] [HostAmount σ τ]

/-- A clock that takes a span changes nothing but its remainder. -/
theorem Clock.eq_of_advance {c c' : Clock τ} {delta : σ} {ticks : Int}
    (hadvance : c.advance delta = .ok (c', ticks)) : c' = { c with remainder := c'.remainder } := by
  obtain ⟨span, -, hticks⟩ := bind_eq_ok_iff.mp hadvance
  obtain ⟨count, -, hclock⟩ := bind_eq_ok_iff.mp hticks
  cases hclock
  rfl

/-- What time has passed does not show on a clock that is reset. -/
theorem Clock.reset_of_advance {c c' : Clock τ} {delta : σ} {ticks : Int}
    (hadvance : c.advance delta = .ok (c', ticks)) : c'.reset = c.reset := by
  rw [eq_of_advance hadvance]
  rfl

/-- What time has passed does not show on clocks that are reset, also if one of them has refused
it. -/
theorem Timers.reset_advance (t : Timers τ) (delta : σ) : (t.advance delta).1.reset = t.reset := by
  unfold advance
  cases hinstructions : t.instructions.advance delta with
  | error cause => rfl
  | ok first =>
    obtain ⟨instructions, due⟩ := first
    have hfirst := Clock.reset_of_advance hinstructions
    cases hcountdown : t.countdown.advance delta with
    | error cause =>
      change Timers.mk instructions.reset t.countdown.reset = t.reset
      rw [hfirst]
      rfl
    | ok second =>
      obtain ⟨countdown, decrements⟩ := second
      change Timers.mk instructions.reset countdown.reset = t.reset
      rw [hfirst, Clock.reset_of_advance hcountdown]
      rfl

/-- Clocks that have just been built have nothing to forget. -/
theorem Timers.reset_of_ofFrequencies {instructionHz timerHz : σ} {t : Timers τ}
    (ht : ofFrequencies instructionHz timerHz = .ok t) : t.reset = t := by
  have hclock {hz : σ} {c : Clock τ} (hc : Clock.ofFrequency hz = .ok c) : c.reset = c := by
    obtain ⟨frequency, -, hfrequency⟩ := bind_eq_ok_iff.mp hc
    cases hfrequency
    rfl
  obtain ⟨instructions, hinstructions, hrest⟩ := bind_eq_ok_iff.mp ht
  obtain ⟨countdown, hcountdown, htimers⟩ := bind_eq_ok_iff.mp hrest
  cases htimers
  change Timers.mk instructions.reset countdown.reset = _
  rw [hclock hinstructions, hclock hcountdown]

end Clocks

namespace Machine

variable {σ τ : Type}

theorem initialState_eq_error_iff {seed : Seed} {rom : List Byte} {dialect : Dialect} {limit : Nat}
    {f : Fault} :
    initialState seed rom dialect limit = .error f ↔
      Memory.programCapacity < rom.length ∧
        f = .romTooLarge rom.length Memory.programCapacity := State.create_eq_error_iff

/-- A program that fits has a state in which it starts. -/
theorem exists_initialState (seed : Seed) {rom : List Byte} (dialect : Dialect) (limit : Nat)
    (hfits : rom.length ≤ Memory.programCapacity) :
    ∃ s, initialState seed rom dialect limit = .ok s := by
  cases hstate : initialState seed rom dialect limit with
  | ok s => exact ⟨s, rfl⟩
  | error f =>
    obtain ⟨hlong, -⟩ := initialState_eq_error_iff.mp hstate
    omega

/-! ## Resets that fail -/

variable [ClockNumber τ]

/-- A reset fails exactly if the program to start with is too long. -/
theorem reset_result_eq_error_iff {m : Machine τ} {rom : Option (List Byte)} {failure : Failure} :
    (m.reset rom).result = .error failure ↔
      Memory.programCapacity < (rom.getD m.rom).length ∧
        failure = .fault (.romTooLarge (rom.getD m.rom).length Memory.programCapacity) := by
  cases hstate : initialState m.seed (rom.getD m.rom) m.dialect m.stackLimit with
  | error cause =>
    obtain ⟨hlong, rfl⟩ := initialState_eq_error_iff.mp hstate
    rw [reset_of_error hstate]
    simp [Outcome.refused, hlong, eq_comm]
  | ok s =>
    have hfits : ¬ Memory.programCapacity < (rom.getD m.rom).length := by
      intro hlong
      rw [initialState_eq_error_iff.mpr ⟨hlong, rfl⟩] at hstate
      cases hstate
    rw [reset_of_ok hstate]
    simp [hfits]

/-- A program that is too long is refused, and kept all the same. -/
theorem reset_of_long {m : Machine τ} {rom : List Byte}
    (hlong : Memory.programCapacity < rom.length) :
    m.reset (some rom) =
      ⟨{ m with rom }, [], .error (.fault (.romTooLarge rom.length Memory.programCapacity))⟩ :=
  reset_of_error (initialState_eq_error_iff.mpr ⟨hlong, rfl⟩)

/-- A program that does not fit is refused, whatever the machine, and all that is left of the
attempt is that it has become the program of the machine. So the machine is as it was exactly when
it had that program before, and the next reset without a program is refused for the same reason. -/
theorem reset_unchanged_iff {m : Machine τ} {rom : List Byte} {failure : Failure}
    (hfails : (m.reset (some rom)).result = .error failure) :
    Memory.programCapacity < rom.length ∧
      failure = .fault (.romTooLarge rom.length Memory.programCapacity) ∧
      (m.reset (some rom)).events = [] ∧
      (m.reset (some rom)).machine = { m with rom } ∧
      ((m.reset (some rom)).machine = m ↔ m.rom = rom) ∧
      ((m.reset (some rom)).machine.reset none).result = .error failure := by
  obtain ⟨hlong, hfailure⟩ := reset_result_eq_error_iff.mp hfails
  change Memory.programCapacity < rom.length at hlong
  have hreset := reset_of_long (m := m) hlong
  have hmachine : (m.reset (some rom)).machine = { m with rom } := by rw [hreset]
  refine ⟨hlong, hfailure, by rw [hreset], hmachine, ?_, ?_⟩
  · rw [hmachine]
    constructor
    · intro hsame
      rw [← hsame]
    · intro hrom
      subst hrom
      rfl
  · rw [hmachine]
    exact reset_result_eq_error_iff.mpr ⟨hlong, hfailure⟩

/-- A machine that runs a program of one instruction is given one that is a byte too long. -/
theorem reset_unchanged_iff_of_long : ∃ (m : Machine Float) (events : List Event),
    boot { Setup.standard with rom := [0x60, 0x01] } = .ok (m, events) ∧
      (m.reset (some (List.replicate 3585 0))).result = .error (.fault (.romTooLarge 3585 3584)) ∧
      ((m.reset (some (List.replicate 3585 0))).machine = m ↔
        m.rom = List.replicate 3585 0) := by
  have hok : ∃ started : Machine Float × List Event,
      boot { Setup.standard with rom := [0x60, 0x01] } = .ok started :=
    exists_eq_ok (by decide +kernel)
  obtain ⟨⟨m, events⟩, hboot⟩ := hok
  have hlength : (List.replicate 3585 (0 : Byte)).length = 3585 := List.length_replicate
  have hfails : (m.reset (some (List.replicate 3585 0))).result =
      .error (.fault (.romTooLarge 3585 3584)) := by
    refine reset_result_eq_error_iff.mpr ?_
    rw [Option.getD_some, hlength]
    exact ⟨by decide, rfl⟩
  obtain ⟨-, -, -, -, hsame, -⟩ := reset_unchanged_iff hfails
  exact ⟨m, events, hboot, hfails, hsame⟩

/-- The same machine could start over before; after the refusal it cannot. -/
theorem reset_loses_program : ∃ (m : Machine Float) (events : List Event),
    boot { Setup.standard with rom := [0x60, 0x01] } = .ok (m, events) ∧
      (m.reset none).result = .ok () ∧
      (m.reset (some (List.replicate 3585 0))).result = .error (.fault (.romTooLarge 3585 3584)) ∧
      (m.reset (some (List.replicate 3585 0))).machine ≠ m ∧
      ((m.reset (some (List.replicate 3585 0))).machine.reset none).result =
        .error (.fault (.romTooLarge 3585 3584)) := by
  have hok : ∃ started : Machine Float × List Event,
      boot { Setup.standard with rom := [0x60, 0x01] } = .ok started :=
    exists_eq_ok (by decide +kernel)
  obtain ⟨⟨m, events⟩, hboot⟩ := hok
  obtain ⟨timers, seed, state, -, -, hstate, rfl, -⟩ := boot_eq_ok_iff.mp hboot
  have hlength : (List.replicate 3585 (0 : Byte)).length = 3585 := List.length_replicate
  have hlong : Memory.programCapacity < (List.replicate 3585 (0 : Byte)).length := by
    rw [hlength]
    decide
  refine ⟨_, events, hboot, ?_, ?_, ?_, ?_⟩
  · rw [reset_of_ok (by exact hstate)]
  · rw [reset_of_long hlong, hlength]
    rfl
  · rw [reset_of_long hlong]
    intro hsame
    have hrom : List.replicate 3585 (0 : Byte) = [0x60, 0x01] := congrArg Machine.rom hsame
    rw [hrom] at hlength
    cases hlength
  · refine reset_result_eq_error_iff.mpr ?_
    rw [reset_of_long hlong, Option.getD_none, hlength]
    exact ⟨by decide, rfl⟩

/-! ## Resets that succeed -/

/-- What a reset reads of a machine, besides the program, is the same on both. The clocks may have
run: a reset forgets what they have kept. -/
structure BuiltAlike (m m' : Machine τ) : Prop where
  dialect : m.dialect = m'.dialect
  stackLimit : m.stackLimit = m'.stackLimit
  seed : m.seed = m'.seed
  timers : m.timers.reset = m'.timers.reset

namespace BuiltAlike

theorem refl (m : Machine τ) : BuiltAlike m m := ⟨rfl, rfl, rfl, rfl⟩

theorem trans {m₁ m₂ m₃ : Machine τ} (hfirst : BuiltAlike m₁ m₂) (hsecond : BuiltAlike m₂ m₃) :
    BuiltAlike m₁ m₃ where
  dialect := hfirst.dialect.trans hsecond.dialect
  stackLimit := hfirst.stackLimit.trans hsecond.stackLimit
  seed := hfirst.seed.trans hsecond.seed
  timers := hfirst.timers.trans hsecond.timers

end BuiltAlike

theorem reset_builtAlike (m : Machine τ) (rom : Option (List Byte)) :
    BuiltAlike m (m.reset rom).machine := by
  cases hstate : initialState m.seed (rom.getD m.rom) m.dialect m.stackLimit with
  | error cause =>
    rw [reset_of_error hstate]
    exact ⟨rfl, rfl, rfl, rfl⟩
  | ok s =>
    rw [reset_of_ok hstate]
    exact ⟨rfl, rfl, rfl, rfl⟩

variable [HostAmount σ τ]

/-- No work changes what a reset reads, the program apart. -/
theorem builtAlike_law : Law σ (fun (m : Machine τ) _ m' => BuiltAlike m m') where
  refl := BuiltAlike.refl
  trans := BuiltAlike.trans
  advance m delta := ⟨rfl, rfl, rfl, (m.timers.reset_advance delta).symm⟩
  countDown m ticks := ⟨rfl, rfl, rfl, rfl⟩
  step m hrunning := by
    rcases step_cases hrunning with ⟨cause, -, hm⟩ | ⟨t, op, -, hm⟩
    · rw [hm]
      exact ⟨rfl, rfl, rfl, rfl⟩
    · rw [hm]
      exact ⟨rfl, rfl, rfl, rfl⟩

theorem perform_builtAlike (m : Machine τ) (op : Operation σ) :
    BuiltAlike m (m.perform op).machine := by
  rcases op.reset_or_other with ⟨rom, rfl⟩ | hother
  · exact m.reset_builtAlike rom
  · exact builtAlike_law.perform (fun m keypad held pressed => ⟨rfl, rfl, rfl, rfl⟩) m hother

/-- So no history does. -/
theorem after_builtAlike (m : Machine τ) (history : Script σ) :
    BuiltAlike m (m.after history) := by
  induction history generalizing m with
  | nil => exact BuiltAlike.refl m
  | cons turn rest ih =>
    have hkeys : BuiltAlike m (m.withKeys turn.1) := ⟨rfl, rfl, rfl, rfl⟩
    have hturn := (m.withKeys turn.1).perform_builtAlike turn.2
    exact hkeys.trans (hturn.trans (ih _))

variable (σ) in
/-- What is done to the two machines in the same order comes to the same, whatever happens to the
keypads in between, as long as their polls are answered alike: the results, the events and the
machines after each operation, all but the keypads. The answers are those of one list, from its
start, so the machines are not asked to poll equally often. -/
def Indistinguishable (m m' : Machine τ) : Prop :=
  ∀ (script script' : Script σ) (answers : List (Keys × Keys)),
    script.map Prod.snd = script'.map Prod.snd →
    m.pollsAlong script <+: answers → m'.pollsAlong script' <+: answers →
    (m.follow script).map Outcome.blind = (m'.follow script').map Outcome.blind

/-- Whatever has been done to a machine, a reset with a program that fits succeeds and leaves the
machine that is built from the same setup with that program, but for the keypad; and from then on
the two cannot be told apart. -/
theorem reset_is_fresh_start {setup : Setup σ} {m₀ : Machine τ} {events : List Event}
    (hboot : boot setup = .ok (m₀, events)) (history : Script σ)
    {rom : List Byte} (hfits : rom.length ≤ Memory.programCapacity) :
    ∃ (fresh : Machine τ) (started : List Event),
      boot { setup with rom } = .ok (fresh, started) ∧
      (m₀.after history).reset (some rom) =
        ⟨{ fresh with keypad := (m₀.after history).keypad }, started, .ok ()⟩ ∧
      Indistinguishable σ ((m₀.after history).reset (some rom)).machine fresh := by
  obtain ⟨timers, seed, state₀, htimers, hsetup, -, rfl, -⟩ := boot_eq_ok_iff.mp hboot
  obtain ⟨state, hstate⟩ := exists_initialState seed setup.dialect setup.stackLimit hfits
  have hfresh : boot { setup with rom } =
      .ok (Machine.fresh { setup with rom } seed timers state,
        [.cleared, .started rom.length setup.dialect]) :=
    boot_eq_ok_iff.mpr ⟨timers, seed, state, htimers, hsetup, hstate, rfl, rfl⟩
  have halike := (Machine.fresh setup seed timers state₀).after_builtAlike history
  -- The machine has other keys and another past, but what a reset reads of it is that of the setup.
  generalize hafter : (Machine.fresh setup seed timers state₀).after history = m at halike ⊢
  have hreset : m.reset (some rom) =
      ⟨{ Machine.fresh { setup with rom } seed timers state with keypad := m.keypad },
        [.cleared, .started rom.length setup.dialect], .ok ()⟩ := by
    have hdialect : setup.dialect = m.dialect := halike.dialect
    have hlimit : setup.stackLimit = m.stackLimit := halike.stackLimit
    have hseed : seed = m.seed := halike.seed
    have hclocks : timers = m.timers.reset :=
      (Timers.reset_of_ofFrequencies htimers).symm.trans halike.timers
    rw [hdialect, hlimit, hseed] at hstate
    rw [reset_of_ok hstate, ← hclocks]
    simp only [Machine.fresh, Option.getD_some, hdialect, hlimit, hseed]
  refine ⟨_, _, hfresh, hreset, ?_⟩
  have hsame : (m.reset (some rom)).machine.blind =
      (Machine.fresh { setup with rom } seed timers state).blind := by
    rw [hreset]
    rfl
  intro script script' answers hops hpolls hpolls'
  exact follow_blind_eq hsame hops hpolls hpolls'

/-- A machine that a return without a call has halted, with a key down, is given another program. -/
theorem reset_is_fresh_start_of_halted :
    ∃ (m₀ m fresh : Machine Float) (events started : List Event),
      boot { Setup.standard with rom := [0x00, 0xEE] } = .ok (m₀, events) ∧
      m₀.after [((·.press 3), (.step : Operation Amount))] = m ∧
      m.halted = true ∧
      boot { Setup.standard with rom := [0x60, 0x01] } = .ok (fresh, started) ∧
      m.reset (some [0x60, 0x01]) = ⟨{ fresh with keypad := m.keypad }, started, .ok ()⟩ ∧
      Indistinguishable Amount (m.reset (some [0x60, 0x01])).machine fresh := by
  have hok : ∃ started : Machine Float × List Event,
      boot { Setup.standard with rom := [0x00, 0xEE] } = .ok started :=
    exists_eq_ok (by decide +kernel)
  obtain ⟨⟨m₀, events⟩, hboot⟩ := hok
  have hhalted : (boot { Setup.standard with rom := [0x00, 0xEE] }).map (fun started =>
      (started.1.after [((·.press 3), (.step : Operation Amount))]).halted) = .ok true := by
    decide +kernel
  rw [hboot] at hhalted
  have hfits : ([0x60, 0x01] : List Byte).length ≤ Memory.programCapacity := by decide
  obtain ⟨fresh, started, hfresh, hreset, hsame⟩ := reset_is_fresh_start hboot
    [((·.press 3), (.step : Operation Amount))] hfits
  exact ⟨m₀, _, fresh, events, started, hboot, rfl, Except.ok.inj hhalted, hfresh, hreset, hsame⟩

end Machine

end ChipEight
