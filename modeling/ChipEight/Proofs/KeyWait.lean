import ChipEight.Proofs.Bounds
import ChipEight.Proofs.Halting
import ChipEight.Proofs.WordPatterns

/-!
# Waiting for a key

`FX0A` waits by coming again: without a key the program counter goes back over the word that it has
just passed. Both moves wrap at the end of memory and cancel from every address, so a machine that
waits is after a step where it was, with one more step counted. Only keys that are newly pressed end
the wait, however many are held.

* `State.rewind_advance`: going on and back again.
* `State.Waits.step_of_none`, `State.Waits.step_of_some`: the two steps of a state that waits.
* `Machine.Sound.after`: whatever is done to a machine, its program counter stays an address.
* `Session.stalledFor_after`: steps in a row without a new key.
* `Session.key_wait_stalls`: the whole wait of a session, and its end.
-/

namespace ChipEight

namespace Keys

/-- The key is the smallest of those for which the answer is yes. -/
structure Smallest (k : Keys) (key : Nibble) : Prop where
  mem : key ∈ k.toList
  le : ∀ other ∈ k.toList, key ≤ other

/-- The first of the keys in their order is the smallest. -/
theorem smallest_of_head? {k : Keys} {key : Nibble} (hhead : k.toList.head? = some key) :
    k.Smallest key := by
  obtain ⟨rest, hlist⟩ := List.head?_eq_some_iff.mp hhead
  have hsorted : k.toList.Pairwise (· < ·) := (List.pairwise_lt_finRange 16).filter _
  rw [hlist, List.pairwise_cons] at hsorted
  refine ⟨List.mem_of_head? hhead, ?_⟩
  intro other hother
  rw [hlist] at hother
  rcases List.mem_cons.mp hother with rfl | hrest
  · exact Fin.le_refl _
  · exact Fin.le_of_lt (hsorted.1 other hrest)

theorem toList_none : none.toList = [] := by decide

theorem exists_head?_of_ne_none {k : Keys} (hk : k ≠ none) :
    ∃ key, k.toList.head? = some key := by
  cases hlist : k.toList with
  | cons key rest => exact ⟨key, rfl⟩
  | nil =>
    refine absurd (Vector.ext fun i hi => ?_) hk
    have hno : ¬ k[(⟨i, hi⟩ : Nibble)] = true := by
      rw [← mem_toList, hlist]
      exact List.not_mem_nil
    rw [none, Vector.getElem_replicate]
    exact eq_false_of_ne_true hno

end Keys

theorem Opcode.instruction?_eq_awaitKey_iff (op : Opcode) (x : Nibble) :
    op.instruction? = some (.awaitKey x) ↔ Fits op.word.toNat "FX0A" ∧ op.x = x :=
  instruction?_eq_iff_of_lastByte (f := 15) (y := 0) (n := 10) (by decide) rfl rfl

/-! ## States that wait -/

namespace State

variable {w h : Nat} {s : State w h}

/-- Moving on and going back cancel, at the end of memory too. -/
theorem rewind_advance (hpc : s.pc.toNat < 4096) : s.advance.rewind = s := by
  -- A counter beyond memory would not come back: both moves cut it to an address.
  have hback : (Address.ofWord s.advance.pc - 2).toWord = s.pc := by
    rw [← UInt16.toNat_inj, advance, Address.ofWord_toWord, Address.toNat_toWord, Fin.sub_def]
    simp only [Fin.val_add, Address.val_ofWord]
    omega
  rw [rewind, hback]
  rfl

/-- The program counter is an address, and the word there waits for a key. -/
structure Waits (s : State w h) : Prop where
  pc_lt : s.pc.toNat < 4096
  fits : Fits s.nextOpcode.word.toNat "FX0A"

theorem Waits.snapshot (hs : s.Waits) (held pressed : Keys) :
    Waits { s with held, pressed } := ⟨hs.pc_lt, hs.fits⟩

/-- A waiting state has nothing to do but to ask for a key. -/
theorem Waits.step_eq (hs : s.Waits) :
    s.step = .ok (s.advance.awaitKey s.nextOpcode.x, s.nextOpcode) := by
  have hop := (s.nextOpcode.instruction?_eq_awaitKey_iff s.nextOpcode.x).mpr ⟨hs.fits, rfl⟩
  exact step_eq_ok_iff.mpr ⟨rfl, execute_eq_ok_iff.mpr ⟨_, hop, rfl⟩⟩

theorem Waits.step_of_none (hs : s.Waits) (hnone : s.pressed = Keys.none) :
    s.step = .ok (s, s.nextOpcode) := by
  have hawait : s.advance.awaitKey s.nextOpcode.x = s.advance.rewind := by
    have hpressed : s.advance.pressed = Keys.none := hnone
    rw [awaitKey, hpressed, Keys.toList_none]
    rfl
  rw [hs.step_eq, hawait, rewind_advance hs.pc_lt]

theorem Waits.step_of_some (hs : s.Waits) {key : Nibble}
    (hfirst : s.pressed.toList.head? = some key) :
    s.step = .ok (s.advance.setV s.nextOpcode.x (UInt8.ofNat key.val), s.nextOpcode) := by
  have hawait : s.advance.awaitKey s.nextOpcode.x =
      s.advance.setV s.nextOpcode.x (UInt8.ofNat key.val) := by
    have hpressed : s.advance.pressed.toList.head? = some key := hfirst
    rw [awaitKey, hpressed]
  rw [hs.step_eq, hawait]

end State

/-- Steps, each with what happens to the keypad before it. -/
def Script.steps {σ : Type} (changes : List (Keypad → Keypad)) : Script σ :=
  changes.map fun change => (change, .step)

/-! ## Machines that wait -/

namespace Machine

variable {σ τ : Type} {m : Machine τ}

/-- The machine runs, and its next instruction waits for a key. -/
structure Waits (m : Machine τ) : Prop where
  running : m.halted = false
  state : m.state.Waits

theorem Waits.withKeys (hm : m.Waits) (change : Keypad → Keypad) : (m.withKeys change).Waits :=
  ⟨hm.running, hm.state⟩

theorem Waits.effects_eq (hm : m.Waits) (s t : State screenWidth screenHeight) :
    effects s t m.state.nextOpcode.instruction? = [] := by
  rw [(Opcode.instruction?_eq_awaitKey_iff _ _).mpr ⟨hm.state.fits, rfl⟩]
  rfl

theorem Waits.step_of_none (hm : m.Waits) (hnone : m.keyAnswer.2 = Keys.none) :
    m.step = ⟨{ m.pollKeys with steps := m.steps + 1 },
      [.executed m.state.pc m.state.nextOpcode], .ok m.state.nextOpcode⟩ := by
  have hpolled : m.pollKeys.state.Waits := hm.state.snapshot _ _
  rw [step_of_ok hm.running (hpolled.step_of_none hnone)]
  exact congrArg (fun events => Outcome.mk _ (_ :: events) _) (hm.effects_eq _ _)

theorem Waits.step_of_some (hm : m.Waits) {key : Nibble}
    (hfirst : m.keyAnswer.2.toList.head? = some key) :
    m.step = ⟨{ m.pollKeys with
        state := m.pollKeys.state.advance.setV m.state.nextOpcode.x (UInt8.ofNat key.val)
        steps := m.steps + 1 },
      [.executed m.state.pc m.state.nextOpcode], .ok m.state.nextOpcode⟩ := by
  have hpolled : m.pollKeys.state.Waits := hm.state.snapshot _ _
  rw [step_of_ok hm.running (hpolled.step_of_some hfirst)]
  exact congrArg (fun events => Outcome.mk _ (_ :: events) _) (hm.effects_eq _ _)

/-! ### The program counter -/

/-- The state is sound for the stack limit and the dialect that the machine was built with. -/
def Sound (m : Machine τ) : Prop := m.state.Sound m.stackLimit m.dialect

theorem Sound.snapshot (hm : m.Sound) (keypad : Keypad) (held pressed : Keys) :
    Sound { m with keypad, state := { m.state with held, pressed } } :=
  ⟨hm.pc_lt, hm.proper, hm.limit_eq, hm.dialect_eq⟩

variable [ClockNumber τ] [HostAmount σ τ]

/-- No work leads a machine out of the sound states. -/
theorem sound_law : Law σ (fun (m : Machine τ) _ m' => m.Sound → m'.Sound) where
  refl m := id
  trans := fun hfirst hsecond hm => hsecond (hfirst hm)
  advance m delta := id
  countDown m ticks := fun hm => ⟨hm.pc_lt, hm.proper, hm.limit_eq, hm.dialect_eq⟩
  step m hrunning := by
    intro hm
    have hpolled : m.pollKeys.Sound := hm.snapshot _ _ _
    rcases step_cases hrunning with ⟨cause, -, hstep⟩ | ⟨t, op, ht, hstep⟩
    · rw [hstep]
      exact hpolled
    · rw [hstep]
      exact State.act_sound hpolled (State.act_step ht)

theorem Sound.perform (hm : m.Sound) (op : Operation σ) : (m.perform op).machine.Sound := by
  rcases op.reset_or_other with ⟨rom, rfl⟩ | hother
  · change (m.reset rom).machine.Sound
    cases hstate : initialState m.seed (rom.getD m.rom) m.dialect m.stackLimit with
    | error cause =>
      rw [reset_of_error hstate]
      exact hm
    | ok s =>
      rw [reset_of_ok hstate]
      exact State.create_sound hstate
  · exact sound_law.perform (fun m keypad held pressed hm => hm.snapshot _ _ _) m hother hm

theorem Sound.after (hm : m.Sound) (script : Script σ) : (m.after script).Sound := by
  induction script generalizing m with
  | nil => exact hm
  | cons turn rest ih =>
    have hkeys : (m.withKeys turn.1).Sound := hm
    exact ih (hkeys.perform turn.2)

/-- A new machine is sound. -/
theorem sound_of_boot {setup : Setup σ} {m₀ : Machine τ} {events : List Event}
    (hboot : Machine.boot setup = .ok (m₀, events)) : m₀.Sound := by
  obtain ⟨timers, seed, s, -, -, hstate, rfl, -⟩ := boot_eq_ok_iff.mp hboot
  exact State.create_sound hstate

/-! ### Keys read in steps -/

theorem pollsAlong_steps_cons (hrunning : m.halted = false) (change : Keypad → Keypad)
    (rest : List (Keypad → Keypad)) :
    m.pollsAlong (Script.steps (σ := σ) (change :: rest)) = (m.withKeys change).keyAnswer ::
      ((m.withKeys change).perform (.step : Operation σ)).machine.pollsAlong
        (Script.steps (σ := σ) rest) := by
  have hstill : (m.withKeys change).halted = false := hrunning
  have hpolls : (m.withKeys change).polls (.step : Operation σ) =
      [(m.withKeys change).keyAnswer] := by
    rw [polls, attempts, stepAttempts_one, hstill]
    · rfl
    · rintro ⟨⟩
  rw [Script.steps, List.map_cons, pollsAlong, hpolls]
  rfl

/-- Keys that are held, and whose presses have been answered before, are not newly pressed. -/
theorem Waits.pollsAlong_of_held (hm : m.Waits) (hfresh : m.keypad.fresh = Keys.none)
    {changes : List (Keypad → Keypad)} (hsame : ∀ change ∈ changes, change m.keypad = m.keypad) :
    ∀ answer ∈ m.pollsAlong (Script.steps (σ := σ) changes),
      answer = (m.keypad.held, Keys.none) := by
  induction changes generalizing m with
  | nil =>
    intro answer hanswer
    cases hanswer
  | cons change rest ih =>
    obtain ⟨hchange, hrest⟩ := List.forall_mem_cons.mp hsame
    have hkeys : m.withKeys change = m := by
      rw [Machine.withKeys, hchange]
      rfl
    -- With nothing new to report, a poll leaves the keypad as it is.
    have hstep := hm.step_of_none hfresh
    have hkeypad : m.step.machine.keypad = m.keypad := by
      rw [hstep]
      exact Keypad.ext rfl hfresh.symm
    have hwaits : m.step.machine.Waits := by
      rw [hstep]
      exact ⟨hm.running, hm.state.snapshot _ _⟩
    rw [pollsAlong_steps_cons hm.running, hkeys, List.forall_mem_cons]
    refine ⟨Prod.ext rfl hfresh, ?_⟩
    have hlater := ih hwaits (hkeypad ▸ hfresh) (hkeypad ▸ hrest)
    rw [hkeypad] at hlater
    exact hlater

end Machine

/-! ## Sessions that wait -/

namespace Session

variable {σ τ : Type} {s t u : Session τ}

/-- Between the two sessions lie steps that have come to nothing: keys have been read and the steps
counted, and neither the display nor the loudspeaker has been called. -/
structure StalledFor (count : Nat) (s t : Session τ) : Prop where
  machine : t.machine = { s.machine with
    keypad := t.machine.keypad
    state := { s.machine.state with
      held := t.machine.state.held, pressed := t.machine.state.pressed }
    steps := s.machine.steps + count }
  display : t.display = s.display
  tones : t.tones = s.tones

/-- Between the two sessions lies the step that has ended a wait: the register that the word names
has received a key and the program counter has moved on. -/
structure ReceivedKey (key : Nibble) (s t : Session τ) : Prop where
  received : (t.machine.state.v s.machine.state.nextOpcode.x).toNat = key.val
  others : ∀ j, j ≠ s.machine.state.nextOpcode.x → t.machine.state.v j = s.machine.state.v j
  pc : t.machine.state.pc.toNat = (s.machine.state.pc.toNat + 2) % 4096
  machine : t.machine = { s.machine with
    keypad := t.machine.keypad
    state := { s.machine.state with
      registers := t.machine.state.registers
      pc := t.machine.state.pc
      held := t.machine.state.held, pressed := t.machine.state.pressed }
    steps := s.machine.steps + 1 }
  display : t.display = s.display
  tones : t.tones = s.tones

theorem StalledFor.refl (s : Session τ) : StalledFor 0 s s := ⟨rfl, rfl, rfl⟩

/-- A machine that has stalled and goes on stalling has stalled all the time. -/
theorem StalledFor.trans {first second : Nat} (hfirst : StalledFor first s t)
    (hsecond : StalledFor second t u) : StalledFor (first + second) s u := by
  refine ⟨?_, hsecond.display.trans hfirst.display, hsecond.tones.trans hfirst.tones⟩
  rw [hsecond.machine, hfirst.machine]
  simp only [Nat.add_assoc]

theorem StalledFor.waits {count : Nat} (hstalled : StalledFor count s t)
    (hs : s.machine.Waits) : t.machine.Waits := by
  rw [hstalled.machine]
  exact ⟨hs.running, hs.state.snapshot _ _⟩

variable [ClockNumber τ] [HostAmount σ τ]

/-- That an instruction was executed is no call of a display and no tone. -/
theorem perform_step_of_executed {m : Machine τ} {address : Word} {op : Opcode}
    (hstep : s.machine.step = ⟨m, [.executed address op], .ok op⟩) :
    (s.perform (.step : Operation σ)).2.result = .ok (.opcode op) ∧
      (s.perform (.step : Operation σ)).1.machine = m ∧
      (s.perform (.step : Operation σ)).1.display = s.display ∧
      (s.perform (.step : Operation σ)).1.tones = s.tones := by
  have hperform : s.machine.perform (.step : Operation σ) =
      ⟨m, [.executed address op], .ok (.opcode op)⟩ := by
    rw [Machine.perform, hstep]
    rfl
  unfold perform
  rw [hperform]
  refine ⟨rfl, rfl, ?_, ?_⟩
  · change s.display.map (fun r => r.observeAll [.executed address op]) = s.display
    cases s.display <;> rfl
  · change s.tones.map (fun played => played ++ []) = s.tones
    cases s.tones with
    | none => rfl
    | some played => rw [Option.map_some, List.append_nil]

/-- A step without a new press leaves a waiting session as it was, but for the count of steps and
what is printed. -/
theorem stalledFor_step (hs : s.machine.Waits) (hnone : s.machine.keyAnswer.2 = Keys.none) :
    StalledFor 1 s (s.perform (.step : Operation σ)).1 := by
  obtain ⟨-, hmachine, hdisplay, htones⟩ :=
    perform_step_of_executed (σ := σ) (hs.step_of_none hnone)
  refine ⟨?_, hdisplay, htones⟩
  rw [hmachine]
  rfl

/-- A step with a new press takes the smallest key and ends the wait. -/
theorem receivedKey_step (hs : s.machine.Waits) {key : Nibble}
    (hfirst : s.machine.keyAnswer.2.toList.head? = some key) :
    (s.perform (.step : Operation σ)).2.result = .ok (.opcode s.machine.state.nextOpcode) ∧
      ReceivedKey key s (s.perform (.step : Operation σ)).1 := by
  obtain ⟨hresult, hmachine, hdisplay, htones⟩ :=
    perform_step_of_executed (σ := σ) (hs.step_of_some hfirst)
  refine ⟨hresult, ?_, ?_, ?_, ?_, hdisplay, htones⟩
  · have hkey : (UInt8.ofNat key.val).toNat = key.val := by
      rw [UInt8.toNat_ofNat']
      omega
    rw [hmachine, State.v_setV, if_pos rfl, hkey]
  · intro j hj
    rw [hmachine, State.v_setV, if_neg (Ne.symm hj)]
    rfl
  · rw [hmachine]
    exact s.machine.pollKeys.state.advance_pc_toNat
  · rw [hmachine]
    rfl

/-- Steps in a row without a new key leave a session that waits as it was. -/
theorem stalledFor_after {changes : List (Keypad → Keypad)} (hs : s.machine.Waits)
    (hnone : ∀ answer ∈ s.machine.pollsAlong (Script.steps (σ := σ) changes),
      answer.2 = Keys.none) :
    StalledFor changes.length s (s.after (Script.steps (σ := σ) changes)) := by
  induction changes generalizing s with
  | nil => exact StalledFor.refl s
  | cons change rest ih =>
    have hwaits : (s.withKeys change).machine.Waits := hs.withKeys change
    rw [Machine.pollsAlong_steps_cons hs.running, List.forall_mem_cons] at hnone
    obtain ⟨hfirst, hrest⟩ := hnone
    have hstep : StalledFor 1 (s.withKeys change)
        ((s.withKeys change).perform (.step : Operation σ)).1 := stalledFor_step hwaits hfirst
    have hkeys : StalledFor 0 s (s.withKeys change) := ⟨rfl, rfl, rfl⟩
    have hturn := hkeys.trans hstep
    have hlater := ih (hturn.waits hs) hrest
    rw [List.length_cons, Nat.add_comm]
    exact hturn.trans hlater

/-- Wherever a program has led a session, if its next word waits for a key, then steps without a new
key, however many, leave everything as it was, the display and the loudspeaker too; the first step
that finds new keys gives the smallest of them to the register and goes on behind the word; and keys
that are held, with nothing new about them, let it wait. -/
theorem key_wait_stalls {setup : Setup σ} {console : Console} {display : Option Recording}
    {tones : Option (List Byte)} {s₀ : Session τ} {text : String} {script : Script σ}
    (hstart : start setup console display tones = .ok (s₀, text)) (hs : s₀.after script = s)
    (hrunning : s.machine.halted = false)
    (hword : Fits s.machine.state.nextOpcode.word.toNat "FX0A") :
    (∀ changes : List (Keypad → Keypad),
      (∀ answer ∈ s.machine.pollsAlong (Script.steps (σ := σ) changes), answer.2 = Keys.none) →
      ∃ t, s.after (Script.steps (σ := σ) changes) = t ∧ StalledFor changes.length s t ∧
        ∀ change : Keypad → Keypad, (t.withKeys change).machine.keyAnswer.2 ≠ Keys.none →
          ∃ key, (t.withKeys change).machine.keyAnswer.2.Smallest key ∧
            ((t.withKeys change).perform (.step : Operation σ)).2.result =
              .ok (.opcode s.machine.state.nextOpcode) ∧
            ReceivedKey key t ((t.withKeys change).perform (.step : Operation σ)).1) ∧
    (s.machine.keypad.fresh = Keys.none → ∀ changes : List (Keypad → Keypad),
      (∀ change ∈ changes, change s.machine.keypad = s.machine.keypad) →
      StalledFor changes.length s (s.after (Script.steps (σ := σ) changes))) := by
  obtain ⟨m₀, events, hboot, hobserve⟩ := start_eq_ok_iff.mp hstart
  have hmachine : m₀.after script = s.machine := by
    rw [← hs, machine_after]
    exact congrArg (fun started => started.1.machine.after script) hobserve
  have hpc : s.machine.state.pc.toNat < 4096 :=
    hmachine ▸ ((Machine.sound_of_boot hboot).after script).pc_lt
  have hwaits : s.machine.Waits := ⟨hrunning, hpc, hword⟩
  constructor
  · intro changes hnone
    have hstalled := stalledFor_after hwaits hnone
    refine ⟨_, rfl, hstalled, ?_⟩
    intro change hnew
    obtain ⟨key, hfirst⟩ := Keys.exists_head?_of_ne_none hnew
    generalize s.after (Script.steps (σ := σ) changes) = t at hstalled hnew hfirst ⊢
    have hstill := hstalled.waits hwaits
    have hkeys : (t.withKeys change).machine.Waits := hstill.withKeys change
    obtain ⟨hresult, hreceived⟩ := receivedKey_step (σ := σ) hkeys hfirst
    have hopcode : t.machine.state.nextOpcode = s.machine.state.nextOpcode := by
      rw [hstalled.machine]
      rfl
    refine ⟨key, Keys.smallest_of_head? hfirst, ?_, ?_⟩
    · rw [hresult, ← hopcode]
      rfl
    · exact ⟨hreceived.received, hreceived.others, hreceived.pc, hreceived.machine,
        hreceived.display, hreceived.tones⟩
  · intro hfresh changes hsame
    refine stalledFor_after hwaits ?_
    intro answer hanswer
    rw [hwaits.pollsAlong_of_held hfresh hsame answer hanswer]

/-- A wait on the last byte of memory, whose word ends at the first. Key 5 is held from before, and
after two steps in vain keys 9 and 7 go down. -/
theorem key_wait_stalls_of_wrap : ∃ (s₀ s t : Session Float) (text : String),
    start { Setup.standard with
        rom := [0x60, 0xF3, 0x61, 0x0A, 0xAF, 0xFF, 0xF1, 0x55, 0x1F, 0xFF] }
      (.ofLogger ⟨"chipvm", .critical, false, false, false⟩ []) (some .blank) (some []) =
        .ok (s₀, text) ∧
      s₀.after (Script.steps (σ := Amount) [(·.press 5), id, id, id, id]) = s ∧
      s.machine.halted = false ∧ s.machine.state.pc = 0xFFF ∧
      Fits s.machine.state.nextOpcode.word.toNat "FX0A" ∧
      s.after (Script.steps (σ := Amount) [id, (·.press 5)]) = t ∧ StalledFor 2 s t ∧
      t.machine.keypad.isHeld 5 = true ∧
      ReceivedKey 7 t (((t.withKeys fun k => (k.press 9).press 7).perform
        (.step : Operation Amount)).1) := by
  have hok : ∃ started : Session Float × String,
      start { Setup.standard with
          rom := [0x60, 0xF3, 0x61, 0x0A, 0xAF, 0xFF, 0xF1, 0x55, 0x1F, 0xFF] }
        (.ofLogger ⟨"chipvm", .critical, false, false, false⟩ []) (some .blank) (some []) =
          .ok started :=
    exists_eq_ok (by decide +kernel)
  obtain ⟨⟨s₀, text⟩, hstart⟩ := hok
  obtain ⟨m₀, events, hboot, hobserve⟩ := start_eq_ok_iff.mp hstart
  have hmachine : m₀ = s₀.machine := congrArg (fun started => started.1.machine) hobserve
  have hfacts : (Machine.boot { Setup.standard with
        rom := [0x60, 0xF3, 0x61, 0x0A, 0xAF, 0xFF, 0xF1, 0x55, 0x1F, 0xFF] }).map (fun started =>
      let m := started.1.after (Script.steps (σ := Amount) [(·.press 5), id, id, id, id])
      let m' := m.after (Script.steps (σ := Amount) [id, (·.press 5)])
      (m.halted, m.state.pc, m.state.nextOpcode.word,
        (m.pollsAlong (Script.steps (σ := Amount) [id, (·.press 5)])).map Prod.snd, m'.keypad)) =
      .ok (false, 0xFFF, 0xF30A, [Keys.none, Keys.none], (Keypad.idle.press 5).poll.2) := by
    decide +kernel
  rw [hboot, hmachine] at hfacts
  have hvalues := Except.ok.inj hfacts
  simp only [← machine_after, Prod.mk.injEq] at hvalues
  obtain ⟨hrunning, hpc, hopcode, hpolls, hkeypad⟩ := hvalues
  have hfits : Fits (s₀.after (Script.steps (σ := Amount)
      [(·.press 5), id, id, id, id])).machine.state.nextOpcode.word.toNat "FX0A" := by
    rw [hopcode]
    decide
  obtain ⟨hstall, -⟩ := key_wait_stalls hstart rfl hrunning hfits
  obtain ⟨t, ht, hstalled, hend⟩ := hstall [id, (·.press 5)] (by
    intro answer hanswer
    have hmem := List.mem_map_of_mem (f := Prod.snd) hanswer
    rw [hpolls] at hmem
    simpa using hmem)
  rw [ht] at hkeypad
  have hanswer : (t.withKeys fun k => (k.press 9).press 7).machine.keyAnswer.2 =
      ((Keypad.idle.press 9).press 7).fresh := by
    change ((t.machine.keypad.press 9).press 7).fresh = _
    rw [hkeypad]
    decide
  obtain ⟨key, hsmallest, -, hreceived⟩ := hend (fun k => (k.press 9).press 7) (by
    rw [hanswer]
    decide)
  rw [hanswer] at hsmallest
  obtain rfl : key = 7 := by
    have hleast : ∀ key ∈ ((Keypad.idle.press 9).press 7).fresh.toList, 7 ≤ key := by
      decide
    exact Fin.le_antisymm (hsmallest.le 7 (by decide)) (hleast key hsmallest.mem)
  refine ⟨s₀, _, t, text, hstart, rfl, hrunning, hpc, hfits, ht, hstalled, ?_, hreceived⟩
  rw [hkeypad]
  decide

end Session

end ChipEight
