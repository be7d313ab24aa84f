import ChipEight.Proofs.Footprint
import ChipEight.Proofs.FrameRate
import ChipEight.Proofs.Reset

/-!
# The random bytes of a seed

Only `CXNN` looks at the random key or moves it on, and neither the byte that it draws nor the key
that it leaves depends on anything but the key. So the bytes drawn in a run are those of a stream
that the seed alone decides, in their order, whatever the program does between them.

* `State.act_of_fits_random`, `State.attempt_random`: a `CXNN` is carried out and moves the key on,
  and nothing else does, nor does what fails.
* `State.drawsFrom_of_key`: hence the draws of a run are those of the stream, one after the other.
* `Machine.random_law`, `Machine.after_random`: the key of a machine has moved on once for every
  `CXNN` that it reports.
* `State.draws_depend_on_seed`: two runs from one seed, and a machine that has started over.
-/

namespace ChipEight

/-! ## The stream -/

namespace RandomKey

/-- Draws in two parts. -/
theorem after_add (k : RandomKey) (first second : Nat) :
    k.after (first + second) = (k.after first).after second := by
  induction first generalizing k with
  | zero => rw [Nat.zero_add, after]
  | succ first ih => rw [Nat.succ_add, after, after, ih]

/-- The bytes drawn one after the other from a seed, by their number. -/
def stream (seed : Seed) (number : Nat) : Byte := ((ofSeed seed).after number).byte

end RandomKey

namespace Opcode

/-- The words that draw are told by their pattern. -/
theorem instruction?_eq_random_iff (op : Opcode) (x : Nibble) (mask : Byte) :
    op.instruction? = some (.random x mask) ↔
      Fits op.word.toNat "CXNN" ∧ op.x = x ∧ op.nn = mask := by
  have hplaces : patternPlaces "CXNN" = [some 12, none, none, none] := by decide
  have hword := op.word.toNat_lt
  have hmask := mask.toNat_lt
  rw [instruction?_eq_some_iff, Fin.ext_iff, ← UInt8.toNat_inj, val_x, toNat_nn]
  simp only [Instruction.word, Instruction.family, Instruction.operands, Fits, FitsPlaces, hplaces,
    wordDigits, List.forall₂_cons, Option.mem_some, forall_eq', Option.not_mem_none, false_imp_iff,
    implies_true, List.Forall₂.nil, and_true]
  omega

end Opcode

namespace State

variable {w h : Nat}

/-! ## One action -/

theorem perform_random {s t : State w h} {i : Instruction} (hperform : s.perform i = .ok t) :
    (∃ x mask, i = .random x mask ∧ t = s.randomize x mask) ∨
      (∀ x mask, i ≠ .random x mask) ∧ t.random = s.random := by
  cases i with
  | random x mask =>
    cases hperform
    exact Or.inl ⟨x, mask, rfl, rfl⟩
  | alu f x y =>
    cases hperform
    rw [alu_eq]
    exact Or.inr ⟨(fun x mask hi => by cases hi), rfl⟩
  | _ =>
    refine Or.inr ⟨(fun x mask hi => by cases hi), ?_⟩
    by_contra hne
    have howns := perform_changed hperform (show Changed s t .random from hne)
    simp [Instruction.pattern, Part.owners] at howns

/-- What an action comes to. One that fails leaves the state as it was. -/
def attempt (s : State w h) (action : Action) : State w h :=
  match s.act action with
  | .ok t => t
  | .error _ => s

/-- The opcode that an action sets out to execute. -/
def opcode? (s : State w h) : Action → Option Opcode
  | .step => some s.nextOpcode
  | .execute op => some op
  | _ => none

theorem opcode?_of_instruction? {s u : State w h} {action : Action} {i : Instruction}
    (hinstruction : s.instruction? action = some (u, i)) :
    ∃ op, s.opcode? action = some op ∧ op.instruction? = some i := by
  cases action with
  | step =>
    obtain ⟨i, hi, heq⟩ := Option.map_eq_some_iff.mp hinstruction
    cases heq
    exact ⟨s.nextOpcode, rfl, hi⟩
  | execute op =>
    obtain ⟨i, hi, heq⟩ := Option.map_eq_some_iff.mp hinstruction
    cases heq
    exact ⟨op, rfl, hi⟩
  | tick count => cases hinstruction
  | snapshot held pressed => cases hinstruction

/-- A `CXNN` is carried out in the state itself or in the state whose counter has moved on. -/
theorem act_of_fits_random {s : State w h} {action : Action} {op : Opcode}
    (hop : s.opcode? action = some op) (hfits : Fits op.word.toNat "CXNN") :
    ∃ u : State w h, u.random = s.random ∧ s.act action = .ok (u.randomize op.x op.nn) := by
  have hi : op.instruction? = some (.random op.x op.nn) :=
    (op.instruction?_eq_random_iff op.x op.nn).mpr ⟨hfits, rfl, rfl⟩
  cases action with
  | step =>
    cases hop
    refine ⟨s.advance, rfl, ?_⟩
    rw [act_step_eq_execute, execute, hi]
    rfl
  | execute op' =>
    cases hop
    refine ⟨s, rfl, ?_⟩
    rw [act, execute, hi]
    rfl
  | tick count => cases hop
  | snapshot held pressed => cases hop

/-- Nothing but a `CXNN` moves the key on, and what fails does not either. -/
theorem attempt_random {s : State w h} {action : Action}
    (hother : ∀ op, s.opcode? action = some op → ¬ Fits op.word.toNat "CXNN") :
    (s.attempt action).random = s.random := by
  rw [attempt]
  cases hact : s.act action with
  | error cause => rfl
  | ok t =>
    rcases act_instruction? hact with ⟨u, i, hi, hu, hperform⟩ | ⟨-, htimers⟩
    · rcases perform_random hperform with ⟨x, mask, rfl, -⟩ | ⟨-, hkept⟩
      · obtain ⟨op, hop, hrandom⟩ := opcode?_of_instruction? hi
        obtain ⟨hfits, -⟩ := (op.instruction?_eq_random_iff x mask).mp hrandom
        exact (hother op hop hfits).elim
      · rcases hu with rfl | rfl <;> exact hkept
    · rcases htimers with ⟨count, rfl⟩ | ⟨held, pressed, rfl⟩ <;> rfl

/-! ## Runs -/

/-- The state after all actions, those that fail included. -/
def attemptAll (s : State w h) (actions : List Action) : State w h := actions.foldl attempt s

/-- A `CXNN` in a run, with the states before and after it. -/
structure Draw (w h : Nat) where
  before : State w h
  opcode : Opcode
  after : State w h

/-- The draw that an action is, if it is one. -/
def draw? (s : State w h) (action : Action) : Option (Draw w h) :=
  ((s.opcode? action).filter fun op => Fits op.word.toNat "CXNN").map fun op =>
    ⟨s, op, s.attempt action⟩

/-- The draws of a run, in their order. -/
def draws (s : State w h) : List Action → List (Draw w h)
  | [] => []
  | action :: actions => (s.draw? action).toList ++ (s.attempt action).draws actions

theorem draw?_eq_none_iff {s : State w h} {action : Action} :
    s.draw? action = none ↔
      ∀ op, s.opcode? action = some op → ¬ Fits op.word.toNat "CXNN" := by
  simp [draw?]

/-- The draw of an action, told by its opcode. -/
theorem draw?_eq_some_iff {s : State w h} {action : Action} {d : Draw w h} :
    s.draw? action = some d ↔
      s.opcode? action = some d.opcode ∧ Fits d.opcode.word.toNat "CXNN" ∧ d.before = s ∧
        d.after = s.attempt action := by
  obtain ⟨before, op, after⟩ := d
  simp only [draw?, Option.map_eq_some_iff, Option.filter_eq_some_iff, decide_eq_true_eq,
    Draw.mk.injEq]
  constructor
  · rintro ⟨op, ⟨hop, hfits⟩, rfl, rfl, rfl⟩
    exact ⟨hop, hfits, rfl, rfl⟩
  · rintro ⟨hop, hfits, rfl, rfl⟩
    exact ⟨op, ⟨hop, hfits⟩, rfl, rfl, rfl⟩

/-- The draw takes the byte with this number out of the stream of the seed, and leaves the key that
gives the next one. -/
structure Draw.OfStream (d : Draw w h) (seed : Seed) (number : Nat) : Prop where
  drawn : d.before.random.byte = RandomKey.stream seed number
  result : d.after.v d.opcode.x = RandomKey.stream seed number &&& d.opcode.nn
  key : d.after.random = (RandomKey.ofSeed seed).after (number + 1)

/-- A draw takes the byte of the stream whose turn it is. -/
theorem ofStream_of_draw? {s : State w h} {action : Action} {d : Draw w h} {seed : Seed}
    {number : Nat} (hs : s.random = (RandomKey.ofSeed seed).after number)
    (hdraw : s.draw? action = some d) : d.OfStream seed number := by
  obtain ⟨hop, hfits, hbefore, hafter⟩ := draw?_eq_some_iff.mp hdraw
  obtain ⟨u, hu, hact⟩ := act_of_fits_random hop hfits
  rw [attempt, hact] at hafter
  rw [hs] at hu
  constructor
  · rw [hbefore, hs, RandomKey.stream]
  · rw [hafter]
    show (State.randomize u d.opcode.x d.opcode.nn).v d.opcode.x = _
    rw [randomize, v_setV, if_pos rfl, hu, RandomKey.stream]
  · rw [hafter, RandomKey.after_add, ← hu]
    rfl

/-- The draws of a run are those of the stream of a seed from a number on, one after the other, and
the key has moved on once for each of them. -/
structure DrawsFrom (s : State w h) (actions : List Action) (seed : Seed) (first : Nat) : Prop where
  each : ∀ number (d : Draw w h), (s.draws actions)[number]? = some d →
    d.OfStream seed (first + number)
  key : (s.attemptAll actions).random =
    (RandomKey.ofSeed seed).after (first + (s.draws actions).length)

/-- From a key of the stream on, all draws of a run are taken from the stream in turn. -/
theorem drawsFrom_of_key {s : State w h} {seed : Seed} {past : Nat}
    (hs : s.random = (RandomKey.ofSeed seed).after past) (actions : List Action) :
    s.DrawsFrom actions seed past := by
  induction actions generalizing s past with
  | nil =>
    constructor
    · intro number d hd
      cases hd
    · exact hs
  | cons action actions ih =>
    cases hdraw : s.draw? action with
    | none =>
      have hkept := attempt_random (draw?_eq_none_iff.mp hdraw)
      have hdraws : s.draws (action :: actions) = (s.attempt action).draws actions := by
        rw [draws, hdraw, Option.toList_none, List.nil_append]
      obtain ⟨heach, hkey⟩ := ih (hkept.trans hs)
      constructor
      · rw [hdraws]
        exact heach
      · rw [hdraws]
        exact hkey
    | some d =>
      have hfirst := ofStream_of_draw? hs hdraw
      have hdraws : s.draws (action :: actions) = d :: (s.attempt action).draws actions := by
        rw [draws, hdraw, Option.toList_some, List.singleton_append]
      obtain ⟨-, -, -, hafter⟩ := draw?_eq_some_iff.mp hdraw
      have hnext : (s.attempt action).random = (RandomKey.ofSeed seed).after (past + 1) := by
        rw [← hafter]
        exact hfirst.key
      obtain ⟨heach, hkey⟩ := ih hnext
      constructor
      · intro number d' hd'
        rw [hdraws] at hd'
        cases number with
        | zero =>
          obtain rfl : d = d' := Option.some.inj hd'
          exact hfirst
        | succ number =>
          have hcount : past + (number + 1) = past + 1 + number := by omega
          rw [hcount]
          exact heach number d' hd'
      · have hcount : past + ((s.attempt action).draws actions).length.succ =
            past + 1 + ((s.attempt action).draws actions).length := by omega
        rw [hdraws, List.length_cons, hcount]
        exact hkey

end State

/-! ## Machines -/

/-- How many of the instructions that the events report are draws. -/
def drawsIn (events : List Event) : Nat :=
  events.countP fun
    | .executed _ op => decide (Fits op.word.toNat "CXNN")
    | _ => false

theorem drawsIn_append (first second : List Event) :
    drawsIn (first ++ second) = drawsIn first + drawsIn second := List.countP_append

namespace Machine

variable {σ τ : Type}

theorem drawsIn_effects (s t : State screenWidth screenHeight) (i : Option Instruction) :
    drawsIn (effects s t i) = 0 := by
  unfold effects drawsIn
  split
  · rfl
  · rw [List.countP_map, List.countP_eq_zero]
    intro p hp
    exact Bool.false_ne_true
  · rfl
  · rfl

/-- A step moves the random key by the draws that it reports. -/
theorem step_random {m : Machine τ} (hrunning : m.halted = false) :
    m.step.machine.state.random = m.state.random.after (drawsIn m.step.events) := by
  rcases step_cases hrunning with ⟨cause, -, hm⟩ | ⟨t, op, hstep, hm⟩
  · rw [hm]
    rfl
  · obtain ⟨-, hexecute⟩ := State.step_eq_ok_iff.mp hstep
    obtain ⟨i, hop, hperform⟩ := State.execute_eq_ok_iff.mp hexecute
    have hcount : drawsIn m.step.events = if Fits op.word.toNat "CXNN" then 1 else 0 := by
      rw [hm]
      show drawsIn ([.executed m.state.pc op] ++ effects m.pollKeys.state t op.instruction?) = _
      rw [drawsIn_append, drawsIn_effects, Nat.add_zero, drawsIn, List.countP_singleton]
      simp only [decide_eq_true_eq]
    rw [hcount, hm]
    show t.random = _
    rcases State.perform_random hperform with ⟨x, mask, rfl, rfl⟩ | ⟨hno, hkept⟩
    · rw [if_pos ((op.instruction?_eq_random_iff x mask).mp hop).1]
      rfl
    · have hother : ¬ Fits op.word.toNat "CXNN" := by
        intro hfits
        rw [(op.instruction?_eq_random_iff op.x op.nn).mpr ⟨hfits, rfl, rfl⟩] at hop
        cases hop
        exact hno _ _ rfl
      rw [if_neg hother]
      exact hkept

variable [ClockNumber τ] [HostAmount σ τ]

/-- Work moves the random key by as many draws as it reports, and by no other. -/
theorem random_law : Law σ (fun (m : Machine τ) attempts m' =>
    m'.state.random = m.state.random.after (drawsIn (attempts.flatMap fun x => x.step.events)))
    where
  refl m := rfl
  trans := by
    intro m₁ m₂ m₃ xs ys hfirst hsecond
    rw [hsecond, hfirst, List.flatMap_append, drawsIn_append, RandomKey.after_add]
  advance m delta := rfl
  countDown m ticks := rfl
  step m hrunning := by
    rw [List.flatMap_cons, List.flatMap_nil, List.append_nil]
    exact step_random hrunning

/-- The key moves on once for every draw that is reported, and not when a step fails, time passes
or the keys are polled. -/
theorem perform_random (m : Machine τ) {op : Operation σ} (hother : ∀ rom, op ≠ .reset rom) :
    (m.perform op).machine.state.random =
      m.state.random.after (drawsIn (m.perform op).events) := by
  rw [m.perform_events hother]
  exact random_law.perform (fun m keypad held pressed => rfl) m hother

/-- So the random key after a script is told from the key before and the number of draws. -/
theorem after_random (m : Machine τ) {script : Script σ}
    (hother : ∀ turn ∈ script, ∀ rom, turn.2 ≠ .reset rom) :
    (m.after script).state.random = m.state.random.after (drawsIn (m.reported script)) := by
  induction script generalizing m with
  | nil => rfl
  | cons turn rest ih =>
    obtain ⟨hfirst, hrest⟩ := List.forall_mem_cons.mp hother
    have hturn := (m.withKeys turn.1).perform_random hfirst
    show (((m.withKeys turn.1).perform turn.2).machine.after rest).state.random =
      m.state.random.after (drawsIn (((m.withKeys turn.1).perform turn.2).events ++
        ((m.withKeys turn.1).perform turn.2).machine.reported rest))
    rw [ih _ hrest, hturn, drawsIn_append, RandomKey.after_add]
    rfl

/-- A machine that has started over, after whatever history, has the key of its seed again. -/
theorem random_since_reset {setup : Setup σ} {m₀ : Machine τ} {events : List Event}
    (hboot : boot setup = .ok (m₀, events)) (history : Script σ) {rom : Option (List Byte)}
    (hreset : ((m₀.after history).reset rom).result = .ok ()) {script : Script σ}
    (hother : ∀ turn ∈ script, ∀ rom, turn.2 ≠ .reset rom) :
    ∃ seed, Seed.ofInt setup.seed = .ok seed ∧
      (((m₀.after history).reset rom).machine.after script).state.random =
        (RandomKey.ofSeed seed).after
          (drawsIn (((m₀.after history).reset rom).machine.reported script)) := by
  obtain ⟨timers, seed, state₀, -, hseed, -, rfl, -⟩ := boot_eq_ok_iff.mp hboot
  have hkept : seed = ((fresh setup seed timers state₀).after history).seed :=
    ((fresh setup seed timers state₀).after_builtAlike history).seed
  generalize (fresh setup seed timers state₀).after history = m at hkept hreset ⊢
  have hstart : (m.reset rom).machine.state.random = RandomKey.ofSeed seed := by
    cases hstate : initialState m.seed (rom.getD m.rom) m.dialect m.stackLimit with
    | error cause =>
      rw [reset_of_error hstate] at hreset
      cases hreset
    | ok state =>
      rw [reset_of_ok hstate, hkept]
      obtain ⟨memory, -, rfl⟩ := State.create_eq_ok_iff.mp hstate
      rfl
  refine ⟨seed, hseed, ?_⟩
  rw [after_random _ hother, hstart]

end Machine

/-! ## Two runs -/

namespace State

variable {w h w' h' : Nat}

/-- Two runs of any programs from one seed draw the same bytes, those of the stream of the seed in
their order: a draw gives its register the byte under its mask, and leaves the key that has moved
on once more. Only `CXNN` draws, it never fails, and nothing else moves the key on, nor does what
fails. A machine that starts over starts the stream over. -/
theorem draws_depend_on_seed (σ : Type) {τ : Type} [ClockNumber τ] [HostAmount σ τ] {seed : Seed}
    {rom rom' : List Byte} {dialect dialect' : Dialect} {limit limit' : Nat} {s : State w h}
    {s' : State w' h'} (hcreate : create w h (.ofSeed seed) rom dialect limit = .ok s)
    (hcreate' : create w' h' (.ofSeed seed) rom' dialect' limit' = .ok s')
    (actions actions' : List Action) :
    s.DrawsFrom actions seed 0 ∧ s'.DrawsFrom actions' seed 0 ∧
    (∀ (number : Nat) (d : Draw w h) (d' : Draw w' h'), (s.draws actions)[number]? = some d →
      (s'.draws actions')[number]? = some d' →
      d.before.random.byte = d'.before.random.byte ∧ d.after.random = d'.after.random) ∧
    (∀ (u : State w h) (action : Action) (op : Opcode), u.opcode? action = some op →
      Fits op.word.toNat "CXNN" → ∃ t, u.act action = .ok t) ∧
    (∀ (u : State w h) (action : Action),
      (∀ op, u.opcode? action = some op → ¬ Fits op.word.toNat "CXNN") →
      (u.attempt action).random = u.random) ∧
    ∀ (setup : Setup σ) (m₀ : Machine τ) (events : List Event) (history : Script σ)
      (rom : Option (List Byte)) (script : Script σ), Machine.boot setup = .ok (m₀, events) →
      ((m₀.after history).reset rom).result = .ok () →
      (∀ turn ∈ script, ∀ rom, turn.2 ≠ .reset rom) →
      ∃ seed, Seed.ofInt setup.seed = .ok seed ∧
        (((m₀.after history).reset rom).machine.after script).state.random =
          (RandomKey.ofSeed seed).after
            (drawsIn (((m₀.after history).reset rom).machine.reported script)) := by
  have hkey : s.random = (RandomKey.ofSeed seed).after 0 := by
    obtain ⟨memory, -, rfl⟩ := create_eq_ok_iff.mp hcreate
    rfl
  have hkey' : s'.random = (RandomKey.ofSeed seed).after 0 := by
    obtain ⟨memory, -, rfl⟩ := create_eq_ok_iff.mp hcreate'
    rfl
  have hdraws := drawsFrom_of_key hkey actions
  have hdraws' := drawsFrom_of_key hkey' actions'
  refine ⟨hdraws, hdraws', ?_, ?_, fun u action => attempt_random, ?_⟩
  · intro number d d' hd hd'
    have hfirst := hdraws.each number d hd
    have hsecond := hdraws'.each number d' hd'
    exact ⟨hfirst.drawn.trans hsecond.drawn.symm, hfirst.key.trans hsecond.key.symm⟩
  · intro u action op hop hfits
    obtain ⟨v, -, hact⟩ := act_of_fits_random hop hfits
    exact ⟨_, hact⟩
  · intro setup m₀ events history rom script hboot hreset hother
    exact Machine.random_since_reset hboot history hreset hother

/-- One program draws twice in a row; the other one after a tick, a failing opcode and another
instruction, into other registers and under other masks. -/
theorem draws_depend_on_seed_of_programs : ∃ (s s' : State 64 32) (actions actions' : List Action)
    (d d' : Draw 64 32),
    actions = [.step, .step] ∧
    actions' = [.step, .tick 3, .execute (.ofInt 0x5001), .step, .step] ∧
    create 64 32 (.ofSeed 7) [0xC0, 0xFF, 0xC1, 0x0F] {} 16 = .ok s ∧
    create 64 32 (.ofSeed 7) [0xC3, 0xF0, 0x65, 0x01, 0xC5, 0xFF] {} 2 = .ok s' ∧
    (s.draws actions)[1]? = some d ∧ (s'.draws actions')[1]? = some d' ∧
    d.opcode = .ofInt 0xC10F ∧ d'.opcode = .ofInt 0xC5FF ∧
    d.after.v 1 = RandomKey.stream 7 1 &&& 0x0F ∧
    d'.after.v 5 = RandomKey.stream 7 1 &&& 0xFF ∧
    d.after.random = d'.after.random ∧
    (s'.attemptAll actions').random = (RandomKey.ofSeed 7).after 2 := by
  let actions : List Action := [.step, .step]
  let actions' : List Action := [.step, .tick 3, .execute (.ofInt 0x5001), .step, .step]
  have hvalues : (do
      let s ← create 64 32 (.ofSeed 7) [0xC0, 0xFF, 0xC1, 0x0F] {} 16
      let s' ← create 64 32 (.ofSeed 7) [0xC3, 0xF0, 0x65, 0x01, 0xC5, 0xFF] {} 2
      return ((s.draws actions)[1]?.map (·.opcode), (s'.draws actions')[1]?.map (·.opcode),
        (s'.draws actions').length)) =
      Except.ok (some (.ofInt 0xC10F), some (.ofInt 0xC5FF), 2) := by
    decide +kernel
  obtain ⟨s, hcreate, hvalues⟩ := bind_eq_ok_iff.mp hvalues
  obtain ⟨s', hcreate', hvalues⟩ := bind_eq_ok_iff.mp hvalues
  obtain ⟨hfirst, hrest⟩ := Prod.mk.inj (Except.ok.inj hvalues)
  obtain ⟨hsecond, hlength⟩ := Prod.mk.inj hrest
  obtain ⟨d, hd, hop⟩ := Option.map_eq_some_iff.mp hfirst
  obtain ⟨d', hd', hop'⟩ := Option.map_eq_some_iff.mp hsecond
  obtain ⟨hdraws, hdraws', hsame, -⟩ :=
    draws_depend_on_seed Amount hcreate hcreate' actions actions'
  have hresult := (hdraws.each 1 d hd).result
  have hresult' := (hdraws'.each 1 d' hd').result
  have hkey := hdraws'.key
  rw [hop] at hresult
  rw [hop'] at hresult'
  rw [hlength] at hkey
  exact ⟨s, s', actions, actions', d, d', rfl, rfl, hcreate, hcreate', hd, hd', hop, hop', hresult,
    hresult', (hsame 1 d d' hd hd').2, hkey⟩

end State

end ChipEight
