import ChipEight.Proofs.Effects

/-!
# Runs

A run is a list of actions, carried out one after the other: steps, opcodes executed from outside,
timer ticks and new key snapshots. `State.run` is its outcome, the state after the last action or
the failure of the first action that fails. An instruction fails by a fault of the program, a tick
by a number that is too large.

* `run_induction`: what every action keeps holds after every run. `act_cases` says what an action
  is, and `act_stack` what it does to the call stack.
* `State.performed`: the instructions that a run carries out. `run_induction_performed` is the rule
  for what is said of a state together with the instructions that have led to it.
-/

namespace ChipEight

/-- One thing that happens to a processor: the instruction at the program counter is carried out,
or an opcode that was not fetched, or the timers count down, or the keys are polled. -/
inductive Action where
  | step
  | execute (op : Opcode)
  | tick (count : Int)
  | snapshot (held pressed : Keys)
deriving DecidableEq, Repr

namespace State

variable {w h : Nat}

/-- Does one action. An action fails for the reason for which what it consists of fails. -/
def act (s : State w h) : Action → Except Failure (State w h)
  | .step => (s.step.map Prod.fst).mapError .fault
  | .execute op => (s.execute op).mapError .fault
  | .tick count => (s.tick count).mapError .number
  | .snapshot held pressed => .ok { s with held, pressed }

/-- The state after all actions, or the first failure. -/
def run (s : State w h) : List Action → Except Failure (State w h)
  | [] => .ok s
  | action :: actions => do (← s.act action).run actions

/-! ## One action -/

/-- A step is the word at the program counter, executed after the program counter has moved on. -/
theorem act_step_eq_execute (s : State w h) :
    s.act .step = (s.advance.execute s.nextOpcode).mapError .fault := by
  unfold act step fetch
  dsimp only
  cases s.advance.execute s.nextOpcode with
  | error f => rfl
  | ok t => rfl

theorem act_step_eq_ok_iff {s t : State w h} :
    s.act .step = .ok t ↔ s.step = .ok (t, s.nextOpcode) := by
  rw [act_step_eq_execute, mapError_eq_ok_iff, step_eq_ok_iff]
  simp

theorem act_step {s t : State w h} {op : Opcode} (hstep : s.step = .ok (t, op)) :
    s.act .step = .ok t := by
  obtain ⟨rfl, -⟩ := step_eq_ok_iff.mp hstep
  exact act_step_eq_ok_iff.mpr hstep

theorem act_execute_eq_ok_iff {s t : State w h} {op : Opcode} :
    s.act (.execute op) = .ok t ↔ s.execute op = .ok t := by
  rw [act, mapError_eq_ok_iff]

/-- A countdown succeeds if the count fits. -/
theorem act_tick_eq_ok_iff {s t : State w h} {count : Int} :
    s.act (.tick count) = .ok t ↔ count < 2147483648 ∧ t = s.countDown count.toNat := by
  rw [act, mapError_eq_ok_iff, tick_eq_ok_iff]

/-- An action either performs an instruction, in the state itself or in the state whose counter
has moved on, or it changes the timers or the key snapshot only. -/
theorem act_cases {s t : State w h} {action : Action} (hact : s.act action = .ok t) :
    (∃ s' i, (s' = s ∨ s' = s.advance) ∧ s'.perform i = .ok t) ∨
      (∃ ticks, t = s.countDown ticks) ∨ ∃ held pressed, t = { s with held, pressed } := by
  cases action with
  | step =>
    obtain ⟨-, hexecute⟩ := step_eq_ok_iff.mp (act_step_eq_ok_iff.mp hact)
    obtain ⟨i, -, hperform⟩ := execute_eq_ok_iff.mp hexecute
    exact Or.inl ⟨s.advance, i, Or.inr rfl, hperform⟩
  | execute op =>
    obtain ⟨i, -, hperform⟩ := execute_eq_ok_iff.mp (act_execute_eq_ok_iff.mp hact)
    exact Or.inl ⟨s, i, Or.inl rfl, hperform⟩
  | tick count => exact Or.inr (Or.inl ⟨count.toNat, (act_tick_eq_ok_iff.mp hact).2⟩)
  | snapshot held pressed => cases hact; exact Or.inr (Or.inr ⟨held, pressed, rfl⟩)

/-- An action pushes one address, pops one, or leaves the call stack alone. -/
theorem act_stack {s t : State w h} {action : Action} (hact : s.act action = .ok t) :
    (∃ address origin, s.stack.push address origin = .ok t.stack) ∨
      (∃ origin address, s.stack.pop origin = .ok (t.stack, address)) ∨ t.stack = s.stack := by
  rcases act_cases hact with ⟨s', i, hs', hperform⟩ | ⟨ticks, rfl⟩ | ⟨held, pressed, rfl⟩
  · have hstack : s'.stack = s.stack := by
      rcases hs' with rfl | rfl <;> rfl
    rw [← hstack]
    rcases perform_control hperform with ⟨target, -, hpush, -⟩ | ⟨-, hpop⟩ | ⟨hkeep, -⟩
    · exact Or.inl ⟨_, _, hpush⟩
    · exact Or.inr (Or.inl ⟨_, _, hpop⟩)
    · exact Or.inr (Or.inr hkeep)
  · exact Or.inr (Or.inr rfl)
  · exact Or.inr (Or.inr rfl)

/-! ## Many actions -/

/-- A run succeeds if its first action does and the others do from there. -/
theorem run_cons_eq_ok_iff {s t : State w h} {action : Action} {actions : List Action} :
    s.run (action :: actions) = .ok t ↔ ∃ u, s.act action = .ok u ∧ u.run actions = .ok t :=
  bind_eq_ok_iff

/-- What every action keeps holds after every run. -/
theorem run_induction {P : State w h → Prop}
    (hkeep : ∀ {s t : State w h} {action : Action}, P s → s.act action = .ok t → P t)
    {s t : State w h} {actions : List Action} (hs : P s) (hrun : s.run actions = .ok t) : P t := by
  induction actions generalizing s with
  | nil => cases hrun; exact hs
  | cons action actions ih =>
    obtain ⟨u, hact, hrest⟩ := run_cons_eq_ok_iff.mp hrun
    exact ih (hkeep hs hact) hrest

/-! ## The instructions of a run -/

/-- The instruction that an action carries out, and the state in which it does. -/
def instruction? (s : State w h) : Action → Option (State w h × Instruction)
  | .step => s.nextOpcode.instruction?.map fun i => (s.advance, i)
  | .execute op => op.instruction?.map fun i => (s, i)
  | _ => none

/-- The instructions that a run carries out, each with the state in which it does. -/
def performed (s : State w h) : List Action → List (State w h × Instruction)
  | [] => []
  | action :: actions =>
    match s.act action with
    | .ok t => (s.instruction? action).toList ++ t.performed actions
    | .error _ => []

/-- An action that comes down to an instruction does what the instruction does. -/
theorem act_of_instruction? {s u : State w h} {action : Action} {i : Instruction}
    (hinstruction : s.instruction? action = some (u, i)) :
    s.act action = (u.perform i).mapError .fault := by
  cases action with
  | step =>
    obtain ⟨i, hop, heq⟩ := Option.map_eq_some_iff.mp hinstruction
    cases heq
    rw [act_step_eq_execute, execute, hop]
  | execute op =>
    obtain ⟨i, hop, heq⟩ := Option.map_eq_some_iff.mp hinstruction
    cases heq
    rw [act, execute, hop]
  | tick count => cases hinstruction
  | snapshot held pressed => cases hinstruction

/-- `act_cases`, with the instruction that the action stands for. -/
theorem act_instruction? {s t : State w h} {action : Action} (hact : s.act action = .ok t) :
    (∃ u i, s.instruction? action = some (u, i) ∧ (u = s ∨ u = s.advance) ∧
        u.perform i = .ok t) ∨
      (s.instruction? action = none ∧
        ((∃ ticks, t = s.countDown ticks) ∨ ∃ held pressed, t = { s with held, pressed })) := by
  cases action with
  | step =>
    obtain ⟨-, hexecute⟩ := step_eq_ok_iff.mp (act_step_eq_ok_iff.mp hact)
    obtain ⟨i, hi, hperform⟩ := execute_eq_ok_iff.mp hexecute
    refine Or.inl ⟨s.advance, i, ?_, Or.inr rfl, hperform⟩
    rw [instruction?, hi]
    rfl
  | execute op =>
    obtain ⟨i, hi, hperform⟩ := execute_eq_ok_iff.mp (act_execute_eq_ok_iff.mp hact)
    refine Or.inl ⟨s, i, ?_, Or.inl rfl, hperform⟩
    rw [instruction?, hi]
    rfl
  | tick count => exact Or.inr ⟨rfl, Or.inl ⟨count.toNat, (act_tick_eq_ok_iff.mp hact).2⟩⟩
  | snapshot held pressed => cases hact; exact Or.inr ⟨rfl, Or.inr ⟨held, pressed, rfl⟩⟩

theorem performed_cons {s t : State w h} {action : Action} (hact : s.act action = .ok t)
    (actions : List Action) :
    s.performed (action :: actions) = (s.instruction? action).toList ++ t.performed actions := by
  rw [performed, hact]

/-- What every action keeps of a state and of the instructions so far holds after every run. -/
theorem run_induction_performed {P : List (State w h × Instruction) → State w h → Prop}
    (hkeep : ∀ {trace} {s t : State w h} {action : Action}, P trace s → s.act action = .ok t →
      P (trace ++ (s.instruction? action).toList) t)
    {trace : List (State w h × Instruction)} {s t : State w h} {actions : List Action}
    (hs : P trace s) (hrun : s.run actions = .ok t) : P (trace ++ s.performed actions) t := by
  induction actions generalizing s trace with
  | nil =>
    cases hrun
    rw [performed, List.append_nil]
    exact hs
  | cons action actions ih =>
    obtain ⟨u, hact, hrest⟩ := run_cons_eq_ok_iff.mp hrun
    rw [performed_cons hact, ← List.append_assoc]
    exact ih (hkeep hs hact) hrest

end State

end ChipEight
