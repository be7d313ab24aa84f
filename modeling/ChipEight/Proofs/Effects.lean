import ChipEight.Execution

/-!
# What one instruction does

Inversion lemmas for `State.perform`, `State.execute` and `State.step`. They say once what an
instruction can do to the program counter and the call stack and when it fails; the modules about
runs use them and do not open the definitions again.

* `perform_control`: an instruction is a call, a return, or leaves the call stack alone and puts
  the program counter at an address if it moves it at all.
* `perform_screen`: two instructions change the screen, and one of them darkens it.
* `perform_eq_error_iff`: only a return from an empty stack and a call on a full one fail.
* `step_eq_ok_iff`, `step_eq_error_iff`: a step is the execution of the opcode at the program
  counter in the state whose counter has moved on.
-/

namespace ChipEight

/-- Two computations in a row succeed if the second does on what the first gives. -/
theorem bind_eq_ok_iff {ε α β : Type} {x : Except ε α} {f : α → Except ε β} {b : β} :
    (x >>= f) = .ok b ↔ ∃ a, x = .ok a ∧ f a = .ok b := by
  cases x with
  | error e => simp [bind, Except.bind]
  | ok a => simp [bind, Except.bind]

/-- Two computations in a row fail if the first does, or the second on what the first gives. -/
theorem bind_eq_error_iff {ε α β : Type} {x : Except ε α} {f : α → Except ε β} {e : ε} :
    (x >>= f) = .error e ↔ x = .error e ∨ ∃ a, x = .ok a ∧ f a = .error e := by
  cases x with
  | error e' => simp [bind, Except.bind]
  | ok a => simp [bind, Except.bind]

/-- Telling a failure in other words does not touch successes. -/
theorem mapError_eq_ok_iff {ε ε' α : Type} {x : Except ε α} {f : ε → ε'} {a : α} :
    x.mapError f = .ok a ↔ x = .ok a := by
  cases x with
  | error e =>
    constructor
    · intro h
      cases h
    · intro h
      cases h
  | ok b =>
    constructor
    · intro h
      cases h
      rfl
    · intro h
      cases h
      rfl

theorem mapError_map {ε ε' α β : Type} (x : Except ε α) (f : α → β) (g : ε → ε') :
    (x.map f).mapError g = (x.mapError g).map f := by
  cases x with
  | error e => rfl
  | ok a => rfl

/-- The rule for two computations in a row, where the first tells its failures in other words. -/
theorem bind_mapError_eq_ok_iff {ε ε' α β : Type} {x : Except ε α} {g : ε → ε'}
    {f : α → Except ε' β} {b : β} :
    (x.mapError g >>= f) = .ok b ↔ ∃ a, x = .ok a ∧ f a = .ok b := by
  simp only [bind_eq_ok_iff, mapError_eq_ok_iff]

namespace State

variable {w h : Nat}

/-! ## Fields that an operation can change -/

theorem advance_pc_toNat (s : State w h) : s.advance.pc.toNat = (s.pc.toNat + 2) % 4096 := by
  simp only [advance, Address.toNat_toWord, Fin.val_add, Address.val_ofWord]
  omega

theorem skipIf_eq (s : State w h) (condition : Bool) :
    s.skipIf condition = { s with pc := if condition then s.advance.pc else s.pc } := by
  cases condition <;> rfl

theorem alu_eq (s : State w h) (op : AluOp) (x y : Nibble) :
    s.alu op x y = { s with registers := (s.alu op x y).registers } := by
  unfold alu
  dsimp only
  split <;> rfl

theorem loadRegisters_eq (s : State w h) (x : Nibble) :
    s.loadRegisters x = { s with
      registers := (s.loadRegisters x).registers
      index := s.indexAfterTransfer x } := by
  unfold loadRegisters
  rfl

theorem awaitKey_eq (s : State w h) (x : Nibble) :
    s.awaitKey x = { s with
      pc := (s.awaitKey x).pc
      registers := (s.awaitKey x).registers } := by
  unfold awaitKey
  split <;> rfl

/-- The wait for a key goes on or comes again. -/
theorem awaitKey_pc (s : State w h) (x : Nibble) :
    (s.awaitKey x).pc = s.pc ∨ (s.awaitKey x).pc = s.rewind.pc := by
  unfold awaitKey
  split
  · exact Or.inl rfl
  · exact Or.inr rfl

/-! ## Calls and returns -/

/-- A call succeeds if its return address finds room, and then jumps. -/
theorem call_eq_ok_iff {s t : State w h} {target : Address} :
    s.call target = .ok t ↔ ∃ stack, s.stack.push s.pc.toNat s.origin.toNat = .ok stack ∧
      t = { s with stack, pc := target.toWord } := by
  unfold call
  rw [bind_eq_ok_iff]
  simp only [pure, Except.pure, Except.ok.injEq, jump, eq_comm]

/-- A return succeeds if there is an address, and then goes on there. -/
theorem ret_eq_ok_iff {s t : State w h} :
    s.ret = .ok t ↔ ∃ stack pc, s.stack.pop s.origin.toNat = .ok (stack, pc) ∧
      t = { s with stack, pc } := by
  unfold ret
  rw [bind_eq_ok_iff]
  simp only [pure, Except.pure, Except.ok.injEq, Prod.exists, eq_comm]

theorem call_eq_error_iff {s : State w h} {target : Address} {f : Fault} :
    s.call target = .error f ↔
      s.stack.limit ≤ s.stack.depth ∧ f = .stackOverflow s.origin.toNat s.stack.limit := by
  unfold call
  rw [bind_eq_error_iff, CallStack.push_eq_error_iff]
  simp [pure, Except.pure]

theorem ret_eq_error_iff {s : State w h} {f : Fault} :
    s.ret = .error f ↔ s.stack.depth = 0 ∧ f = .stackUnderflow s.origin.toNat := by
  unfold ret
  rw [bind_eq_error_iff, CallStack.pop_eq_error_iff]
  simp [pure, Except.pure]

/-! ## Instructions -/

/-- What an instruction does to the call stack and the program counter. -/
theorem perform_control {s t : State w h} {i : Instruction} (hperform : s.perform i = .ok t) :
    (∃ target, i = .call target ∧ s.stack.push s.pc.toNat s.origin.toNat = .ok t.stack ∧
        t.pc = target.toWord) ∨
      (i = .ret ∧ s.stack.pop s.origin.toNat = .ok (t.stack, t.pc)) ∨
      (t.stack = s.stack ∧ (t.pc = s.pc ∨ ∃ a : Address, t.pc = a.toWord)) := by
  cases i with
  | call target =>
    obtain ⟨stack, hpush, rfl⟩ := call_eq_ok_iff.mp hperform
    exact Or.inl ⟨target, rfl, hpush, rfl⟩
  | ret =>
    obtain ⟨stack, pc, hpop, rfl⟩ := ret_eq_ok_iff.mp hperform
    exact Or.inr (Or.inl ⟨rfl, hpop⟩)
  | jump target => cases hperform; exact Or.inr (Or.inr ⟨rfl, Or.inr ⟨_, rfl⟩⟩)
  | jumpOffset base => cases hperform; exact Or.inr (Or.inr ⟨rfl, Or.inr ⟨_, rfl⟩⟩)
  | skipIfEqual | skipIfUnequal | skipIfSame | skipIfDifferent | skipIfHeld | skipIfReleased =>
    cases hperform
    rw [skipIf_eq]
    refine Or.inr (Or.inr ⟨rfl, ?_⟩)
    dsimp only
    split
    · exact Or.inr ⟨_, rfl⟩
    · exact Or.inl rfl
  | awaitKey x =>
    cases hperform
    refine Or.inr (Or.inr ⟨by rw [awaitKey_eq], ?_⟩)
    rcases awaitKey_pc s x with hpc | hpc
    · exact Or.inl hpc
    · exact Or.inr ⟨_, hpc⟩
  | alu op x y =>
    cases hperform
    rw [alu_eq]
    exact Or.inr (Or.inr ⟨rfl, Or.inl rfl⟩)
  | loadRegisters x =>
    cases hperform
    rw [loadRegisters_eq]
    exact Or.inr (Or.inr ⟨rfl, Or.inl rfl⟩)
  | _ => cases hperform; exact Or.inr (Or.inr ⟨rfl, Or.inl rfl⟩)

/-- No instruction changes the dialect. -/
theorem perform_dialect {s t : State w h} {i : Instruction} (hperform : s.perform i = .ok t) :
    t.dialect = s.dialect := by
  cases i with
  | call target =>
    obtain ⟨stack, -, rfl⟩ := call_eq_ok_iff.mp hperform
    rfl
  | ret =>
    obtain ⟨stack, pc, -, rfl⟩ := ret_eq_ok_iff.mp hperform
    rfl
  | skipIfEqual | skipIfUnequal | skipIfSame | skipIfDifferent | skipIfHeld | skipIfReleased =>
    cases hperform
    rw [skipIf_eq]
  | awaitKey x => cases hperform; rw [awaitKey_eq]
  | alu op x y => cases hperform; rw [alu_eq]
  | loadRegisters x => cases hperform; rw [loadRegisters_eq]
  | _ => cases hperform; rfl

/-- Two instructions change the screen: one darkens it, one draws a sprite. -/
theorem perform_screen {s t : State w h} {i : Instruction} (hperform : s.perform i = .ok t) :
    (i = .clear ∧ t.screen = Raster.fill false) ∨ (∃ x y rows, i = .draw x y rows) ∨
      t.screen = s.screen := by
  cases i with
  | clear => cases hperform; exact Or.inl ⟨rfl, rfl⟩
  | draw x y rows => exact Or.inr (Or.inl ⟨x, y, rows, rfl⟩)
  | call target =>
    obtain ⟨stack, -, rfl⟩ := call_eq_ok_iff.mp hperform
    exact Or.inr (Or.inr rfl)
  | ret =>
    obtain ⟨stack, pc, -, rfl⟩ := ret_eq_ok_iff.mp hperform
    exact Or.inr (Or.inr rfl)
  | skipIfEqual | skipIfUnequal | skipIfSame | skipIfDifferent | skipIfHeld | skipIfReleased =>
    cases hperform
    exact Or.inr (Or.inr (by rw [skipIf_eq]))
  | awaitKey x => cases hperform; exact Or.inr (Or.inr (by rw [awaitKey_eq]))
  | alu op x y => cases hperform; exact Or.inr (Or.inr (by rw [alu_eq]))
  | loadRegisters x => cases hperform; exact Or.inr (Or.inr (by rw [loadRegisters_eq]))
  | _ => cases hperform; exact Or.inr (Or.inr rfl)

/-- Returns on an empty stack and calls on a full one are the only instructions that fail. -/
theorem perform_eq_error_iff {s : State w h} {i : Instruction} {f : Fault} :
    s.perform i = .error f ↔
      (i = .ret ∧ s.stack.depth = 0 ∧ f = .stackUnderflow s.origin.toNat) ∨
        ((∃ target, i = .call target) ∧ s.stack.limit ≤ s.stack.depth ∧
          f = .stackOverflow s.origin.toNat s.stack.limit) := by
  cases i with
  | call target => simp [perform, call_eq_error_iff]
  | ret => simp [perform, ret_eq_error_iff]
  | _ => simp [perform]

/-! ## Opcodes and steps -/

/-- A word succeeds if it is an instruction and that succeeds. -/
theorem execute_eq_ok_iff {s t : State w h} {op : Opcode} :
    s.execute op = .ok t ↔ ∃ i, op.instruction? = some i ∧ s.perform i = .ok t := by
  unfold execute
  cases op.instruction? <;> simp

/-- A word fails if it is no instruction, or as its instruction does. -/
theorem execute_eq_error_iff {s : State w h} {op : Opcode} {f : Fault} :
    s.execute op = .error f ↔
      (op.instruction? = none ∧ f = .unknownOpcode op.hex s.origin.toNat) ∨
        ∃ i, op.instruction? = some i ∧ s.perform i = .error f := by
  unfold execute
  cases op.instruction? <;> simp [eq_comm]

/-- A step succeeds if the word at the program counter does, the program counter having moved on. -/
theorem step_eq_ok_iff {s t : State w h} {op : Opcode} :
    s.step = .ok (t, op) ↔ op = s.nextOpcode ∧ s.advance.execute op = .ok t := by
  unfold step fetch
  simp only [bind_eq_ok_iff, pure, Except.pure, Except.ok.injEq, Prod.mk.injEq]
  constructor
  · rintro ⟨t', hexecute, rfl, rfl⟩
    exact ⟨rfl, hexecute⟩
  · rintro ⟨rfl, hexecute⟩
    exact ⟨t, hexecute, rfl, rfl⟩

/-- A step fails as the word at the program counter does. -/
theorem step_eq_error_iff {s : State w h} {f : Fault} :
    s.step = .error f ↔ s.advance.execute s.nextOpcode = .error f := by
  unfold step fetch
  simp [bind_eq_error_iff, pure, Except.pure]

end State

end ChipEight
