import ChipEight.Proofs.Bounds
import ChipEight.Proofs.WordPatterns

/-!
# The footprint of an instruction

Every part of a state belongs to a few instructions, and no other instruction changes it
(`Part.owners`). A register has no owner of its own: which registers an instruction may change is
told from its pattern and from the digit `X` of its word (`State.MayWrite`). The two tables are
what the module is about; that the instructions keep to them is proved for each instruction from
what it does to the state as a whole.

* `State.perform_changed`: an instruction changes the parts that it owns.
* `State.perform_mayWrite`: it changes the registers that its pattern allows.
* `State.execute_changes_own_part`: so does every word that is executed.
-/

namespace ChipEight

/-- A part of a state, the registers and the program counter left out. -/
inductive Part where
  | memory
  | screen
  | stack
  | random
  | delay
  | sound
  | index
  | held
  | pressed
  | dialect
deriving DecidableEq, Repr

/-- The patterns of the instructions that may change a part. -/
def Part.owners (d : Dialect) : Part → List String
  | memory => ["FX33", "FX55"]
  | screen => ["00E0", "DXYN"]
  | stack => ["2NNN", "00EE"]
  | random => ["CXNN"]
  | delay => ["FX15"]
  | sound => ["FX18"]
  | index => ["ANNN", "FX1E", "FX29"] ++ if d.incrementIndex then ["FX55", "FX65"] else []
  | held | pressed | dialect => []

/-- The operations that leave the flag alone. -/
theorem AluOp.evaluate_snd_eq_none_iff (f : AluOp) (legacyShift : Bool) (vx vy : Byte) :
    (f.evaluate legacyShift vx vy).2 = none ↔ f ∈ [set, or, and, xor] := by
  cases f <;> cases legacyShift <;> simp [evaluate, isShift, apply]

namespace State

variable {w h : Nat} {s t : State w h}

/-! ## Parts -/

/-- A part of the state is not what it was. -/
def Changed (s t : State w h) : Part → Prop
  | .memory => t.memory ≠ s.memory
  | .screen => t.screen ≠ s.screen
  | .stack => t.stack ≠ s.stack
  | .random => t.random ≠ s.random
  | .delay => t.delay ≠ s.delay
  | .sound => t.sound ≠ s.sound
  | .index => t.index ≠ s.index
  | .held => t.held ≠ s.held
  | .pressed => t.pressed ≠ s.pressed
  | .dialect => t.dialect ≠ s.dialect

/-- A transfer moves the index register only where the dialect says so. -/
theorem transfers_own_index {pattern : String} (hpattern : pattern ∈ ["FX55", "FX65"]) {x : Nibble}
    (hchanged : s.indexAfterTransfer x ≠ s.index) : pattern ∈ Part.index.owners s.dialect := by
  by_cases hincrement : s.dialect.incrementIndex = true
  · rw [Part.owners, if_pos hincrement]
    exact List.mem_append_right _ hpattern
  · rw [indexAfterTransfer, if_neg hincrement] at hchanged
    exact (hchanged rfl).elim

/-- What an instruction changes is a part that it owns. -/
theorem perform_changed {i : Instruction} (hperform : s.perform i = .ok t) {part : Part}
    (hchanged : Changed s t part) : i.pattern ∈ part.owners s.dialect := by
  cases i with
  | clear | draw =>
    cases hperform
    cases part with
    | screen => simp [Instruction.pattern, Part.owners]
    | _ => exact (hchanged rfl).elim
  | ret =>
    obtain ⟨stack, pc, -, rfl⟩ := ret_eq_ok_iff.mp hperform
    cases part with
    | stack => simp [Instruction.pattern, Part.owners]
    | _ => exact (hchanged rfl).elim
  | call target =>
    obtain ⟨stack, -, rfl⟩ := call_eq_ok_iff.mp hperform
    cases part with
    | stack => simp [Instruction.pattern, Part.owners]
    | _ => exact (hchanged rfl).elim
  | random x mask =>
    cases hperform
    cases part with
    | random => simp [Instruction.pattern, Part.owners]
    | _ => exact (hchanged rfl).elim
  | setDelay x =>
    cases hperform
    cases part with
    | delay => simp [Instruction.pattern, Part.owners]
    | _ => exact (hchanged rfl).elim
  | setSound x =>
    cases hperform
    cases part with
    | sound => simp [Instruction.pattern, Part.owners]
    | _ => exact (hchanged rfl).elim
  | setIndex | increaseIndex | pointGlyph =>
    cases hperform
    cases part with
    | index => simp [Instruction.pattern, Part.owners]
    | _ => exact (hchanged rfl).elim
  | storeDecimal x =>
    cases hperform
    cases part with
    | memory => simp [Instruction.pattern, Part.owners]
    | _ => exact (hchanged rfl).elim
  | storeRegisters x =>
    cases hperform
    cases part with
    | memory => simp [Instruction.pattern, Part.owners]
    | index => exact transfers_own_index (by simp [Instruction.pattern]) hchanged
    | _ => exact (hchanged rfl).elim
  | loadRegisters x =>
    cases hperform
    rw [loadRegisters_eq] at hchanged
    cases part with
    | index => exact transfers_own_index (by simp [Instruction.pattern]) hchanged
    | _ => exact (hchanged rfl).elim
  | alu op x y =>
    cases hperform
    rw [alu_eq] at hchanged
    cases part <;> exact (hchanged rfl).elim
  | awaitKey x =>
    cases hperform
    rw [awaitKey_eq] at hchanged
    cases part <;> exact (hchanged rfl).elim
  | skipIfEqual | skipIfUnequal | skipIfSame | skipIfDifferent | skipIfHeld | skipIfReleased =>
    cases hperform
    rw [skipIf_eq] at hchanged
    cases part <;> exact (hchanged rfl).elim
  | _ =>
    cases hperform
    cases part <;> exact (hchanged rfl).elim

/-! ## Registers -/

/-- An instruction of the pattern, with `x` for its digit `X`, may change the register `j`. -/
inductive MayWrite (s : State w h) (x j : Nibble) : String → Prop
  | result {pattern : String}
      (hpattern : pattern ∈ ["6XNN", "7XNN", "CXNN", "FX07", "8XY0", "8XY1", "8XY2", "8XY3"])
      (hj : j = x) : MayWrite s x j pattern
  | key {key : Nibble} (hkey : key ∈ s.pressed.toList) (hj : j = x) : MayWrite s x j "FX0A"
  | resultAndFlag {pattern : String}
      (hpattern : pattern ∈ ["8XY4", "8XY5", "8XY6", "8XY7", "8XYE"])
      (hj : j = x ∨ j = flagRegister) : MayWrite s x j pattern
  | flag {pattern : String} (hpattern : pattern ∈ ["DXYN", "FX1E"]) (hj : j = flagRegister) :
      MayWrite s x j pattern
  | loaded (hj : j ≤ x) : MayWrite s x j "FX65"

theorem eq_of_setV_ne {x j : Nibble} {b : Byte} (hne : (s.setV x b).v j ≠ s.v j) : j = x := by
  by_contra hj
  rw [v_setV, if_neg (Ne.symm hj)] at hne
  exact hne rfl

theorem eq_of_setFlag_setV_ne {x j : Nibble} {b : Byte} {flag : Bool}
    (hne : ((s.setFlag flag).setV x b).v j ≠ s.v j) : j = x ∨ j = flagRegister := by
  by_cases hj : j = x
  · exact Or.inl hj
  · rw [v_setV, if_neg (Ne.symm hj)] at hne
    exact Or.inr (eq_of_setV_ne hne)

theorem alu_of_none {f : AluOp} {x y : Nibble}
    (hflag : (f.evaluate s.dialect.legacyShift (s.v x) (s.v y)).2 = none) :
    s.alu f x y = s.setV x (f.evaluate s.dialect.legacyShift (s.v x) (s.v y)).1 := by
  unfold alu
  dsimp only
  rw [hflag]

theorem alu_of_some {f : AluOp} {x y : Nibble} {flag : Bool}
    (hflag : (f.evaluate s.dialect.legacyShift (s.v x) (s.v y)).2 = some flag) :
    s.alu f x y =
      (s.setFlag flag).setV x (f.evaluate s.dialect.legacyShift (s.v x) (s.v y)).1 := by
  unfold alu
  dsimp only
  rw [hflag]

/-- A load gives the registers up to `VX` the bytes of memory, and no other register anything. -/
theorem v_loadRegisters (s : State w h) (x j : Nibble) :
    (s.loadRegisters x).v j =
      if j ≤ x then s.memory.read (Address.ofWord s.index + Fin.ofNat 4096 j.val) else s.v j := by
  simp [v, loadRegisters]

/-- An operation writes its destination and, if it has one, the flag. -/
theorem mayWrite_of_alu_ne {f : AluOp} {x y j : Nibble} (hne : (s.alu f x y).v j ≠ s.v j) :
    MayWrite s x j f.pattern := by
  cases hflag : (f.evaluate s.dialect.legacyShift (s.v x) (s.v y)).2 with
  | none =>
    have hf := (f.evaluate_snd_eq_none_iff _ _ _).mp hflag
    rw [alu_of_none hflag] at hne
    refine .result ?_ (eq_of_setV_ne hne)
    cases f <;> simp [AluOp.pattern] at hf ⊢
  | some flag =>
    have hf : f ∉ [AluOp.set, .or, .and, .xor] := by
      rw [← f.evaluate_snd_eq_none_iff s.dialect.legacyShift (s.v x) (s.v y), hflag]
      simp
    rw [alu_of_some hflag] at hne
    refine .resultAndFlag ?_ (eq_of_setFlag_setV_ne hne)
    cases f <;> simp [AluOp.pattern] at hf ⊢

theorem mayWrite_of_awaitKey_ne {x j : Nibble} (hne : (s.awaitKey x).v j ≠ s.v j) :
    MayWrite s x j "FX0A" := by
  unfold awaitKey at hne
  split at hne
  case h_1 key hkey => exact .key (List.mem_of_head? hkey) (eq_of_setV_ne hne)
  case h_2 => exact (hne rfl).elim

/-- A register that an instruction changes is one that it may write. -/
theorem perform_mayWrite {op : Opcode} {i : Instruction} (hop : op.instruction? = some i)
    (hperform : s.perform i = .ok t) {j : Nibble} (hne : t.v j ≠ s.v j) :
    MayWrite s op.x j i.pattern := by
  -- The digit `X` of the word is the register that the instruction names.
  obtain ⟨-, hlow⟩ := (op.word_eq_word_iff i).mp (Opcode.instruction?_eq_some_iff.mp hop)
  cases i with
  | load x b | increase x b =>
    cases hperform
    obtain ⟨hx, -⟩ := op.x_nn_of_operands hlow b.toNat_lt
    rw [hx]
    exact .result (by simp [Instruction.pattern]) (eq_of_setV_ne hne)
  | random x mask =>
    cases hperform
    obtain ⟨hx, -⟩ := op.x_nn_of_operands hlow mask.toNat_lt
    rw [hx]
    exact .result (by simp [Instruction.pattern])
      (eq_of_setV_ne (s := { s with random := s.random.next }) hne)
  | readDelay x =>
    cases hperform
    obtain ⟨hx, -⟩ := op.x_nn_of_operands hlow (by decide)
    rw [hx]
    exact .result (by simp [Instruction.pattern]) (eq_of_setV_ne hne)
  | alu f x y =>
    cases hperform
    obtain ⟨hx, -, -⟩ := op.x_y_n_of_operands hlow
    rw [hx]
    exact mayWrite_of_alu_ne hne
  | awaitKey x =>
    cases hperform
    obtain ⟨hx, -⟩ := op.x_nn_of_operands hlow (by decide)
    rw [hx]
    exact mayWrite_of_awaitKey_ne hne
  | draw x y rows =>
    cases hperform
    exact .flag (by simp [Instruction.pattern]) (eq_of_setV_ne (s := { s with screen := _ }) hne)
  | increaseIndex x =>
    cases hperform
    exact .flag (by simp [Instruction.pattern]) (eq_of_setV_ne (s := { s with index := _ }) hne)
  | loadRegisters x =>
    cases hperform
    obtain ⟨hx, -⟩ := op.x_nn_of_operands hlow (by decide)
    rw [hx]
    refine .loaded ?_
    by_contra hj
    rw [v_loadRegisters, if_neg hj] at hne
    exact hne rfl
  | ret =>
    obtain ⟨stack, pc, -, rfl⟩ := ret_eq_ok_iff.mp hperform
    exact (hne rfl).elim
  | call target =>
    obtain ⟨stack, -, rfl⟩ := call_eq_ok_iff.mp hperform
    exact (hne rfl).elim
  | skipIfEqual | skipIfUnequal | skipIfSame | skipIfDifferent | skipIfHeld | skipIfReleased =>
    cases hperform
    rw [skipIf_eq] at hne
    exact (hne rfl).elim
  | _ =>
    cases hperform
    exact (hne rfl).elim

/-! ## Words -/

/-- A word that is executed fits one pattern, and that pattern owns every part that has changed and
allows every register to change that has. -/
theorem execute_changes_own_part {op : Opcode} (hexecute : s.execute op = .ok t) :
    ∃ pattern ∈ wordPatterns, (∀ p ∈ wordPatterns, Fits op.word.toNat p ↔ p = pattern) ∧
      (∀ part, Changed s t part → pattern ∈ part.owners s.dialect) ∧
      ∀ j, t.v j ≠ s.v j → MayWrite s op.x j pattern := by
  obtain ⟨i, hop, hperform⟩ := execute_eq_ok_iff.mp hexecute
  refine ⟨i.pattern, Opcode.pattern_mem i, ?_, ?_, ?_⟩
  · intro p hp
    exact Opcode.fits_iff_pattern hop hp
  · intro part hchanged
    exact perform_changed hperform hchanged
  · intro j hne
    exact perform_mayWrite hop hperform hne

/-- A shift whose result goes where its flag goes. -/
theorem execute_changes_own_part_of_shift : ∃ s t : State 64 32,
    create 64 32 ⟨0, 0⟩ [] {} 16 = .ok s ∧ (s.setV 2 0x81).execute (.ofInt 0x8F26) = .ok t ∧
    ∃ pattern ∈ wordPatterns, (∀ p ∈ wordPatterns, Fits 0x8F26 p ↔ p = pattern) ∧
      (∀ part, Changed (s.setV 2 0x81) t part → pattern ∈ part.owners {}) ∧
      ∀ j, t.v j ≠ (s.setV 2 0x81).v j → MayWrite (s.setV 2 0x81) 0xF j pattern := by
  have hresult : (do
      let s ← create 64 32 ⟨0, 0⟩ [] {} 16
      let t ← (s.setV 2 0x81).execute (.ofInt 0x8F26)
      return t.v 0xF) = Except.ok 0x40 := by
    decide +kernel
  obtain ⟨s, hcreate, hresult⟩ := bind_eq_ok_iff.mp hresult
  obtain ⟨t, hexecute, -⟩ := bind_eq_ok_iff.mp hresult
  have hdialect : (s.setV 2 0x81).dialect = {} := (create_sound hcreate).dialect_eq
  obtain ⟨pattern, hmem, hfits, hparts, hregisters⟩ := execute_changes_own_part hexecute
  rw [hdialect] at hparts
  exact ⟨s, t, hcreate, hexecute, pattern, hmem, hfits, hparts, hregisters⟩

end State

end ChipEight
