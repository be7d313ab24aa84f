import ChipEight.Instruction

/-!
# Words of instructions

The instruction table reads an instruction out of a word; `Instruction.word` writes the word of an
instruction, its highest digit (`Instruction.family`) and the three digits below it
(`Instruction.operands`). The two undo each other: the table finds an instruction in one word, the
one that writes it (`Opcode.instruction?_eq_some_iff`). What is said of all words of a kind is from
here on a matter of numbers and does not open the table.
-/

namespace ChipEight

/-- The lowest digit of the words that ask for an operation. -/
def AluOp.code : AluOp → Nibble
  | set => 0x0
  | or => 0x1
  | and => 0x2
  | xor => 0x3
  | add => 0x4
  | subtract => 0x5
  | shiftRight => 0x6
  | subtractFrom => 0x7
  | shiftLeft => 0xE

theorem AluOp.ofNibble?_eq_some_iff {n : Nibble} {op : AluOp} :
    ofNibble? n = some op ↔ n = op.code := by
  revert n
  cases op <;> decide

namespace Instruction

/-- The highest digit of the word. -/
def family : Instruction → Nat
  | clear | ret => 0x0
  | jump _ => 0x1
  | call _ => 0x2
  | skipIfEqual _ _ => 0x3
  | skipIfUnequal _ _ => 0x4
  | skipIfSame _ _ => 0x5
  | load _ _ => 0x6
  | increase _ _ => 0x7
  | alu _ _ _ => 0x8
  | skipIfDifferent _ _ => 0x9
  | setIndex _ => 0xA
  | jumpOffset _ => 0xB
  | random _ _ => 0xC
  | draw _ _ _ => 0xD
  | skipIfHeld _ | skipIfReleased _ => 0xE
  | readDelay _ | awaitKey _ | setDelay _ | setSound _ | increaseIndex _ | pointGlyph _
  | storeDecimal _ | storeRegisters _ | loadRegisters _ => 0xF

/-- The three digits below the highest, as one number. -/
def operands : Instruction → Nat
  | clear => 0x0E0
  | ret => 0x0EE
  | jump a | call a | setIndex a | jumpOffset a => a.val
  | skipIfEqual x b | skipIfUnequal x b | load x b | increase x b | random x b =>
    0x100 * x.val + b.toNat
  | skipIfSame x y | skipIfDifferent x y => 0x100 * x.val + 0x10 * y.val
  | alu op x y => 0x100 * x.val + 0x10 * y.val + op.code.val
  | draw x y rows => 0x100 * x.val + 0x10 * y.val + rows.val
  | skipIfHeld x => 0x100 * x.val + 0x9E
  | skipIfReleased x => 0x100 * x.val + 0xA1
  | readDelay x => 0x100 * x.val + 0x07
  | awaitKey x => 0x100 * x.val + 0x0A
  | setDelay x => 0x100 * x.val + 0x15
  | setSound x => 0x100 * x.val + 0x18
  | increaseIndex x => 0x100 * x.val + 0x1E
  | pointGlyph x => 0x100 * x.val + 0x29
  | storeDecimal x => 0x100 * x.val + 0x33
  | storeRegisters x => 0x100 * x.val + 0x55
  | loadRegisters x => 0x100 * x.val + 0x65

/-- The word of an instruction: its family in the highest digit, its operands below. -/
def word (i : Instruction) : Nat := 0x1000 * i.family + i.operands

theorem operands_lt (i : Instruction) : i.operands < 0x1000 := by
  cases i with
  | skipIfEqual x b | skipIfUnequal x b | load x b | increase x b | random x b =>
    have := b.toNat_lt
    simp only [operands]
    omega
  | _ =>
    simp only [operands]
    omega

theorem word_lt (i : Instruction) : i.word < 0x10000 := by
  have hfamily : i.family < 0x10 := by
    cases i <;> simp [family]
  have := i.operands_lt
  rw [word]
  omega

end Instruction

namespace Opcode

/-- A word is that of an instruction if family and operands are. -/
theorem word_eq_word_iff (op : Opcode) (i : Instruction) : op.word.toNat = i.word ↔
    op.family.val = i.family ∧ op.word.toNat % 0x1000 = i.operands := by
  have := i.operands_lt
  rw [val_family, Instruction.word]
  omega

/-! ## Operands -/

theorem x_nn_of_operands {x : Nibble} {k : Nat} (op : Opcode)
    (hlow : op.word.toNat % 0x1000 = 0x100 * x.val + k) (hk : k < 0x100) :
    op.x = x ∧ op.nn.toNat = k := by
  refine ⟨Fin.ext ?_, ?_⟩
  · rw [val_x]
    omega
  · rw [toNat_nn]
    omega

theorem x_y_n_of_operands {x y n : Nibble} (op : Opcode)
    (hlow : op.word.toNat % 0x1000 = 0x100 * x.val + 0x10 * y.val + n.val) :
    op.x = x ∧ op.y = y ∧ op.n = n := by
  refine ⟨Fin.ext ?_, Fin.ext ?_, Fin.ext ?_⟩
  · rw [val_x]
    omega
  · rw [val_y]
    omega
  · rw [val_n]
    omega

/-! ## From the table to the word -/

theorem word_of_plain? {op : Opcode} {i : Instruction} (hplain : op.plain? = some i) :
    op.word.toNat = i.word := by
  unfold plain? at hplain
  split at hplain
  case h_3 => cases hplain
  all_goals
    cases hplain
    assumption

theorem word_of_key? {op : Opcode} {i : Instruction} (hfamily : op.family.val = 0xE)
    (hkey : op.key? = some i) : op.word.toNat = i.word := by
  rw [word_eq_word_iff]
  have hnn := op.toNat_nn
  unfold key? at hkey
  split at hkey
  case h_3 => cases hkey
  all_goals
    cases hkey
    refine ⟨hfamily, ?_⟩
    simp only [Instruction.operands, val_x]
    omega

theorem word_of_device? {op : Opcode} {i : Instruction} (hfamily : op.family.val = 0xF)
    (hdevice : op.device? = some i) : op.word.toNat = i.word := by
  rw [word_eq_word_iff]
  have hnn := op.toNat_nn
  unfold device? at hdevice
  split at hdevice
  case h_10 => cases hdevice
  all_goals
    cases hdevice
    refine ⟨hfamily, ?_⟩
    simp only [Instruction.operands, val_x]
    omega

/-- Decoding finds no instruction but the one whose word it is. -/
theorem word_of_instruction? {op : Opcode} {i : Instruction} (hop : op.instruction? = some i) :
    op.word.toNat = i.word := by
  unfold instruction? at hop
  -- One case for each value of the highest digit; the last is what the first fifteen leave over.
  split at hop
  case h_1 => exact word_of_plain? hop
  case h_2 hfamily | h_3 hfamily | h_11 hfamily | h_12 hfamily =>
    cases hop
    exact (op.word_eq_word_iff _).mpr ⟨hfamily, rfl⟩
  case h_6 hfamily | h_10 hfamily =>
    split at hop
    case isTrue hn =>
      cases hop
      have hlow : op.word.toNat % 16 = 0 := congrArg Fin.val hn
      refine (op.word_eq_word_iff _).mpr ⟨hfamily, ?_⟩
      simp only [Instruction.operands, val_x, val_y]
      omega
    case isFalse => cases hop
  case h_9 hfamily =>
    obtain ⟨f, hf, rfl⟩ := Option.map_eq_some_iff.mp hop
    have hlow : op.word.toNat % 16 = f.code.val :=
      congrArg Fin.val (AluOp.ofNibble?_eq_some_iff.mp hf)
    refine (op.word_eq_word_iff _).mpr ⟨hfamily, ?_⟩
    simp only [Instruction.operands, val_x, val_y]
    omega
  case h_15 hfamily => exact word_of_key? hfamily hop
  case h_16 =>
    refine word_of_device? ?_ hop
    have := op.family.isLt
    simp only [imp_false] at *
    omega
  all_goals
    rename_i hfamily
    cases hop
    refine (op.word_eq_word_iff _).mpr ⟨hfamily, ?_⟩
    simp only [Instruction.operands, val_x, val_y, val_n, toNat_nn]
    omega

/-! ## From the word to the table -/

/-- Decoding finds the instruction whose word it is. -/
theorem instruction?_of_word {op : Opcode} {i : Instruction} (hword : op.word.toNat = i.word) :
    op.instruction? = some i := by
  obtain ⟨hfamily, hlow⟩ := (op.word_eq_word_iff i).mp hword
  unfold instruction?
  rw [hfamily]
  cases i with
  | clear | ret =>
    unfold Instruction.family plain?
    rw [hword]
    rfl
  | jump a | call a | setIndex a | jumpOffset a =>
    have hnnn : op.nnn = a := Fin.ext hlow
    rw [hnnn]
    rfl
  | skipIfEqual x b | skipIfUnequal x b | load x b | increase x b | random x b =>
    obtain ⟨hx, hnn⟩ := op.x_nn_of_operands hlow b.toNat_lt
    rw [hx, UInt8.toNat.inj hnn]
    rfl
  | skipIfSame x y | skipIfDifferent x y =>
    obtain ⟨hx, hy, hn⟩ := op.x_y_n_of_operands (n := 0) hlow
    rw [hx, hy, hn]
    rfl
  | alu f x y =>
    obtain ⟨hx, hy, hn⟩ := op.x_y_n_of_operands hlow
    have hf : AluOp.ofNibble? op.n = some f := AluOp.ofNibble?_eq_some_iff.mpr hn
    change (AluOp.ofNibble? op.n).map _ = _
    rw [hf, hx, hy]
    rfl
  | draw x y rows =>
    obtain ⟨hx, hy, hn⟩ := op.x_y_n_of_operands hlow
    rw [hx, hy, hn]
    rfl
  | skipIfHeld x | skipIfReleased x =>
    obtain ⟨hx, hnn⟩ := op.x_nn_of_operands hlow (by decide)
    unfold Instruction.family key?
    rw [hx, hnn]
    rfl
  | readDelay x | awaitKey x | setDelay x | setSound x | increaseIndex x | pointGlyph x
  | storeDecimal x | storeRegisters x | loadRegisters x =>
    obtain ⟨hx, hnn⟩ := op.x_nn_of_operands hlow (by decide)
    unfold Instruction.family device?
    rw [hx, hnn]
    rfl

/-- The table finds an instruction in the word that writes it and in no other. -/
theorem instruction?_eq_some_iff {op : Opcode} {i : Instruction} :
    op.instruction? = some i ↔ op.word.toNat = i.word := by
  constructor
  · exact word_of_instruction?
  · exact instruction?_of_word

end Opcode

end ChipEight
