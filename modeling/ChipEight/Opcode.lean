import ChipEight.Hex

/-!
# Instruction words

An `Opcode` is the sixteen-bit word of one instruction. Its fields are the four nibbles
`family`, `x`, `y` and `n` from the highest to the lowest, the low byte `nn` and the low twelve
bits `nnn`; `hex` shows the word as four digits.
-/

namespace ChipEight

/-- A word of a program, read as an instruction or not. -/
structure Opcode where
  word : Word
deriving DecidableEq, Repr

namespace Opcode

/-- The opcode in the low sixteen bits of an integer, two's complement below zero. -/
def ofInt (n : Int) : Opcode := ⟨UInt16.ofInt n⟩

/-- Two bytes as they stand in memory, the high one first. -/
def ofBytes (high low : Byte) : Opcode := ⟨UInt16.ofNat (256 * high.toNat + low.toNat)⟩

/-- The highest nibble, which selects the family of the instruction. -/
def family (op : Opcode) : Nibble := Fin.ofNat 16 (op.word.toNat / 4096)

/-- The first register operand. -/
def x (op : Opcode) : Nibble := Fin.ofNat 16 (op.word.toNat / 256)

/-- The second register operand. -/
def y (op : Opcode) : Nibble := Fin.ofNat 16 (op.word.toNat / 16)

/-- The lowest nibble. -/
def n (op : Opcode) : Nibble := Fin.ofNat 16 op.word.toNat

/-- The immediate byte. -/
def nn (op : Opcode) : Byte := UInt8.ofNat op.word.toNat

/-- The immediate address. -/
def nnn (op : Opcode) : Address := Address.ofWord op.word

/-- The word as four hexadecimal digits. -/
def hex (op : Opcode) : String :=
  String.ofList [Hex.digit op.family, Hex.digit op.x, Hex.digit op.y, Hex.digit op.n]

/-- The first of the four digits. -/
def firstDigit (op : Opcode) : String := String.ofList [Hex.digit op.family]

@[simp] theorem val_family (op : Opcode) : op.family.val = op.word.toNat / 4096 := by
  have := op.word.toNat_lt
  simp only [family, Fin.ofNat]
  omega

@[simp] theorem val_x (op : Opcode) : op.x.val = op.word.toNat / 256 % 16 := rfl

@[simp] theorem val_y (op : Opcode) : op.y.val = op.word.toNat / 16 % 16 := rfl

@[simp] theorem val_n (op : Opcode) : op.n.val = op.word.toNat % 16 := rfl

@[simp] theorem toNat_nn (op : Opcode) : op.nn.toNat = op.word.toNat % 256 := by
  simp [nn]

@[simp] theorem val_nnn (op : Opcode) : op.nnn.val = op.word.toNat % 4096 := rfl

end Opcode

end ChipEight
