import ChipEight.Opcode
import ChipEight.AluOp

/-!
# Instructions

What an opcode asks for, with its operands. `Opcode.instruction?` is the instruction table; an
opcode outside the table is no instruction.
-/

namespace ChipEight

/-- What a word can tell a processor to do, with its operands. -/
inductive Instruction where
  /-- `00E0`: every pixel goes dark. -/
  | clear
  /-- `00EE`: back to the address on top of the call stack. -/
  | ret
  /-- `1NNN` -/
  | jump (target : Address)
  /-- `2NNN`: as a jump, with the address of the next instruction put on the call stack. -/
  | call (target : Address)
  /-- `3XNN` -/
  | skipIfEqual (x : Nibble) (value : Byte)
  /-- `4XNN` -/
  | skipIfUnequal (x : Nibble) (value : Byte)
  /-- `5XY0` -/
  | skipIfSame (x y : Nibble)
  /-- `6XNN` -/
  | load (x : Nibble) (value : Byte)
  /-- `7XNN`: no flag is set. -/
  | increase (x : Nibble) (value : Byte)
  /-- `8XYN` -/
  | alu (op : AluOp) (x y : Nibble)
  /-- `9XY0` -/
  | skipIfDifferent (x y : Nibble)
  /-- `ANNN` -/
  | setIndex (value : Address)
  /-- `BNNN`: a jump to the sum of the address and `V0`. -/
  | jumpOffset (base : Address)
  /-- `CXNN`: a random byte, restricted to the bits of the mask. -/
  | random (x : Nibble) (mask : Byte)
  /-- `DXYN`: a sprite of `rows` rows at the place that `VX` and `VY` give. -/
  | draw (x y rows : Nibble)
  /-- `EX9E` -/
  | skipIfHeld (x : Nibble)
  /-- `EXA1` -/
  | skipIfReleased (x : Nibble)
  /-- `FX07` -/
  | readDelay (x : Nibble)
  /-- `FX0A`: wait until a key goes down. -/
  | awaitKey (x : Nibble)
  /-- `FX15` -/
  | setDelay (x : Nibble)
  /-- `FX18` -/
  | setSound (x : Nibble)
  /-- `FX1E`: the flag tells whether the sum passed sixteen bits. -/
  | increaseIndex (x : Nibble)
  /-- `FX29`: the place of the glyph for the digit `VX`. -/
  | pointGlyph (x : Nibble)
  /-- `FX33`: the three decimal digits of `VX`, the highest first. -/
  | storeDecimal (x : Nibble)
  /-- `FX55`: `V0` to `VX` into memory. -/
  | storeRegisters (x : Nibble)
  /-- `FX65`: `V0` to `VX` out of memory. -/
  | loadRegisters (x : Nibble)
deriving DecidableEq, Repr

namespace Opcode

/-- The instructions without operands. -/
def plain? (op : Opcode) : Option Instruction :=
  match op.word.toNat with
  | 0x00E0 => some .clear
  | 0x00EE => some .ret
  | _ => none

/-- The instructions that ask whether a key is held. -/
def key? (op : Opcode) : Option Instruction :=
  match op.nn.toNat with
  | 0x9E => some (.skipIfHeld op.x)
  | 0xA1 => some (.skipIfReleased op.x)
  | _ => none

/-- The instructions for timers, keys, the index register and transfers. -/
def device? (op : Opcode) : Option Instruction :=
  match op.nn.toNat with
  | 0x07 => some (.readDelay op.x)
  | 0x0A => some (.awaitKey op.x)
  | 0x15 => some (.setDelay op.x)
  | 0x18 => some (.setSound op.x)
  | 0x1E => some (.increaseIndex op.x)
  | 0x29 => some (.pointGlyph op.x)
  | 0x33 => some (.storeDecimal op.x)
  | 0x55 => some (.storeRegisters op.x)
  | 0x65 => some (.loadRegisters op.x)
  | _ => none

/-- The instruction table. -/
def instruction? (op : Opcode) : Option Instruction :=
  match op.family.val with
  | 0x0 => op.plain?
  | 0x1 => some (.jump op.nnn)
  | 0x2 => some (.call op.nnn)
  | 0x3 => some (.skipIfEqual op.x op.nn)
  | 0x4 => some (.skipIfUnequal op.x op.nn)
  | 0x5 => if op.n = 0 then some (.skipIfSame op.x op.y) else none
  | 0x6 => some (.load op.x op.nn)
  | 0x7 => some (.increase op.x op.nn)
  | 0x8 => (AluOp.ofNibble? op.n).map fun operation => .alu operation op.x op.y
  | 0x9 => if op.n = 0 then some (.skipIfDifferent op.x op.y) else none
  | 0xA => some (.setIndex op.nnn)
  | 0xB => some (.jumpOffset op.nnn)
  | 0xC => some (.random op.x op.nn)
  | 0xD => some (.draw op.x op.y op.n)
  | 0xE => op.key?
  | _ => op.device?

end Opcode

end ChipEight
