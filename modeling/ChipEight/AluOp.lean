import ChipEight.Word

/-!
# Arithmetic on two registers

The nine operations of the `8XYN` family. Each gives a result and, where it sets one, a flag: the
carry of a sum, the strict comparison of a difference, the bit a shift drops. `AluOp.apply` works
on the operands, and `AluOp.evaluate` first settles which operand a shift reads.
-/

namespace ChipEight

/-- The nine operations of the instructions `8XYN`. -/
inductive AluOp where
  | set
  | or
  | and
  | xor
  | add
  | subtract
  | shiftRight
  | subtractFrom
  | shiftLeft
deriving DecidableEq, Repr

namespace AluOp

/-- The operation that the lowest nibble of the opcode selects. -/
def ofNibble? (n : Nibble) : Option AluOp :=
  match n.val with
  | 0x0 => some set
  | 0x1 => some or
  | 0x2 => some and
  | 0x3 => some xor
  | 0x4 => some add
  | 0x5 => some subtract
  | 0x6 => some shiftRight
  | 0x7 => some subtractFrom
  | 0xE => some shiftLeft
  | _ => none

/-- Whether the operation moves the bits of one operand; only these depend on the dialect. -/
def isShift : AluOp → Bool
  | shiftRight | shiftLeft => true
  | _ => false

/-- The result and the flag for the values of `VX` and `VY`; a shift moves `VX`. -/
def apply (vx vy : Byte) : AluOp → Byte × Option Bool
  | set => (vy, none)
  | or => (vx ||| vy, none)
  | and => (vx &&& vy, none)
  | xor => (vx ^^^ vy, none)
  | add => (vx + vy, some (255 < vx.toNat + vy.toNat))
  | subtract => (vx - vy, some (vy < vx))
  | shiftRight => (vx / 2, some (vx % 2 == 1))
  | subtractFrom => (vy - vx, some (vx < vy))
  | shiftLeft => (vx + vx, some (128 ≤ vx))

/-- As `apply`, but under `legacyShift` a shift moves `VY`. -/
def evaluate (op : AluOp) (legacyShift : Bool) (vx vy : Byte) : Byte × Option Bool :=
  if legacyShift && op.isShift then op.apply vy vy else op.apply vx vy

end AluOp

/-- A flag as the value of a register. -/
def Byte.ofFlag (b : Bool) : Byte := if b then 1 else 0

end ChipEight
