import ChipEight.Instruction
import ChipEight.State

/-!
# Execution

One instruction after the other. `State.fetch` reads the opcode at the program counter and moves
the counter past it; `State.perform` carries an instruction out, with the counter already moved;
`State.execute` looks an opcode up and performs it; and `State.step` is a fetch followed by an
execution. Only three things go wrong: an opcode outside the table, a return without a call and a
call too deep; each names the place two bytes before the program counter.
-/

namespace ChipEight.State

variable {w h : Nat}

/-! ## The program counter -/

/-- The place of the instruction that was fetched last, in sixteen bits. -/
def origin (s : State w h) : Word := s.pc - 2

/-- Moves the program counter on by one instruction, wrapping at the end of memory. -/
def advance (s : State w h) : State w h :=
  { s with pc := (Address.ofWord s.pc + 2).toWord }

/-- Moves the program counter back by one instruction. -/
def rewind (s : State w h) : State w h :=
  { s with pc := (Address.ofWord s.pc - 2).toWord }

/-- The next instruction is the one at the target. -/
def jump (s : State w h) (target : Address) : State w h := { s with pc := target.toWord }

/-- Passes over the next instruction if the condition holds. -/
def skipIf (s : State w h) (condition : Bool) : State w h := if condition then s.advance else s

/-- Puts the program counter on the call stack and jumps. -/
def call (s : State w h) (target : Address) : Except Fault (State w h) := do
  let stack ← s.stack.push s.pc.toNat s.origin.toNat
  return { s with stack }.jump target

/-- Takes the program counter from the call stack. -/
def ret (s : State w h) : Except Fault (State w h) := do
  let (stack, pc) ← s.stack.pop s.origin.toNat
  return { s with stack, pc }

/-! ## Registers -/

/-- The flag is written before the result, so a result in the flag register stays. -/
def alu (s : State w h) (op : AluOp) (x y : Nibble) : State w h :=
  let (result, flag) := op.evaluate s.dialect.legacyShift (s.v x) (s.v y)
  match flag with
  | some flag => (s.setFlag flag).setV x result
  | none => s.setV x result

/-- The random key moves on and `VX` receives the bits of the byte drawn that the mask has. -/
def randomize (s : State w h) (x : Nibble) (mask : Byte) : State w h :=
  { s with random := s.random.next }.setV x (s.random.byte &&& mask)

/-! ## The screen -/

/-- The pixels that the sprite at the index register covers, drawn where `VX` and `VY` say. -/
def spriteTargets (s : State w h) (x y rows : Nibble) : List (Fin w × Fin h) :=
  Sprite.targets w h s.memory (Address.ofWord s.index) rows.val s.dialect.wrapSprites
    ((s.v x).toNat % w) ((s.v y).toNat % h)

/-- The pixels that a sprite covers change, and the flag tells whether one of them was lit. -/
def draw (s : State w h) (x y rows : Nibble) : State w h :=
  let targets := s.spriteTargets x y rows
  { s with screen := s.screen.xor (Sprite.plane targets) }.setFlag
    (targets.any fun p => s.screen.get p.1 p.2)

def clear (s : State w h) : State w h := { s with screen := Raster.fill false }

/-! ## Keys -/

/-- The key that the low four bits of `VX` name. -/
def keyOf (s : State w h) (x : Nibble) : Nibble := Fin.ofNat 16 (s.v x).toNat

/-- Whether the key that `VX` names is down in the snapshot. -/
def isHeld (s : State w h) (x : Nibble) : Bool := s.held[s.keyOf x]

/-- Gives `VX` the smallest key newly pressed; where there is none, the instruction comes again. -/
def awaitKey (s : State w h) (x : Nibble) : State w h :=
  match s.pressed.toList.head? with
  | some key => s.setV x (UInt8.ofNat key.val)
  | none => s.rewind

/-! ## The index register and memory -/

/-- Adds `VX` to the index register; the flag tells whether the sum passed sixteen bits. -/
def increaseIndex (s : State w h) (x : Nibble) : State w h :=
  let total := s.index.toNat + (s.v x).toNat
  { s with index := UInt16.ofNat total }.setFlag (65535 < total)

/-- The index register at the glyph of the digit `VX`, which may lie past the font. -/
def pointGlyph (s : State w h) (x : Nibble) : State w h :=
  { s with index := UInt16.ofNat (Memory.glyphSize * (s.v x).toNat) }

/-- The three decimal digits of a byte, the highest first. -/
def decimalDigits (b : Byte) : List Byte := [b / 100, b / 10 % 10, b % 10]

/-- Stores the three decimal digits of `VX` from the index register on. -/
def storeDecimal (s : State w h) (x : Nibble) : State w h :=
  { s with memory := s.memory.writeAll (Address.ofWord s.index) (decimalDigits (s.v x)) }

/-- The index register after the transfer of `V0` to `VX`. -/
def indexAfterTransfer (s : State w h) (x : Nibble) : Word :=
  if s.dialect.incrementIndex then s.index + UInt16.ofNat (x.val + 1) else s.index

/-- Stores `V0` to `VX` from the index register on, around the end of memory, and moves the index
register if the dialect says so. -/
def storeRegisters (s : State w h) (x : Nibble) : State w h :=
  { s with
    memory := s.memory.writeAll (Address.ofWord s.index) (s.registers.toList.take (x.val + 1))
    index := s.indexAfterTransfer x }

/-- Loads `V0` to `VX` from the index register on, around the end of memory, and moves the index
register if the dialect says so. The registers behind `VX` keep their values. -/
def loadRegisters (s : State w h) (x : Nibble) : State w h :=
  { s with
    registers := Vector.ofFn fun j : Nibble =>
      if j ≤ x then s.memory.read (Address.ofWord s.index + Fin.ofNat 4096 j.val) else s.v j
    index := s.indexAfterTransfer x }

/-! ## Instructions -/

/-- Carries an instruction out; the program counter already points past it. -/
def perform (s : State w h) : Instruction → Except Fault (State w h)
  | .clear => .ok s.clear
  | .ret => s.ret
  | .jump target => .ok (s.jump target)
  | .call target => s.call target
  | .skipIfEqual x value => .ok (s.skipIf (s.v x == value))
  | .skipIfUnequal x value => .ok (s.skipIf (s.v x != value))
  | .skipIfSame x y => .ok (s.skipIf (s.v x == s.v y))
  | .load x value => .ok (s.setV x value)
  | .increase x value => .ok (s.setV x (s.v x + value))
  | .alu op x y => .ok (s.alu op x y)
  | .skipIfDifferent x y => .ok (s.skipIf (s.v x != s.v y))
  | .setIndex value => .ok { s with index := value.toWord }
  | .jumpOffset base => .ok (s.jump (base + Fin.ofNat 4096 (s.v 0).toNat))
  | .random x mask => .ok (s.randomize x mask)
  | .draw x y rows => .ok (s.draw x y rows)
  | .skipIfHeld x => .ok (s.skipIf (s.isHeld x))
  | .skipIfReleased x => .ok (s.skipIf !s.isHeld x)
  | .readDelay x => .ok (s.setV x s.delay)
  | .awaitKey x => .ok (s.awaitKey x)
  | .setDelay x => .ok { s with delay := s.v x }
  | .setSound x => .ok { s with sound := s.v x }
  | .increaseIndex x => .ok (s.increaseIndex x)
  | .pointGlyph x => .ok (s.pointGlyph x)
  | .storeDecimal x => .ok (s.storeDecimal x)
  | .storeRegisters x => .ok (s.storeRegisters x)
  | .loadRegisters x => .ok (s.loadRegisters x)

/-- Looks an opcode up and carries it out. -/
def execute (s : State w h) (op : Opcode) : Except Fault (State w h) :=
  match op.instruction? with
  | some i => s.perform i
  | none => .error (.unknownOpcode op.hex s.origin.toNat)

/-- The opcode at the program counter. -/
def nextOpcode (s : State w h) : Opcode := ⟨s.memory.readWord (Address.ofWord s.pc)⟩

/-- Reads the opcode at the program counter and moves the counter past it. -/
def fetch (s : State w h) : State w h × Opcode := (s.advance, s.nextOpcode)

/-- Fetches one instruction and executes it. -/
def step (s : State w h) : Except Fault (State w h × Opcode) := do
  let (fetched, op) := s.fetch
  return (← fetched.execute op, op)

end ChipEight.State
