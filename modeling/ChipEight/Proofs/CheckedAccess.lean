import ChipEight.Proofs.Run

/-!
# Execution with checked accesses

The instructions once more, with their operands taken from the word by masks and shifts, every place
in an array reckoned out as an integer, and every access by such an integer checked first: an index
outside its array is a `Trap`, and so is a remainder by zero. A sprite aims at a pixel with each of
its eight times sixteen bits, those beyond its last row and those cut off at an edge included.

* `Checked.index`, `Checked.remainder`: the two checks.
* `Checked.execute`, `Checked.step`, `Checked.run`: an instruction word, the instruction at the
  program counter and a run.
-/

namespace ChipEight

/-- What instructions index: arrays of a state, and the table of instruction families. -/
inductive Store where
  | registers
  | memory
  | slots
  | keys
  | columns
  | rows
  | families
deriving DecidableEq, Repr

/-- Why a checked execution stops. -/
inductive Trap where
  /-- For a reason that has nothing to do with the checks. -/
  | failure (cause : Failure)
  /-- There is no such place in this array. -/
  | outOfRange (store : Store) (index : Int)
  /-- A remainder by zero was asked for. -/
  | zeroDivisor
deriving DecidableEq, Repr

abbrev Trap.fault (cause : Fault) : Trap := .failure (.fault cause)

/-- The operands of an instruction word. -/
structure Fields where
  raw : Nat
  family : Nat
  x : Nat
  y : Nat
  n : Nat
  nn : Nat
  nnn : Nat
deriving DecidableEq, Repr

/-- The operands in the low sixteen bits of a word. -/
def Fields.ofWord (word : Int) : Fields :=
  let raw := (word % 65536).toNat
  { raw
    family := (raw &&& 0xF000) >>> 12
    x := (raw &&& 0x0F00) >>> 8
    y := (raw &&& 0x00F0) >>> 4
    n := raw &&& 0x000F
    nn := raw &&& 0x00FF
    nnn := raw &&& 0x0FFF }

namespace Checked

variable {w h : Nat}

/-! ## Checks -/

/-- The place that an index names in a store of this size. -/
def index (store : Store) (size : Nat) (i : Int) : Except Trap (Fin size) :=
  if hi : 0 ≤ i ∧ i < size then .ok ⟨i.toNat, by omega⟩ else .error (.outOfRange store i)

/-- The remainder of a division, which is undefined by zero. -/
def remainder (a b : Int) : Except Trap Int := if b = 0 then .error .zeroDivisor else .ok (a % b)

/-! ## Accesses -/

/-- The register with this number, which has to be one of sixteen. -/
def readRegister (s : State w h) (i : Int) : Except Trap Byte := do
  let x ← index .registers 16 i
  return s.v x

/-- Gives the register with this number a value. -/
def writeRegister (s : State w h) (i : Int) (b : Byte) : Except Trap (State w h) := do
  let x ← index .registers 16 i
  return s.setV x b

def writeFlag (s : State w h) (flag : Bool) : Except Trap (State w h) :=
  writeRegister s 0xF (Byte.ofFlag flag)

/-- The byte in this cell of memory, which has to exist. -/
def readMemory (m : Memory) (i : Int) : Except Trap Byte := do
  let a ← index .memory 4096 i
  return m.read a

/-- Gives this cell of memory a byte. -/
def writeMemory (m : Memory) (i : Int) (b : Byte) : Except Trap Memory := do
  let a ← index .memory 4096 i
  return m.write a b

/-- The place of a byte in the run of cells that the index register points at. -/
def cellPlace (s : State w h) (j : Nat) : Int := ((s.index.toNat + j) &&& 0xFFF : Nat)

/-- Writes bytes to the cells from the index register on. -/
def writeCells (s : State w h) (bytes : List Byte) : Except Trap Memory :=
  bytes.zipIdx.foldlM (fun m b => writeMemory m (cellPlace s b.2) b.1) s.memory

/-- What the snapshot says about the key with this number. -/
def readKey (s : State w h) (i : Int) : Except Trap Bool := do
  let key ← index .keys 16 i
  return s.held[key]

/-- Puts an address into the slot at the stack pointer, if the pointer is below the limit. -/
def push (stack : CallStack) (address origin : Int) : Except Trap CallStack :=
  let pointer : Int := stack.depth
  if stack.slots.size ≤ pointer then .error (.fault (.stackOverflow origin stack.slots.size))
  else do
    let slot ← index .slots stack.slots.size pointer
    return {
      slots := stack.slots.set slot (UInt16.ofNat (address % 4096).toNat)
      depth := slot + 1
      depth_le := by rw [Array.size_set]; exact slot.isLt }

/-- Takes the address from the slot below the stack pointer, if there is one, and clears the
slot. -/
def pop (stack : CallStack) (origin : Int) : Except Trap (CallStack × Word) :=
  let pointer : Int := stack.depth
  if pointer ≤ 0 then .error (.fault (.stackUnderflow origin))
  else do
    let slot ← index .slots stack.slots.size (pointer - 1)
    return ({
      slots := stack.slots.set slot 0
      depth := slot
      depth_le := by rw [Array.size_set]; exact Nat.le_of_lt slot.isLt }, stack.slots[slot])

/-! ## Instructions -/

/-- What the instructions of a family do with the operands of a word. -/
abbrev Handler (w h : Nat) := State w h → Fields → Except Trap (State w h)

/-- A word that is no instruction. -/
def unknown : Handler w h := fun s f =>
  .error (.fault (.unknownOpcode (Opcode.ofInt f.raw).hex s.origin.toNat))

/-- The family of the digit 0: clearing the screen and returning. -/
def system : Handler w h := fun s f =>
  match f.raw with
  | 0x00E0 => .ok s.clear
  | 0x00EE => do
    let (stack, pc) ← pop s.stack s.origin.toNat
    return { s with stack, pc }
  | _ => unknown s f

/-- `1NNN` -/
def jump : Handler w h := fun s f => .ok { s with pc := UInt16.ofNat f.nnn }

/-- `2NNN`: the address of the next instruction is put on the stack before the jump. -/
def call : Handler w h := fun s f => do
  let stack ← push s.stack s.pc.toNat s.origin.toNat
  jump { s with stack } f

/-- Passes over the next instruction on a condition, the program counter wrapping at the end of
memory. -/
def skipIf (condition : State w h → Fields → Except Trap Bool) : Handler w h := fun s f => do
  return s.skipIf (← condition s f)

/-- A skip whose word must end in a zero. -/
def skipIfRound (condition : State w h → Fields → Except Trap Bool) : Handler w h := fun s f =>
  if f.n ≠ 0 then unknown s f else skipIf condition s f

/-- Whether `VX` is the byte of the word. -/
def equalsByte (s : State w h) (f : Fields) : Except Trap Bool := do
  return (← readRegister s f.x).toNat == f.nn

def equalsRegister (s : State w h) (f : Fields) : Except Trap Bool := do
  return (← readRegister s f.x) == (← readRegister s f.y)

/-- Whether the key in the low bits of `VX` is down. -/
def isHeld (s : State w h) (f : Fields) : Except Trap Bool := do
  let vx ← readRegister s f.x
  readKey s (vx.toNat &&& 0xF : Nat)

/-- The opposite of a condition. -/
def negated (condition : State w h → Fields → Except Trap Bool) (s : State w h) (f : Fields) :
    Except Trap Bool := do
  return !(← condition s f)

/-- `6XNN` -/
def load : Handler w h := fun s f => writeRegister s f.x (UInt8.ofNat f.nn)

/-- `7XNN`: without a carry. -/
def increase : Handler w h := fun s f => do
  let vx ← readRegister s f.x
  writeRegister s f.x (UInt8.ofNat ((vx.toNat + f.nn) &&& 0xFF))

/-- Writes a result, after the flag if there is one. -/
def writeResult (s : State w h) (f : Fields) : Byte × Option Bool → Except Trap (State w h)
  | (result, none) => writeRegister s f.x result
  | (result, some flag) => do
    let s ← writeFlag s flag
    writeRegister s f.x result

/-- The family of the digit 8, by the last digit of the word. -/
def alu : Handler w h := fun s f =>
  match (Nibble.ofInt? f.n).bind AluOp.ofNibble? with
  | none => unknown s f
  | some op => do
    let vx ← readRegister s f.x
    let vy ← readRegister s f.y
    writeResult s f (op.evaluate s.dialect.legacyShift vx vy)

/-- `ANNN` -/
def setIndex : Handler w h := fun s f => .ok { s with index := UInt16.ofNat f.nnn }

/-- `BNNN`: the target is taken from `V0` and wraps at the end of memory. -/
def jumpOffset : Handler w h := fun s f => do
  let v0 ← readRegister s 0
  return { s with pc := UInt16.ofNat ((f.nnn + v0.toNat) &&& 0xFFF) }

/-- `CXNN` -/
def random : Handler w h := fun s f =>
  writeRegister { s with random := s.random.next } f.x (s.random.byte &&& UInt8.ofNat f.nn)

/-! ### Sprites -/

/-- The pixel at which the bit in a column and a row of a sprite is aimed, and whether the bit is to
be seen there. -/
def aim (s : State w h) (left top : Int) (rows : Nat) (cell : Nat × Nat) :
    Except Trap ((Fin w × Fin h) × Bool) := do
  let byte ← readMemory s.memory (cellPlace s cell.2)
  let bit := (byte.toNat >>> (7 - cell.1)) &&& 1 == 1 && cell.2 < rows
  let x := left + cell.1
  let y := top + cell.2
  if s.dialect.wrapSprites then
    let column ← index .columns w (← remainder x w)
    let row ← index .rows h (← remainder y h)
    return ((column, row), bit)
  else
    let column ← index .columns w (min x (w - 1))
    let row ← index .rows h (min y (h - 1))
    return ((column, row), bit && x < w && y < h)

/-- The eight columns and sixteen rows of the largest sprite. -/
def cells : List (Nat × Nat) :=
  (List.range 8).flatMap fun column => (List.range 16).map fun row => (column, row)

/-- Adds up the bits that are aimed at each pixel; a pixel with none of them stays dark. -/
def plane (s : State w h) (left top : Int) (rows : Nat) : Except Trap (Screen w h) := do
  let aims ← cells.mapM (aim s left top rows)
  let counts : Raster Nat w h := aims.foldl
    (fun counts a => counts.set a.1 (counts.get a.1.1 a.1.2 + a.2.toNat)) (Raster.fill 0)
  return counts.map (0 < ·)

/-- `DXYN`, with the sixteen rows and eight columns of which a sprite can consist. -/
def draw : Handler w h := fun s f => do
  let left ← remainder (← readRegister s f.x).toNat w
  let top ← remainder (← readRegister s f.y).toNat h
  let sprite ← plane s left top f.n
  let hit := Raster.points.any fun p => s.screen.get p.1 p.2 && sprite.get p.1 p.2
  writeFlag { s with screen := s.screen.xor sprite } hit

/-! ### Keys, timers, the index register and memory -/

/-- The family of the digit E, by the last byte of the word. -/
def keys : Handler w h := fun s f =>
  match f.nn with
  | 0x9E => skipIf isHeld s f
  | 0xA1 => skipIf (negated isHeld) s f
  | _ => unknown s f

/-- `FX0A`: takes the first of the new presses, or goes back to itself. -/
def awaitKey : Handler w h := fun s f =>
  match s.pressed.toList.head? with
  | some key => writeRegister s f.x (UInt8.ofNat key.val)
  | none => .ok s.rewind

/-- `FX1E`: the flag tells whether the sum passes sixteen bits. -/
def increaseIndex : Handler w h := fun s f => do
  let vx ← readRegister s f.x
  let total := s.index.toNat + vx.toNat
  writeFlag { s with index := UInt16.ofNat (total &&& 0xFFFF) } (65535 < total)

/-- `FX29` -/
def pointGlyph : Handler w h := fun s f => do
  let vx ← readRegister s f.x
  return { s with index := UInt16.ofNat (vx.toNat * Memory.glyphSize) }

/-- `FX33` -/
def storeDecimal : Handler w h := fun s f => do
  let value := (← readRegister s f.x).toNat
  let memory ← writeCells s [UInt8.ofNat (value / 100), UInt8.ofNat (value / 10 % 10),
    UInt8.ofNat (value % 10)]
  return { s with memory }

/-- The index register after `FX55` and `FX65`. -/
def indexAfterTransfer (s : State w h) (f : Fields) : Word :=
  if s.dialect.incrementIndex then UInt16.ofNat (s.index.toNat + f.x + 1) else s.index

/-- The sixteen cells from the index register on. -/
def window (s : State w h) : Except Trap (Vector Byte 16) :=
  Vector.ofFnM fun j => readMemory s.memory (cellPlace s j.val)

/-- All sixteen cells are written, those beyond the last register with what they hold. -/
def storeRegisters : Handler w h := fun s f => do
  let cells ← window s
  let memory ← writeCells s
    ((List.finRange 16).map fun j => if j.val ≤ f.x then s.v j else cells.get j)
  return { s with memory, index := indexAfterTransfer s f }

/-- All sixteen cells are read, and the registers behind the last keep their values. -/
def loadRegisters : Handler w h := fun s f => do
  let cells ← window s
  return { s with
    registers := Vector.ofFn fun j => if j.val ≤ f.x then cells.get j else s.v j
    index := indexAfterTransfer s f }

/-- The family of the digit F, by the last byte of the word. -/
def devices : Handler w h := fun s f =>
  match f.nn with
  | 0x07 => writeRegister s f.x s.delay
  | 0x0A => awaitKey s f
  | 0x15 => do return { s with delay := ← readRegister s f.x }
  | 0x18 => do return { s with sound := ← readRegister s f.x }
  | 0x1E => increaseIndex s f
  | 0x29 => pointGlyph s f
  | 0x33 => storeDecimal s f
  | 0x55 => storeRegisters s f
  | 0x65 => loadRegisters s f
  | _ => unknown s f

/-! ## Words, steps and runs -/

/-- The families, by the highest digit of their words. -/
def families : Vector (Handler w h) 16 := #v[system, jump, call, skipIf equalsByte,
  skipIf (negated equalsByte), skipIfRound equalsRegister, load, increase, alu,
  skipIfRound (negated equalsRegister), setIndex, jumpOffset, random, draw, keys, devices]

/-- Carries out a word: its family is looked up in the table, and the handler takes the operands. -/
def execute (s : State w h) (word : Int) : Except Trap (State w h) := do
  let f := Fields.ofWord word
  let family ← index .families 16 f.family
  families.get family s f

/-- Reads the two bytes at the program counter, moves it on and carries out their word. -/
def step (s : State w h) : Except Trap (State w h × Opcode) := do
  let address := s.pc.toNat &&& 0xFFF
  let high ← readMemory s.memory address
  let low ← readMemory s.memory ((address + 1) &&& 0xFFF : Nat)
  let word := high.toNat <<< 8 ||| low.toNat
  let t ← execute { s with pc := UInt16.ofNat ((s.pc.toNat + 2) &&& 0xFFF) } word
  return (t, .ofInt word)

/-- A single action with every access checked. -/
def act (s : State w h) : Action → Except Trap (State w h)
  | .step => (step s).map Prod.fst
  | .execute op => execute s op.word.toNat
  | .tick count => (s.tick count).mapError fun cause => .failure (.number cause)
  | .snapshot held pressed => .ok { s with held, pressed }

/-- Actions in a row, up to the first that does not succeed. -/
def run (s : State w h) : List Action → Except Trap (State w h)
  | [] => .ok s
  | action :: actions => do run (← act s action) actions

end Checked

end ChipEight
