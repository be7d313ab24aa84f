import ChipEight.CallStack
import ChipEight.Dialect
import ChipEight.Keypad
import ChipEight.Random
import ChipEight.Sprite
import ChipEight.AluOp

/-!
# The state of a processor

Everything that an instruction can read or change. `State.create` is the state in which a program
starts; the keys are a snapshot, taken before each step by whoever runs the processor.
-/

namespace ChipEight

/-- Why something that was asked of a processor or of a machine failed. -/
inductive Failure where
  /-- The program came to an end that is none. -/
  | fault (cause : Fault)
  /-- A number was handed in that cannot be used. -/
  | number (cause : NumberFault)
  /-- A key was asked for that there is not. -/
  | key (cause : KeyFault)
deriving DecidableEq, Repr

def Failure.message : Failure → String
  | fault cause => cause.message
  | number cause => cause.message
  | key cause => cause.message

/-- The registers `V0` to `VF`. -/
abbrev Registers := Vector Byte 16

/-- The register that receives flags. -/
def flagRegister : Nibble := 15

/-- What a program works on: memory, registers, screen and call stack, the two timers, the random
key, and the snapshot of the keys. The dialect never changes. -/
@[ext] structure State (w h : Nat) where
  random : RandomKey
  memory : Memory
  pc : Word
  screen : Screen w h
  stack : CallStack
  delay : Byte
  sound : Byte
  held : Keys
  pressed : Keys
  registers : Registers
  index : Word
  dialect : Dialect
deriving DecidableEq

namespace State

variable {w h : Nat}

/-- The state in which a program starts: the program in memory, its first byte next, and all else
dark, empty or zero. -/
def create (w h : Nat) (random : RandomKey) (rom : List Byte) (dialect : Dialect)
    (stackLimit : Nat) : Except Fault (State w h) := do
  let memory ← Memory.image rom
  return {
    random
    memory
    pc := Memory.programStart.toWord
    screen := Raster.fill false
    stack := CallStack.empty stackLimit
    delay := 0
    sound := 0
    held := Keys.none
    pressed := Keys.none
    registers := Vector.replicate 16 0
    index := 0
    dialect }

/-- Loads a program over what memory holds. -/
def load (s : State w h) (rom : List Byte) : Except Fault (State w h) := do
  return { s with memory := ← s.memory.load rom }

/-- The value of a register. -/
def v (s : State w h) (x : Nibble) : Byte := getElem s.registers x x.lt

/-- Gives a register a value. -/
def setV (s : State w h) (x : Nibble) (b : Byte) : State w h :=
  { s with registers := s.registers.set x b x.lt }

/-- Gives the flag register one or zero. -/
def setFlag (s : State w h) (b : Bool) : State w h := s.setV flagRegister (Byte.ofFlag b)

theorem v_setV (s : State w h) (x y : Nibble) (b : Byte) :
    (s.setV x b).v y = if x = y then b else s.v y := by
  simp [v, setV, Vector.getElem_set, Fin.ext_iff]

/-- Takes a number of ticks off both timers, which stop at zero. -/
def countDown (s : State w h) (ticks : Nat) : State w h :=
  { s with
    delay := UInt8.ofNat (s.delay.toNat - ticks)
    sound := UInt8.ofNat (s.sound.toNat - ticks) }

/-- Counts both timers down. A count that is not positive is none, whatever its size; one of
`2 ^ 31` ticks or more does not fit into the integers in which the timers are reckoned. -/
def tick (s : State w h) (count : Int) : Except NumberFault (State w h) :=
  if count ≤ 0 then .ok s
  else if 2147483648 ≤ count then .error .countTooLarge
  else .ok (s.countDown count.toNat)

theorem countDown_zero (s : State w h) : s.countDown 0 = s := by
  simp [countDown]

/-- The timers count down by every count that fits, and stay as they are for a count below one. -/
theorem tick_eq_ok_iff {s t : State w h} {count : Int} :
    s.tick count = .ok t ↔ count < 2147483648 ∧ t = s.countDown count.toNat := by
  unfold tick
  split
  case isTrue hnone =>
    have hzero : count.toNat = 0 := by omega
    have hsmall : count < 2147483648 := by omega
    simp [hzero, hsmall, countDown_zero, eq_comm]
  case isFalse =>
    split
    case isTrue hlarge => simp [Int.not_lt.mpr hlarge]
    case isFalse hsmall => simp [Int.not_le.mp hsmall, eq_comm]

/-- A count that does not fit is refused, whatever the timers hold. -/
theorem tick_eq_error_iff {s : State w h} {count : Int} {cause : NumberFault} :
    s.tick count = .error cause ↔ 2147483648 ≤ count ∧ cause = .countTooLarge := by
  unfold tick
  split
  case isTrue hnone =>
    have hsmall : ¬ 2147483648 ≤ count := by omega
    simp [hsmall]
  case isFalse =>
    split
    case isTrue hlarge => simp [hlarge, eq_comm]
    case isFalse hsmall => simp [hsmall]

end State

end ChipEight
