import ChipEight.Hex

/-!
# Faults

What stops a program. Arithmetic is never among the causes: eight-bit registers wrap around. Each
fault carries what it was about, and `Fault.message` words it. Addresses, sizes and limits are
integers because a fault may be reported for a place outside memory. A `NumberFault` is no fault of
a program: a host has handed in a number that cannot be reckoned with.
-/

namespace ChipEight

/-- Why a program stops, or cannot be started. A fault carries what its message names. -/
inductive Fault where
  /-- The word at `address` is no instruction. -/
  | unknownOpcode (opcode : String) (address : Int)
  /-- A return with no call to return from. -/
  | stackUnderflow (address : Int)
  /-- A call at the deepest level the stack allows. -/
  | stackOverflow (address : Int) (limit : Int)
  /-- Bytes that do not fit between their first address and the end of memory. -/
  | romTooLarge (size : Int) (capacity : Int)
  /-- Work asked of a machine that has stopped. -/
  | halted (reason : String)
  /-- Any other reason to stop. -/
  | general (reason : String)
deriving DecidableEq, Repr

namespace Fault

/-- The fault of a machine that is used after a fatal one and before a reset. -/
def machineHalted : Fault := .halted "Machine halted on a fatal error; call reset()"

/-- An address as faults and traces show it. -/
def place (address : Int) : String := "0x" ++ Hex.padded 3 address

/-- The text of a fault, as a host reads it. -/
def message : Fault → String
  | unknownOpcode opcode address => "Invalid opcode '" ++ opcode ++ "' at address " ++ place address
  | stackUnderflow address => "Return with empty call stack at address " ++ place address
  | stackOverflow address limit =>
    s!"Call stack limit of {limit} exceeded at address " ++ place address
  | romTooLarge size capacity => s!"ROM of {size} bytes exceeds {capacity} bytes of program memory"
  | halted reason => reason
  | general reason => reason

end Fault

/-! ## Numbers -/

/-- Why a number cannot be used. -/
inductive NumberFault where
  /-- A whole number beyond every float. -/
  | tooLarge
  /-- A whole number was asked of what is no number. -/
  | notANumber
  /-- A whole number was asked of an infinite number. -/
  | endless
  /-- A span was divided into empty intervals. -/
  | emptyInterval
  /-- A frequency that is not above zero, as it was given. -/
  | frequencyNotPositive (given : String)
  /-- A span below zero, as it was given. -/
  | elapsedNegative (given : String)
  /-- A count that does not fit into the 32 bits in which the timers are counted down. -/
  | countTooLarge
  /-- A seed that does not fit into 64 bits. -/
  | seedTooLarge
deriving DecidableEq, Repr

/-- The text of a fault, in the words of the arithmetic that finds it. -/
def NumberFault.message : NumberFault → String
  | tooLarge => "int too large to convert to float"
  | notANumber => "cannot convert float NaN to integer"
  | endless => "cannot convert float infinity to integer"
  | emptyInterval => "float floor division by zero"
  | frequencyNotPositive given => "Clock frequency must be positive, got " ++ given
  | elapsedNegative given => "Elapsed time cannot be negative, got " ++ given
  | countTooLarge => "An overflow was encountered while parsing an argument to a jitted " ++
      "computation, whose argument path is y."
  | seedTooLarge => "Python int too large to convert to C long"

end ChipEight
