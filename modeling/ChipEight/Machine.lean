import ChipEight.Clock
import ChipEight.Execution

/-!
# Machines

A `Machine` is a processor with a keypad, two clocks and a program. `Machine.step` polls the keypad
and executes one instruction, `Machine.update` turns a span of host time into timer ticks and then
steps, `Machine.runFor` feeds spans at a fixed frame rate, and `Machine.reset` starts over. A fault
halts a machine until the next reset.

Nothing that watches a machine is part of it. Each operation returns an `Outcome`: the machine
afterwards, the `Event`s that happened in their order, and a result or a failure. An operation that
fails midway has a machine and events too, those of the work it did.
-/

namespace ChipEight

/-- The columns of the screen of a machine. -/
def screenWidth : Nat := 64

/-- The rows of the screen of a machine. -/
def screenHeight : Nat := 32

/-- What a machine reports while it works. -/
inductive Event where
  /-- The screen went dark as a whole. -/
  | cleared
  /-- A pixel changed to this value. -/
  | pixel (x : Fin screenWidth) (y : Fin screenHeight) (lit : Bool)
  /-- A tone began that lasts this many sixtieths of a second. -/
  | tone (ticks : Byte)
  /-- The instruction at this place was executed. -/
  | executed (address : Word) (opcode : Opcode)
  /-- A fault halted the machine. -/
  | stopped (fault : Fault)
  /-- The machine started over. -/
  | started (romSize : Nat) (dialect : Dialect)
deriving DecidableEq, Repr

/-- A processor with what it works with, and what it takes to start it over. Numbers of type `τ`
are the ones its clocks count in. -/
structure Machine (τ : Type) where
  dialect : Dialect
  stackLimit : Nat
  seed : Seed
  rom : List Byte
  timers : Timers τ
  keypad : Keypad
  state : State screenWidth screenHeight
  halted : Bool
  steps : Nat
deriving DecidableEq

/-- What a machine is built from. -/
structure Setup (σ : Type) where
  rom : List Byte
  dialect : Dialect
  instructionHz : σ
  timerHz : σ
  stackLimit : Nat
  seed : Int

/-- A machine without a program: five hundred instructions and sixty timer ticks a second. -/
def Setup.standard : Setup Amount where
  rom := []
  dialect := {}
  instructionHz := .whole 500
  timerHz := .whole 60
  stackLimit := 16
  seed := 0

/-! ## Outcomes -/

/-- What an operation on a machine leads to. -/
structure Outcome (τ α : Type) where
  machine : Machine τ
  events : List Event
  result : Except Failure α

namespace Outcome

variable {τ α β : Type}

/-- An operation that only answers. -/
def done (m : Machine τ) (a : α) : Outcome τ α := ⟨m, [], .ok a⟩

/-- An operation that fails before anything happens. -/
def refused (m : Machine τ) (failure : Failure) : Outcome τ α := ⟨m, [], .error failure⟩

/-- Goes on with the machine and the answer, unless the operation failed. -/
def bind (o : Outcome τ α) (next : Machine τ → α → Outcome τ β) : Outcome τ β :=
  match o.result with
  | .error failure => ⟨o.machine, o.events, .error failure⟩
  | .ok a =>
    let rest := next o.machine a
    ⟨rest.machine, o.events ++ rest.events, rest.result⟩

def map (f : α → β) (o : Outcome τ α) : Outcome τ β := ⟨o.machine, o.events, o.result.map f⟩

end Outcome

/-! ## Operations -/

namespace Machine

variable {σ τ : Type}

/-- The state in which the program of a machine starts. -/
def initialState (seed : Seed) (rom : List Byte) (dialect : Dialect) (stackLimit : Nat) :
    Except Fault (State screenWidth screenHeight) :=
  State.create screenWidth screenHeight (RandomKey.ofSeed seed) rom dialect stackLimit

/-- Builds a machine and starts it. The clocks are built first, the random key before the program is
looked at. -/
def boot [ClockNumber τ] [HostAmount σ τ] (setup : Setup σ) :
    Except Failure (Machine τ × List Event) :=
  match Timers.ofFrequencies setup.instructionHz setup.timerHz with
  | .error cause => .error (.number cause)
  | .ok timers =>
    match Seed.ofInt setup.seed with
    | .error cause => .error (.number cause)
    | .ok seed =>
      match initialState seed setup.rom setup.dialect setup.stackLimit with
      | .error cause => .error (.fault cause)
      | .ok state =>
        .ok ({
          dialect := setup.dialect
          stackLimit := setup.stackLimit
          seed
          rom := setup.rom
          timers
          keypad := Keypad.idle
          state
          halted := false
          steps := 0 }, [.cleared, .started setup.rom.length setup.dialect])

/-- Starts over, with another program if one is given. The program is replaced first, so a program
that does not fit stays the one to start with. -/
def reset [ClockNumber τ] (m : Machine τ) (rom : Option (List Byte)) : Outcome τ Unit :=
  let m := { m with rom := rom.getD m.rom }
  match initialState m.seed m.rom m.dialect m.stackLimit with
  | .error cause => .refused m (.fault cause)
  | .ok state =>
    ⟨{ m with state, timers := m.timers.reset, halted := false, steps := 0 },
      [.cleared, .started m.rom.length m.dialect], .ok ()⟩

/-- Takes the snapshot of the keys that the next instruction sees. -/
def pollKeys (m : Machine τ) : Machine τ :=
  let ((held, pressed), keypad) := m.keypad.poll
  { m with keypad, state := { m.state with held, pressed } }

/-- What an instruction did to screen and sound, told from the states before and after it. -/
def effects (before after : State screenWidth screenHeight) : Option Instruction → List Event
  | some .clear => [.cleared]
  | some (.draw _ _ _) =>
    (before.screen.changes after.screen).map fun p => .pixel p.1 p.2 (after.screen.get p.1 p.2)
  | some (.setSound x) => [.tone (after.v x)]
  | _ => []

/-- Executes one instruction. -/
def step (m : Machine τ) : Outcome τ Opcode :=
  if m.halted then .refused m (.fault Fault.machineHalted)
  else
    let m := m.pollKeys
    match m.state.step with
    | .error cause => ⟨{ m with halted := true }, [.stopped cause], .error (.fault cause)⟩
    | .ok (state, op) =>
      ⟨{ m with state, steps := m.steps + 1 },
        .executed m.state.pc op :: effects m.state state op.instruction?, .ok op⟩

/-- Executes a number of instructions, up to the first that fails. -/
def runSteps : Nat → Machine τ → Outcome τ Unit
  | 0, m => .done m ()
  | count + 1, m => m.step.bind fun m _ => m.runSteps count

/-- What the timer subsystem does with a span of host time: it advances its clocks, and decrements
the delay and sound timers by the ticks of the second. The answer is how many instructions are due.
Where the timers refuse the count, the clocks have advanced already. -/
def passTime [ClockNumber τ] [HostAmount σ τ] (m : Machine τ) (delta : σ) :
    Machine τ × Except NumberFault Int :=
  match m.timers.advance delta with
  | (timers, .error cause) => ({ m with timers }, .error cause)
  | (timers, .ok (due, decrements)) =>
    match m.state.tick decrements with
    | .error cause => ({ m with timers }, .error cause)
    | .ok state => ({ m with timers, state }, .ok due)

/-- Advances by a span of host time: the timers count down first, then the instructions that are
due are executed. The answer is how many were due. -/
def update [ClockNumber τ] [HostAmount σ τ] (m : Machine τ) (delta : σ) : Outcome τ Int :=
  if m.halted then .refused m (.fault Fault.machineHalted)
  else
    match m.passTime delta with
    | (m, .error cause) => .refused m (.number cause)
    | (m, .ok due) => (m.runSteps due.toNat).map fun _ => due

/-- Advances by the same span a number of times, and adds up the instructions that were due. -/
def runFrames [ClockNumber τ] [HostAmount σ τ] (delta : σ) : Nat → Machine τ → Outcome τ Int
  | 0, m => .done m 0
  | count + 1, m =>
    (m.update delta).bind fun m due => (m.runFrames delta count).map (due + ·)

/-- Runs for a duration in frames of equal length. -/
def runFor [ClockNumber τ] [HostAmount σ τ] (m : Machine τ) (seconds rate : σ) : Outcome τ Int :=
  match HostAmount.frameCount seconds rate with
  | .error cause => .refused m (.number cause)
  | .ok frames =>
    if frames ≤ 0 then .done m 0
    else
      match HostAmount.frameSpan rate with
      | .error cause => .refused m (.number cause)
      | .ok delta => m.runFrames delta frames.toNat

/-- A machine in one line. -/
def describe (m : Machine τ) : String :=
  "Machine(pc=" ++ Fault.place m.state.pc.toNat ++ ", steps=" ++ toString m.steps ++ ", halted=" ++
    Dialect.flag m.halted ++ ", quirks=" ++ m.dialect.describe ++ ")"

end Machine

/-! ## Operations as data -/

/-- One thing that a host asks of a machine. -/
inductive Operation (σ : Type) where
  | step
  | update (delta : σ)
  | runFor (seconds rate : σ)
  | press (key : Int)
  | release (key : Int)
  | releaseAll
  | poll
  | reset (rom : Option (List Byte))

/-- What a machine answers to an operation. -/
inductive Answer where
  | done
  | opcode (op : Opcode)
  | count (n : Int)
deriving DecidableEq, Repr

namespace Machine

variable {σ τ : Type} [ClockNumber τ] [HostAmount σ τ]

/-- Changes the keypad at a key, if there is one with this number. -/
def withKey (m : Machine τ) (key : Int) (change : Keypad → Nibble → Keypad) : Outcome τ Answer :=
  match checkKey key with
  | .error cause => .refused m (.key cause)
  | .ok key => .done { m with keypad := change m.keypad key } .done

/-- Does what a host asks for. Of the operations on keys, only those that name a key can fail. -/
def perform (m : Machine τ) : Operation σ → Outcome τ Answer
  | .step => m.step.map .opcode
  | .update delta => (m.update delta).map .count
  | .runFor seconds rate => (m.runFor seconds rate).map .count
  | .press key => m.withKey key Keypad.press
  | .release key => m.withKey key Keypad.release
  | .releaseAll => .done { m with keypad := m.keypad.releaseAll } .done
  | .poll => .done m.pollKeys .done
  | .reset rom => (m.reset rom).map fun _ => .done

end Machine

end ChipEight
