import ChipEight.Window

/-!
# The program

What the command line runs: a program for the machine, in a window or without one, as a
`Configuration` says. Without a window the machine runs for a number of seconds of its own time and
the screen is printed as text.
-/

namespace ChipEight

/-- What the command line sets. Each item has the value that holds where it sets nothing. -/
structure Configuration where
  headless : Bool := false
  seconds : Amount := .real 5.0
  instructionHz : Amount := .whole 500
  stackLimit : Nat := 16
  seed : Int := 0
  /-- The choices of dialect that are not the standard ones, by name. -/
  choices : List (String × Bool) := []
  scale : Nat := 8
  scheme : String := "classic"
  level : String := "INFO"
  trace : Bool := false

/-- Why a program does not run to its end. -/
inductive ProgramFault where
  /-- No program was named. -/
  | noProgram
  /-- No choice of dialect has this name. -/
  | unknownChoice (name : String)
  | log (cause : LogFault)
  | window (cause : WindowFault)
deriving DecidableEq, Repr

def ProgramFault.message : ProgramFault → String
  | noProgram => "Missing mandatory value: rom"
  | unknownChoice name => "Unknown dialect choice '" ++ name ++ "'"
  | log cause => cause.message
  | window cause => cause.message

/-- What a program shows in a window, what it prints besides, and the fault if it ends with one. -/
structure Report (scale : Nat) where
  shown : List (Shown scale)
  text : String
  fault : Option ProgramFault

namespace Dialect

/-- Settles one choice, if there is one with this name. -/
def choose (d : Dialect) (name : String) (value : Bool) : Option Dialect :=
  match name with
  | "legacy_shift" => some { d with legacyShift := value }
  | "wrap_sprites" => some { d with wrapSprites := value }
  | "increment_index" => some { d with incrementIndex := value }
  | _ => none

/-- The standard dialect with some choices settled. -/
def ofChoices : List (String × Bool) → Except ProgramFault Dialect
  | [] => .ok {}
  | (name, value) :: rest =>
    match ofChoices rest with
    | .error cause => .error cause
    | .ok d =>
      match d.choose name value with
      | some d => .ok d
      | none => .error (.unknownChoice name)

end Dialect

namespace Program

/-- The frame rate of a run without a window. -/
def frameRate : Amount := .real 60.0

/-- Runs without a window and prints the screen. -/
def runHeadless (c : Configuration) (dialect : Dialect) (console : Console) (rom : List Byte) :
    String × Option ProgramFault :=
  let boot := Machine.boot { Setup.standard with
    rom
    dialect
    instructionHz := c.instructionHz
    stackLimit := c.stackLimit
    seed := c.seed }
  match boot with
  | .error cause => ("", some (.window (.failure cause)))
  | .ok (machine, events) =>
    let (console, begin) := console.logEvents events
    let outcome := machine.runFor c.seconds frameRate
    let (console, course) := console.logEvents outcome.events
    let screen := Picture.plainText outcome.machine.state.screen ++ "\n"
    match outcome.result with
    | .ok executed =>
      let (_, summary) := console.log .info
        (s!"Executed {executed} instructions in " ++ c.seconds.text ++ "s of emulated time")
      (begin ++ course ++ summary ++ screen, none)
    | .error (.fault cause) =>
      let steps := outcome.machine.steps
      let (_, summary) := console.log .error
        (s!"Stopped after {steps} instructions: " ++ cause.message)
      (begin ++ course ++ summary ++ screen, none)
    | .error cause => (begin ++ course, some (.window (.failure cause)))

/-- Runs a program as a configuration says. The console gets the instants that its clock answers,
a window the script of its frames. -/
def run (c : Configuration) (program : Option (String × List Byte)) (terminal : Bool)
    (instants : List Float) (script : List Frame) : Report c.scale :=
  match program with
  | none => ⟨[], "", some .noProgram⟩
  | some (romName, rom) =>
    match Logger.ofSettings { level := c.level, trace := c.trace } terminal with
    | .error cause => ⟨[], "", some (.log cause)⟩
    | .ok logger =>
      let console := Console.ofLogger logger instants
      match Dialect.ofChoices c.choices with
      | .error cause => ⟨[], "", some cause⟩
      | .ok dialect =>
        if c.headless then
          let (text, fault) := runHeadless c dialect console rom
          ⟨[], text, fault⟩
        else
          let settings : WindowSettings := {
            rom
            romName
            dialect
            instructionHz := c.instructionHz
            stackLimit := c.stackLimit
            seed := c.seed
            scheme := c.scheme }
          match Window.play c.scale settings console script with
          | .error cause => ⟨[], "", some (.window cause)⟩
          | .ok playback => ⟨playback.shown, playback.text, playback.fault.map .window⟩

end Program

end ChipEight
