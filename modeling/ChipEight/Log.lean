import ChipEight.Machine

/-!
# Logging

A `Logger` decides which messages are shown and how a line looks: the time since the start, the
level, the name of the logger and the message. `Logger.remark?` is the message that a logger makes
of an event of a machine. A `Console` is a logger together with what a wall clock answers; the
clock is read once when the console opens and then for each line that shows a time, and for no
other.
-/

namespace ChipEight

/-! ## Levels -/

/-- How serious a message is. -/
inductive Level where
  | debug
  | info
  | warning
  | error
  | critical
deriving DecidableEq, Repr

namespace Level

/-- The levels from the least to the most serious. -/
def all : List Level := [debug, info, warning, error, critical]

/-- The place of a level among all, from the least serious. -/
def rank : Level → Nat
  | debug => 0
  | info => 1
  | warning => 2
  | error => 3
  | critical => 4

def name : Level → String
  | debug => "DEBUG"
  | info => "INFO"
  | warning => "WARNING"
  | error => "ERROR"
  | critical => "CRITICAL"

/-- The terminal sequence that switches to the colour of a level. -/
def color : Level → String
  | debug => "\x1b[36m"
  | info => "\x1b[32m"
  | warning => "\x1b[33m"
  | error => "\x1b[31m"
  | critical => "\x1b[35m"

/-- A letter as a capital. The names of the levels are plain capitals, and besides the small plain
letters only the dotless i has one of them as its capital. -/
def capital (c : Char) : Char := if c = 'ı' then 'I' else c.toUpper

/-- The level with this name, in letters of either case. -/
def ofName? (text : String) : Option Level :=
  all.find? fun level => level.name.toList == text.toList.map capital

end Level

/-- The ways in which the name of a level is refused. -/
inductive LogFault where
  /-- A logger was asked to start at a level that does not exist. -/
  | unknownLevel (given : String)
  /-- A message was given a level that does not exist. -/
  | unranked
deriving DecidableEq, Repr

def LogFault.message : LogFault → String
  | unknownLevel given => "Unknown log level '" ++ given ++ "'. Available: [" ++
    String.intercalate ", " (Level.all.map fun level => "'" ++ level.name ++ "'") ++ "]"
  | unranked => "tuple.index(x): x not in tuple"

/-! ## Loggers -/

/-- Which messages are shown, and how their lines look. -/
structure Logger where
  name : String
  /-- The least serious level that is shown. -/
  level : Level
  colored : Bool
  /-- Whether lines begin with the time. -/
  stamped : Bool
  /-- Whether executed instructions are messages. -/
  traced : Bool
deriving DecidableEq, Repr

/-- What a logger is asked to be. -/
structure LogSettings where
  name : String := "chipvm"
  level : String := "INFO"
  colors : Bool := true
  stamps : Bool := true
  trace : Bool := false
deriving DecidableEq, Repr

namespace Logger

/-- Builds a logger. Colours are for terminals only. -/
def ofSettings (settings : LogSettings) (terminal : Bool) : Except LogFault Logger :=
  match Level.ofName? settings.level with
  | none => .error (.unknownLevel settings.level)
  | some level =>
    .ok {
      name := settings.name
      level
      colored := settings.colors && terminal
      stamped := settings.stamps
      traced := settings.trace }

/-- Whether messages of a level are shown: those of the own level and of more serious ones. -/
def shows (l : Logger) (level : Level) : Bool := l.level.rank ≤ level.rank

/-- Whether the level with this name is shown. -/
def showsNamed (l : Logger) (level : String) : Except LogFault Bool :=
  match Level.ofName? level with
  | some level => .ok (l.shows level)
  | none => .error .unranked

/-- The level in a bracket, eight places wide. -/
def tag (l : Logger) (level : Level) : String :=
  let plain := "[" ++ Decimal.padLeft 8 level.name ++ "]"
  if l.colored then level.color ++ plain ++ "\x1b[0m" else plain

/-- The time since the start, with two places. -/
def stamp (elapsed : Float) : String :=
  "[" ++ Decimal.padLeft 8 (Decimal.fixed 2 elapsed) ++ "s]"

/-- A message in one line, with its level, the name of the logger and the time if lines have it. -/
def line (l : Logger) (elapsed : Float) (level : Level) (message : String) : String :=
  (if l.stamped then stamp elapsed else "") ++ l.tag level ++ "[" ++ l.name ++ "] " ++ message ++
    "\n"

/-- The message on an executed instruction, where they are traced. -/
def trace? (l : Logger) (address : Int) (op : Opcode) : Option (Level × String) :=
  if l.traced then some (.debug, Fault.place address ++ ": " ++ op.hex) else none

/-- The message on a machine that has started over. -/
def startRemark (romSize : Int) (dialect : Dialect) : Level × String :=
  (.info, s!"Reset: {romSize} ROM bytes at 0x200, quirks=" ++ dialect.describe)

/-- The message on a fault that has halted a machine. -/
def faultRemark (cause : Fault) : Level × String :=
  (.error, "Execution halted: " ++ cause.message)

/-- The message that an event of a machine is worth, with its level. -/
def remark? (l : Logger) : Event → Option (Level × String)
  | .started romSize dialect => some (startRemark romSize dialect)
  | .executed address op => l.trace? address.toNat op
  | .stopped cause => some (faultRemark cause)
  | _ => none

end Logger

/-! ## Consoles -/

/-- A logger with the instant of its start and the instants that its clock will answer. -/
structure Console where
  logger : Logger
  start : Float
  instants : List Float

namespace Console

/-- The next answer of a clock, which repeats its last one, and the answers behind it. -/
def tell : List Float → Float × List Float
  | [] => (0.0, [])
  | [last] => (last, [last])
  | now :: later => (now, later)

/-- Opens a console, which reads the clock once. -/
def ofLogger (logger : Logger) (instants : List Float) : Console :=
  let (start, instants) := tell instants
  ⟨logger, start, instants⟩

/-- A message, and the console after it. -/
def log (c : Console) (level : Level) (message : String) : Console × String :=
  if !c.logger.shows level then (c, "")
  else if c.logger.stamped then
    let (now, instants) := tell c.instants
    ({ c with instants }, c.logger.line (now - c.start) level message)
  else (c, c.logger.line 0.0 level message)

/-- A message whose level is given by name. -/
def logNamed (c : Console) (level message : String) : Except LogFault (Console × String) :=
  match Level.ofName? level with
  | some level => .ok (c.log level message)
  | none => .error .unranked

/-- A message if there is one. -/
def logRemark (c : Console) : Option (Level × String) → Console × String
  | some (level, message) => c.log level message
  | none => (c, "")

/-- The text that a number of events leads to. -/
def logEvents (c : Console) : List Event → Console × String
  | [] => (c, "")
  | e :: es =>
    let (c, first) := c.logRemark (c.logger.remark? e)
    let (c, rest) := c.logEvents es
    (c, first ++ rest)

/-- The text of two runs of events is that of the first and then, on the console that the first
leaves, that of the second. -/
theorem logEvents_append (c : Console) (es fs : List Event) :
    c.logEvents (es ++ fs) =
      (((c.logEvents es).1.logEvents fs).1,
        (c.logEvents es).2 ++ ((c.logEvents es).1.logEvents fs).2) := by
  induction es generalizing c with
  | nil => simp [logEvents]
  | cons e es ih => simp [logEvents, ih, String.append_assoc]

end Console

end ChipEight
