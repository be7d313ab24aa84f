import ChipEight.Beeper
import ChipEight.Keyboard
import ChipEight.Log
import ChipEight.Surface

/-!
# The window loop

A window shows a machine, plays its tones and feeds it the keyboard. In each frame the loop first
deals with the events, then, unless it is paused or the machine has halted, updates the machine by
the time since the previous frame, and then shows the surface. Time that passes while it is paused
is never made up for. A fault of the program is logged and leaves the loop running; a span of time
that the clocks refuse ends it.

The loop is a function of a script: `Window.run` takes the frames, each an instant and the events
that have come by then, and gives what was shown at the end of each frame.
-/

namespace ChipEight

/-- An instant, in seconds, and the events that have come since the previous one. -/
structure Frame where
  now : Float
  events : List WindowEvent

/-- What a window is made from. The scale is the side of the square that a pixel becomes. -/
structure WindowSettings where
  rom : List Byte
  romName : String
  dialect : Dialect
  instructionHz : Amount
  stackLimit : Nat
  seed : Int
  scheme : String

/-- Why a window does not come up or the loop ends before it is told to. -/
inductive WindowFault where
  | failure (cause : Failure)
  | paint (cause : PaintFault)
deriving DecidableEq, Repr

def WindowFault.message : WindowFault → String
  | failure cause => cause.message
  | paint cause => cause.message

/-- A window that shows a machine: what is on its surface, where its messages go, and what its loop
remembers from one frame to the next. -/
structure Window (scale : Nat) where
  machine : Machine Float
  surface : Surface (screenWidth * scale) (screenHeight * scale)
  console : Console
  running : Bool
  paused : Bool
  /-- The instant of the previous frame. -/
  last : Float

/-- What can be seen and heard of one frame, with the text printed since the previous one. -/
structure Shown (scale : Nat) where
  machine : Machine Float
  image : Image (screenWidth * scale) (screenHeight * scale)
  plays : List Beeper.Play
  text : String

/-- What a script of frames leads to: the frames shown, the text printed after the last of them, the
machine in the end, and the fault if the loop ended with one. -/
structure Playback (scale : Nat) where
  shown : List (Shown scale)
  text : String
  machine : Machine Float
  fault : Option WindowFault

namespace Window

variable {scale : Nat}

/-- A step of the loop: the window afterwards, the text printed and whether the loop goes on. -/
structure Turn (scale : Nat) where
  window : Window scale
  text : String
  plays : List Beeper.Play
  fault : Option WindowFault

/-- A step that does no more than this. -/
def Turn.quiet (w : Window scale) : Turn scale := ⟨w, "", [], none⟩

/-- The step that comes next, unless the loop has ended. -/
def Turn.andThen (t : Turn scale) (next : Window scale → Turn scale) : Turn scale :=
  match t.fault with
  | some _ => t
  | none =>
    let n := next t.window
    ⟨n.window, t.text ++ n.text, t.plays ++ n.plays, n.fault⟩

/-- Prints a message. -/
def say (w : Window scale) (level : Level) (message : String) : Turn scale :=
  let (console, text) := w.console.log level message
  ⟨{ w with console }, text, [], none⟩

/-- What the mixer is asked to do for an event. -/
def playOf? : Event → Option Beeper.Play
  | .tone ticks =>
    match Beeper.play? (.real (Beeper.toneSeconds ticks)) with
    | .ok play => play
    | .error _ => none
  | _ => none

/-- Takes the machine after an operation and shows the events of it. -/
def follow (w : Window scale) (machine : Machine Float) (events : List Event) : Turn scale :=
  let (console, text) := w.console.logEvents events
  ⟨{ w with machine, console, surface := w.surface.observeAll events }, text,
    events.filterMap playOf?, none⟩

/-- Paints the surface anew. -/
def redraw (w : Window scale) : Turn scale :=
  match w.surface.redraw w.machine.state.screen with
  | .ok surface => .quiet { w with surface }
  | .error cause => ⟨w, "", [], some (.paint cause)⟩

/-- Starts the program over and paints the surface anew. -/
def restart (w : Window scale) : Turn scale :=
  let outcome := w.machine.reset none
  (w.follow outcome.machine outcome.events).andThen fun w =>
    match outcome.result with
    | .ok () => w.redraw
    | .error cause => ⟨w, "", [], some (.failure cause)⟩

/-- Pauses the machine or lets it go on. -/
def togglePause (w : Window scale) : Turn scale :=
  say { w with paused := !w.paused } .info (if w.paused then "Resumed" else "Paused")

/-- Deals with one event. The keypad comes first, so a key of the pad never controls the window. -/
def handle (w : Window scale) (e : WindowEvent) : Turn scale :=
  match w.machine.keypad.handle? e with
  | some keypad => .quiet { w with machine := { w.machine with keypad } }
  | none =>
    match e with
    | .quit | .down .escape => .quiet { w with running := false }
    | .down .pause => w.togglePause
    | .down .restart => w.restart
    | _ => .quiet w

/-- Deals with events in their order, up to one that ends the loop. -/
def handleAll (w : Window scale) : List WindowEvent → Turn scale
  | [] => .quiet w
  | e :: es => (w.handle e).andThen fun w => w.handleAll es

/-- Updates the machine by a span of time. Only a fault of the program lets the loop go on. -/
def advance (w : Window scale) (delta : Float) : Turn scale :=
  let outcome := w.machine.update (Amount.real delta)
  (w.follow outcome.machine outcome.events).andThen fun w =>
    match outcome.result with
    | .ok _ => .quiet w
    | .error (.fault cause) => w.say .error ("Stopped: " ++ cause.message)
    | .error cause => ⟨w, "", [], some (.failure cause)⟩

/-- One frame up to the point where the surface is shown. -/
def frame (w : Window scale) (f : Frame) : Turn scale :=
  let delta := f.now - w.last
  (handleAll { w with last := f.now } f.events).andThen fun w =>
    if !w.paused && !w.machine.halted then w.advance delta else .quiet w

/-- Runs the loop over a script. `pending` is the text printed since the previous frame. -/
def run (w : Window scale) (pending : String) : List Frame → Playback scale
  | [] => ⟨[], pending, w.machine, none⟩
  | f :: fs =>
    let turn := w.frame f
    let text := pending ++ turn.text
    match turn.fault with
    | some fault => ⟨[], text, turn.window.machine, some fault⟩
    | none =>
      let machine := turn.window.machine
      let shown := ⟨machine, turn.window.surface.image, turn.plays, text⟩
      if turn.window.running then
        let rest := turn.window.run "" fs
        { rest with shown := shown :: rest.shown }
      else ⟨[shown], "", machine, none⟩

/-- Brings a window up at an instant: the machine is started, and the program and the keys that
control the window are announced. -/
def launch (scale : Nat) (settings : WindowSettings) (console : Console) (now : Float) :
    Except WindowFault (Turn scale) :=
  match Scheme.ofName settings.scheme with
  | .error cause => .error (.paint cause)
  | .ok scheme =>
    let boot := Machine.boot { Setup.standard with
      rom := settings.rom
      dialect := settings.dialect
      instructionHz := settings.instructionHz
      stackLimit := settings.stackLimit
      seed := settings.seed }
    match boot with
    | .error cause => .error (.failure cause)
    | .ok (machine, events) =>
      let size := settings.rom.length
      let blank : Window scale := {
        machine
        surface := ⟨Raster.fill Color.black, scheme, scale⟩
        console
        running := true
        paused := false
        last := now }
      .ok (((blank.follow machine events).andThen fun w =>
        w.say .info ("Loaded " ++ settings.romName ++ s!" ({size} bytes)")).andThen fun w =>
        w.say .info "Controls: ESC=Quit, P=Pause, F5=Reset")

/-- Brings a window up at the instant zero and runs the loop over a script. -/
def play (scale : Nat) (settings : WindowSettings) (console : Console) (script : List Frame) :
    Except WindowFault (Playback scale) :=
  match launch scale settings console 0.0 with
  | .error fault => .error fault
  | .ok turn => .ok (turn.window.run turn.text script)

end Window

end ChipEight
