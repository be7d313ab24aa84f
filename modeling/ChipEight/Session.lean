import ChipEight.Log
import ChipEight.Recording

/-!
# Sessions

A machine with those who watch it: a console, and a display and a loudspeaker that are recorded or
not there at all. `Session.perform` lets the machine do something and shows the events to the
watchers; what the machine does and answers does not depend on them.
-/

namespace ChipEight

/-- A machine and its watchers. A display or a loudspeaker that is not there records nothing. -/
structure Session (τ : Type) where
  machine : Machine τ
  console : Console
  display : Option Recording
  /-- The tones so far, in sixtieths of a second. -/
  tones : Option (List Byte)

namespace Session

variable {σ τ : Type}

/-- The tone that an event begins. -/
def toneOf? : Event → Option Byte
  | .tone ticks => some ticks
  | _ => none

/-- Shows events to everyone who watches. The text is what the console prints. -/
def observe (s : Session τ) (events : List Event) : Session τ × String :=
  let (console, text) := s.console.logEvents events
  ({ s with
    console
    display := s.display.map fun r => r.observeAll events
    tones := s.tones.map fun played => played ++ events.filterMap toneOf? }, text)

/-- What one operation leads to: the answer of the machine and the text that was printed. -/
structure Reply where
  result : Except Failure Answer
  text : String

/-- Lets the machine do what is asked and shows what happens to the watchers, also where the
operation fails. -/
def perform [ClockNumber τ] [HostAmount σ τ] (s : Session τ) (op : Operation σ) :
    Session τ × Reply :=
  let outcome := s.machine.perform op
  let (watched, text) := { s with machine := outcome.machine }.observe outcome.events
  (watched, ⟨outcome.result, text⟩)

/-- Builds a machine and shows its start to the watchers. -/
def start [ClockNumber τ] [HostAmount σ τ] (setup : Setup σ) (console : Console)
    (display : Option Recording) (tones : Option (List Byte)) :
    Except Failure (Session τ × String) := do
  let (machine, events) ← Machine.boot setup
  return ({ machine, console, display, tones : Session τ }).observe events

end Session

end ChipEight
