import ChipEight.Keypad

/-!
# Keyboards

The sixteen keys of the keypad lie on the left side of a keyboard, four to a row. A few other keys
control the window. `Keypad.handle` lets a keypad follow the keyboard: a key that goes down is
pressed, one that goes up is lifted, so that a short press is seen by the next poll.
-/

namespace ChipEight

/-- A key of a keyboard, by what it is for. -/
inductive KeyboardKey where
  | pad (key : Nibble)
  | escape
  | pause
  | restart
  | other
deriving DecidableEq, Repr

/-- What a window is told. -/
inductive WindowEvent where
  | down (key : KeyboardKey)
  | up (key : KeyboardKey)
  | quit
  | pointer
deriving DecidableEq, Repr

/-- The keys of the keypad by the names of the keys of a keyboard. -/
def padKeys : List (String × Nibble) := [
  ("1", 0x1), ("2", 0x2), ("3", 0x3), ("4", 0xC),
  ("q", 0x4), ("w", 0x5), ("e", 0x6), ("r", 0xD),
  ("a", 0x7), ("s", 0x8), ("d", 0x9), ("f", 0xE),
  ("z", 0xA), ("x", 0x0), ("c", 0xB), ("v", 0xF)]

/-- The key with this name. -/
def KeyboardKey.ofName (name : String) : KeyboardKey :=
  match padKeys.lookup name with
  | some key => pad key
  | none =>
    match name with
    | "ESCAPE" => escape
    | "p" => pause
    | "F5" => restart
    | _ => other

/-- Lets a keypad follow an event, if it concerns one of its keys. -/
def Keypad.handle? (k : Keypad) : WindowEvent → Option Keypad
  | .down (.pad key) => some (k.press key)
  | .up (.pad key) => some (k.lift key)
  | _ => none

/-- The keypad after an event, which may have concerned none of its keys. -/
def Keypad.handle (k : Keypad) (e : WindowEvent) : Keypad := (k.handle? e).getD k

end ChipEight
