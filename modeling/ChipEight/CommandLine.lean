import ChipEight.Program

/-!
# The command line

A run is asked for by words of the form `key=value`, in any order: `rom` names the file of the
program, the other keys are those of a `Configuration`. A window is played from a script, one line
for each frame: the seconds since the previous frame and then the events, such as `down:q`, `up:q`
or `quit`.
-/

namespace ChipEight

/-- What the words of a command line ask for. -/
structure Request where
  rom : Option String := none
  configuration : Configuration := {}

/-- Why a command line or a script of frames cannot be read. -/
inductive CommandFault where
  /-- A word without `=`. -/
  | notAnAssignment (word : String)
  | unknownKey (key : String)
  | unusable (key value : String)
  /-- A line that is no frame of a script. -/
  | notAFrame (line : String)
deriving DecidableEq, Repr

def CommandFault.message : CommandFault → String
  | notAnAssignment word => "Expected key=value, got '" ++ word ++ "'"
  | unknownKey key => "Unknown key '" ++ key ++ "'"
  | unusable key value => "Cannot use '" ++ value ++ "' for '" ++ key ++ "'"
  | notAFrame line => "Not a frame: '" ++ line ++ "'"

namespace Request

/-- A truth value, as it is written on the command line. -/
def bool? (text : String) : Option Bool :=
  match text with
  | "true" => some true
  | "false" => some false
  | _ => none

/-- A whole number, as it is written on the command line. -/
def int? (text : String) : Option Int :=
  match Amount.ofText? text with
  | some (.whole n) => some n
  | _ => none

/-- A whole number that is not below zero. -/
def nat? (text : String) : Option Nat :=
  (int? text).bind fun n => if 0 ≤ n then some n.toNat else none

/-- The text before and behind the first separator, if there is one. -/
def cut? (separator : Char) (text : String) : Option (String × String) :=
  let cs := text.toList
  match cs.dropWhile (· ≠ separator) with
  | [] => none
  | _ :: behind => some (String.ofList (cs.takeWhile (· ≠ separator)), String.ofList behind)

/-- The configuration with one key set, if the value can be used. -/
def set (c : Configuration) (key value : String) : Except CommandFault Configuration :=
  let changed {α : Type} (read : Option α) (change : α → Configuration) :
      Except CommandFault Configuration :=
    match read with
    | some a => .ok (change a)
    | none => .error (.unusable key value)
  match key with
  | "headless" => changed (bool? value) fun b => { c with headless := b }
  | "seconds" => changed (Amount.ofText? value) fun a => { c with seconds := a }
  | "clock_hz" => changed (Amount.ofText? value) fun a => { c with instructionHz := a }
  | "stack_size" => changed (nat? value) fun n => { c with stackLimit := n }
  | "seed" => changed (int? value) fun n => { c with seed := n }
  | "scale" => changed (nat? value) fun n => { c with scale := n }
  | "color_scheme" => .ok { c with scheme := value }
  | "log_level" => .ok { c with level := value }
  | "trace" => changed (bool? value) fun b => { c with trace := b }
  | _ =>
    match cut? '.' key with
    | some ("quirks", name) =>
      changed (bool? value) fun b => { c with choices := (name, b) :: c.choices }
    | _ => .error (.unknownKey key)

/-- Takes one more word into account. -/
def assign (r : Request) (word : String) : Except CommandFault Request :=
  match cut? '=' word with
  | none => .error (.notAnAssignment word)
  | some ("rom", path) => .ok { r with rom := some path }
  | some (key, value) => do return { r with configuration := ← set r.configuration key value }

/-- What all words of a command line ask for. Later words prevail over earlier ones. -/
def ofWords (words : List String) : Except CommandFault Request := words.foldlM assign {}

end Request

namespace Frame

/-- An event as a word: what happened, and to which key. -/
def event? (word : String) : Option WindowEvent :=
  match Request.cut? ':' word with
  | some ("down", name) => some (.down (KeyboardKey.ofName name))
  | some ("up", name) => some (.up (KeyboardKey.ofName name))
  | some _ => none
  | none => if word = "quit" then some .quit else none

/-- The words of a line. -/
def words (line : String) : List String :=
  ((line.splitOn " ").flatMap fun word => word.splitOn "\n").filter (· ≠ "")

/-- The frame of a line, at an instant that follows `before`. -/
def ofLine (before : Float) (line : String) : Except CommandFault Frame :=
  match words line with
  | [] => .ok ⟨before, []⟩
  | span :: events =>
    match Amount.ofText? span, events.mapM event? with
    | some amount, some events =>
      match amount.toFloat with
      | .ok seconds => .ok ⟨before + seconds, events⟩
      | .error _ => .error (.notAFrame line)
    | _, _ => .error (.notAFrame line)

/-- The frames of a script that starts at an instant, and one more that ends the loop. -/
def ofLines (now : Float) : List String → Except CommandFault (List Frame)
  | [] => .ok [⟨now, [.quit]⟩]
  | line :: lines => do
    let frame ← ofLine now line
    return frame :: (← ofLines frame.now lines)

end Frame

end ChipEight
