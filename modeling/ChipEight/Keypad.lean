import ChipEight.Word

/-!
# The keypad

Sixteen keys, each held or not, and for each key whether it went down since it was last asked
about. A press of a key that is already held is no new one. There are two ways to let a key go:
`Keypad.release` also forgets a press that nobody has asked about yet, `Keypad.lift` keeps it.
`Keypad.poll` takes the snapshot that a step works with and forgets the presses it reports.
-/

namespace ChipEight

/-- One answer for each key. -/
abbrev Keys := Vector Bool 16

def Keys.none : Keys := Vector.replicate 16 false

/-- The keys for which the answer is yes, from the smallest. -/
def Keys.toList (k : Keys) : List Nibble := (List.finRange 16).filter fun key => k[key]

theorem Keys.mem_toList {k : Keys} {key : Nibble} : key ∈ k.toList ↔ k[key] = true := by
  simp [Keys.toList, List.mem_finRange]

/-- A keypad between those who press keys and a machine that asks: the keys that are down, and the
keys whose last press nobody has asked about. -/
@[ext] structure Keypad where
  held : Keys
  fresh : Keys
deriving DecidableEq, Repr

/-- The ways in which a key number is refused. -/
inductive KeyFault where
  /-- No key has this number. -/
  | outOfRange (key : Int)
  /-- The number points outside the row of keys, from either end. -/
  | noSuchPosition
deriving DecidableEq, Repr

def KeyFault.message : KeyFault → String
  | outOfRange key => s!"Key must be in [0, 15], got {key}"
  | noSuchPosition => "list index out of range"

/-- The key with this number, or an error that names it. -/
def checkKey (n : Int) : Except KeyFault Nibble :=
  match Nibble.ofInt? n with
  | some key => .ok key
  | none => .error (.outOfRange n)

/-- The key at a position in the row of keys; below zero the positions count from the end. -/
def keyAt (n : Int) : Except KeyFault Nibble :=
  match Nibble.ofInt? (if n < 0 then n + 16 else n) with
  | some key => .ok key
  | none => .error .noSuchPosition

namespace Keypad

/-- Nothing is held and nothing was pressed. -/
def idle : Keypad := ⟨Keys.none, Keys.none⟩

/-- Puts a key down. That is news only if the key was up. -/
def press (k : Keypad) (key : Nibble) : Keypad :=
  ⟨k.held.set key true, if k.held[key] then k.fresh else k.fresh.set key true⟩

/-- Lets a key go and forgets a press of it that was not asked about. -/
def release (k : Keypad) (key : Nibble) : Keypad :=
  ⟨k.held.set key false, k.fresh.set key false⟩

/-- Lets a key go and keeps a press of it that was not asked about. -/
def lift (k : Keypad) (key : Nibble) : Keypad := ⟨k.held.set key false, k.fresh⟩

/-- Lets every key go and forgets every press. -/
def releaseAll (_ : Keypad) : Keypad := idle

def isHeld (k : Keypad) (key : Nibble) : Bool := k.held[key]

/-- Whether a key went down since this was last asked, and the keypad that has answered. -/
def newlyPressed (k : Keypad) (key : Nibble) : Bool × Keypad :=
  (k.fresh[key], { k with fresh := k.fresh.set key false })

/-- The held and the newly pressed keys, and the keypad that has reported them. -/
def poll (k : Keypad) : (Keys × Keys) × Keypad :=
  ((k.held, k.fresh), { k with fresh := Keys.none })

theorem isHeld_press (k : Keypad) (key other : Nibble) :
    (k.press key).isHeld other = (decide (key = other) || k.isHeld other) := by
  by_cases h : key = other <;> simp [press, isHeld, Vector.getElem_set, h]
  simp_all [Fin.ext_iff]

theorem isHeld_release (k : Keypad) (key other : Nibble) :
    (k.release key).isHeld other = (!decide (key = other) && k.isHeld other) := by
  by_cases h : key = other <;> simp [release, isHeld, Vector.getElem_set, h]
  simp_all [Fin.ext_iff]

theorem isHeld_lift (k : Keypad) (key other : Nibble) :
    (k.lift key).isHeld other = (k.release key).isHeld other := rfl

/-- A press is owed for a key that was up before, besides those that are owed already. -/
theorem newlyPressed_press (k : Keypad) (key other : Nibble) :
    ((k.press key).newlyPressed other).1 =
      ((decide (key = other) && !k.isHeld key) || (k.newlyPressed other).1) := by
  have hval : key = other ↔ key.val = other.val := Fin.ext_iff
  cases hheld : k.held[key] with
  | true => simp [press, newlyPressed, isHeld, hheld]
  | false => by_cases h : key.val = other.val <;> simp_all [press, newlyPressed, isHeld]

theorem newlyPressed_release (k : Keypad) (key other : Nibble) :
    ((k.release key).newlyPressed other).1 =
      (!decide (key = other) && (k.newlyPressed other).1) := by
  have hval : key = other ↔ key.val = other.val := Fin.ext_iff
  by_cases h : key.val = other.val <;> simp_all [release, newlyPressed]

/-- The question is answered once. -/
theorem newlyPressed_newlyPressed (k : Keypad) (key other : Nibble) :
    ((k.newlyPressed key).2.newlyPressed other).1 =
      ((k.release key).newlyPressed other).1 := rfl

/-- A poll reports every press that is owed, so none is left. -/
theorem newlyPressed_poll (k : Keypad) (key : Nibble) : (k.poll.2.newlyPressed key).1 = false := by
  simp [poll, newlyPressed, Keys.none]

end Keypad

end ChipEight
