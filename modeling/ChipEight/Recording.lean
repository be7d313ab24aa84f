import ChipEight.Machine

/-!
# Recordings of a display

A `Recording` writes down every change of a pixel, counts how often the screen was cleared, and
knows which pixels are lit as a consequence. Coordinates are not restricted to the screen.
-/

namespace ChipEight

/-- What a display has been told, from the beginning: every call for a pixel in its order, the
number of calls to clear, and the pixels that are lit now. -/
structure Recording where
  pixels : Array (Int × Int × Bool)
  clears : Nat
  /-- The lit pixels, each of them once. -/
  lit : List (Int × Int)
deriving DecidableEq

namespace Recording

def blank : Recording := ⟨#[], 0, []⟩

/-- Records a call for a pixel, which is lit or dark afterwards. -/
def setPixel (r : Recording) (x y : Int) (on : Bool) : Recording :=
  { r with
    pixels := r.pixels.push (x, y, on)
    lit := if on then r.lit.insert (x, y) else r.lit.filter (· ≠ (x, y)) }

/-- Every pixel goes dark. The record of earlier changes is kept. -/
def clear (r : Recording) : Recording := { r with clears := r.clears + 1, lit := [] }

/-- A call decides about its own pixel and leaves the others as they are. -/
theorem mem_lit_setPixel {r : Recording} {x y : Int} {on : Bool} {p : Int × Int} :
    p ∈ (r.setPixel x y on).lit ↔ if p = (x, y) then on = true else p ∈ r.lit := by
  by_cases hp : p = (x, y) <;> cases on <;> simp [setPixel, hp]

/-- Records an event, if it is one that a display is told. -/
def observe (r : Recording) : Event → Recording
  | .pixel x y lit => r.setPixel x.val y.val lit
  | .cleared => r.clear
  | _ => r

def observeAll (r : Recording) (events : List Event) : Recording := events.foldl observe r

@[simp] theorem observeAll_append (r : Recording) (es fs : List Event) :
    r.observeAll (es ++ fs) = (r.observeAll es).observeAll fs := List.foldl_append

end Recording

end ChipEight
