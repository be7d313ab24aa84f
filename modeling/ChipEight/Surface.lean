import ChipEight.Machine
import ChipEight.Picture

/-!
# Surfaces

A `Surface` is what a window shows, together with the scheme and the scale that pixels are painted
with. `Surface.setPixel` paints one pixel of a screen, as far as it lies on the surface, and
`Surface.redraw` paints a whole screen, which has to fit exactly.
-/

namespace ChipEight

/-- An image in a window, with the colours and the scale in which screens are painted on it. -/
structure Surface (w h : Nat) where
  image : Image w h
  scheme : Scheme
  scale : Int
deriving DecidableEq

namespace Surface

variable {w h : Nat}

/-- The places from `first` on, `count` of them, that lie before `size`. -/
def span (size : Nat) (first : Int) (count : Int) : List (Fin size) :=
  (List.range ((min (first + count) size).toNat - (max first 0).toNat)).filterMap fun i =>
    if hi : (max first 0).toNat + i < size then some ⟨(max first 0).toNat + i, hi⟩ else none

/-- The points of the surface in the square of a pixel. -/
def square (scale : Int) (x y : Int) : List (Fin w × Fin h) :=
  (span w (x * scale) scale).flatMap fun px => (span h (y * scale) scale).map fun py => (px, py)

/-- Paints one pixel of a screen. -/
def setPixel (s : Surface w h) (x y : Int) (lit : Bool) : Surface w h :=
  { s with image := s.image.setAll (square s.scale x y) (s.scheme.color lit) }

/-- Paints the whole surface in the colour of a dark pixel. -/
def clear (s : Surface w h) : Surface w h := { s with image := Raster.fill s.scheme.off }

/-- Paints a whole screen, whose picture has to have the size of the surface. -/
def redraw {v u : Nat} (s : Surface w h) (screen : Screen v u) : Except PaintFault (Surface w h) :=
  let k := Picture.side s.scale
  if hx : v * k = w then
    if hy : u * k = h then .ok { s with image := hx ▸ hy ▸ Picture.image screen k s.scheme }
    else .error .sizeMismatch
  else .error .sizeMismatch

/-- Paints what an event tells a display. -/
def observe (s : Surface w h) : Event → Surface w h
  | .pixel x y lit => s.setPixel x.val y.val lit
  | .cleared => s.clear
  | _ => s

def observeAll (s : Surface w h) (events : List Event) : Surface w h := events.foldl observe s

@[simp] theorem observeAll_append (s : Surface w h) (es fs : List Event) :
    s.observeAll (es ++ fs) = (s.observeAll es).observeAll fs := List.foldl_append

end Surface

end ChipEight
