import ChipEight.Color
import ChipEight.Sprite

/-!
# Pictures of a screen

A screen can be shown as an image, each pixel becoming a square of one colour (`Picture.image`), or
as text, a line for each row (`Picture.text`).
-/

namespace ChipEight

/-- An image, or the surface of a window. -/
abbrev Image := Raster Color

namespace Picture

variable {w h : Nat}

/-- The side of the square that a pixel becomes; a scale below one counts as one. -/
def side (scale : Int) : Nat := max 1 scale.toNat

/-- A scale of at least one is the side of its squares. -/
theorem side_natCast {scale : Nat} (hscale : 1 ≤ scale) : side (scale : Int) = scale := by
  unfold side
  omega

/-- A point of the image lies in the square of a pixel of the screen. -/
theorem div_lt_of_lt_mul {n m k : Nat} (hlt : n < m * k) : n / k < m :=
  Nat.div_lt_of_lt_mul (Nat.mul_comm m k ▸ hlt)

/-- The screen with every pixel blown up to a square with this side. -/
def image (screen : Screen w h) (k : Nat) (scheme : Scheme) : Image (w * k) (h * k) :=
  Raster.ofFn fun x y =>
    scheme.color
      (screen.get ⟨x.val / k, div_lt_of_lt_mul x.isLt⟩ ⟨y.val / k, div_lt_of_lt_mul y.isLt⟩)

/-- The first value, row by row, that is neither zero nor one. -/
def firstStray? (r : Raster Nat w h) : Option Nat :=
  ((List.finRange h).flatMap fun y => (List.finRange w).map fun x => r.get x y).find? (1 < ·)

/-- The screen on which the ones are lit and the zeros dark; there must be no other values. -/
def screenOf (r : Raster Nat w h) : Except PaintFault (Screen w h) :=
  match firstStray? r with
  | some index => .error (.noColor index)
  | none => .ok (r.map (· == 1))

/-- One row of a screen as text. -/
def rowText (screen : Screen w h) (on off : String) (y : Fin h) : String :=
  String.join ((List.finRange w).map fun x => if screen.get x y then on else off)

/-- A screen as text, a line for each row and no line break at the end. -/
def text (screen : Screen w h) (on off : String) : String :=
  String.intercalate "\n" ((List.finRange h).map (rowText screen on off))

/-- The marks for lit and dark pixels where none are asked for. -/
def plainText (screen : Screen w h) : String := text screen "#" "."

end Picture

end ChipEight
