/-!
# Dialects

Programs disagree on what a few instructions do. A `Dialect` settles the three choices that real
machines made differently; `Dialect.describe` is its one-line text.
-/

namespace ChipEight

/-- A choice for each instruction on which machines differ. -/
structure Dialect where
  /-- The shifts `8XY6` and `8XYE` read `VY` and not `VX`. -/
  legacyShift : Bool := true
  /-- A sprite that passes the right or bottom edge goes on at the opposite one, and is not cut. -/
  wrapSprites : Bool := true
  /-- The transfers `FX55` and `FX65` leave `I` behind the last byte they moved. -/
  incrementIndex : Bool := false
deriving DecidableEq, Repr

namespace Dialect

/-- A truth value as it is printed. -/
def flag (b : Bool) : String := if b then "True" else "False"

def describe (d : Dialect) : String :=
  "Quirks(legacy_shift=" ++ flag d.legacyShift ++ ", wrap_sprites=" ++ flag d.wrapSprites ++
    ", increment_index=" ++ flag d.incrementIndex ++ ")"

end Dialect

end ChipEight
