import ChipEight.Memory
import ChipEight.Raster

/-!
# Sprites

A sprite is a stack of rows of eight bits in memory. `Sprite.bits` lists the bits that are set, by
column and row of the sprite; `Sprite.place` says which pixel of the screen a bit covers, either
wrapping at the edges or cut off by them; and `Sprite.plane` is the set of pixels covered.
-/

namespace ChipEight

/-- The pixels of a screen, lit or dark. -/
abbrev Screen := Raster Bool

namespace Sprite

/-- Whether the bit in a column, counted from the left, is set in a row of a sprite. -/
def bit (row : Byte) (column : Nat) : Bool := row.toNat.testBit (7 - column)

/-- The columns and rows of the bits set in the `rows` rows from `base` on. -/
def bits (m : Memory) (base : Address) (rows : Nat) : List (Nat × Nat) :=
  (List.range rows).flatMap fun r =>
    ((List.range 8).filter (bit (m.read (base + Fin.ofNat 4096 r)))).map fun c => (c, r)

/-- The pixel that a bit of the sprite covers when its top left corner is at `left` and `top`. -/
def place (w h : Nat) (wrap : Bool) (left top : Nat) (b : Nat × Nat) : Option (Fin w × Fin h) :=
  let x := if wrap then (left + b.1) % w else left + b.1
  let y := if wrap then (top + b.2) % h else top + b.2
  if hx : x < w then
    if hy : y < h then some (⟨x, hx⟩, ⟨y, hy⟩) else none
  else none

/-- The pixels that a sprite covers, one for each bit that is set and on the screen. -/
def targets (w h : Nat) (m : Memory) (base : Address) (rows : Nat) (wrap : Bool)
    (left top : Nat) : List (Fin w × Fin h) :=
  (bits m base rows).filterMap (place w h wrap left top)

/-- The screen on which exactly the pixels that a sprite covers are lit. -/
def plane {w h : Nat} (targets : List (Fin w × Fin h)) : Screen w h :=
  (Raster.fill false).setAll targets true

/-- A pixel of the plane is lit if a bit of the sprite covers it. -/
@[simp] theorem get_plane {w h : Nat} (ts : List (Fin w × Fin h)) (x : Fin w) (y : Fin h)
    [Decidable ((x, y) ∈ ts)] : (plane ts).get x y = decide ((x, y) ∈ ts) := by
  rw [plane, Raster.get_setAll, Raster.get_fill]
  by_cases hm : (x, y) ∈ ts <;> simp [hm]

/-- The bits of a sprite, told by row and column. -/
theorem mem_bits {m : Memory} {base : Address} {rows : Nat} {b : Nat × Nat} :
    b ∈ bits m base rows ↔
      b.2 < rows ∧ b.1 < 8 ∧ bit (m.read (base + Fin.ofNat 4096 b.2)) b.1 = true := by
  obtain ⟨c, r⟩ := b
  simp only [bits, List.mem_flatMap, List.mem_range, List.mem_map, List.mem_filter, Prod.mk.injEq]
  constructor
  · rintro ⟨r', hr, c', ⟨hc, hb⟩, rfl, rfl⟩
    exact ⟨hr, hc, hb⟩
  · rintro ⟨hr, hc, hb⟩
    exact ⟨r, hr, c, ⟨hc, hb⟩, rfl, rfl⟩

end Sprite

end ChipEight
