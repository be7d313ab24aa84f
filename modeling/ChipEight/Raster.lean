/-!
# Rasters

A rectangle of points, each holding a value: the screen of a CHIP-8 holds booleans, the surface of
a window holds colours. A point is a column and a row, counted from the top left. `Raster.get`
reads a point, and two rasters that agree at every point are equal (`Raster.ext_get`), so each
operation is known by what `get` sees of it.
-/

namespace ChipEight

/-- A rectangle of values, stored column by column. -/
structure Raster (α : Type) (width height : Nat) where
  columns : Vector (Vector α height) width
deriving DecidableEq

namespace Raster

variable {α β : Type} {w h : Nat}

def get (r : Raster α w h) (x : Fin w) (y : Fin h) : α := r.columns[x][y]

/-- The raster with the value `f x y` at column `x` and row `y`. -/
def ofFn (f : Fin w → Fin h → α) : Raster α w h := ⟨Vector.ofFn fun x => Vector.ofFn fun y => f x y⟩

/-- The raster with one value everywhere. -/
def fill (a : α) : Raster α w h := ⟨Vector.replicate w (Vector.replicate h a)⟩

/-- The raster with the value at one point replaced. -/
def set (r : Raster α w h) (p : Fin w × Fin h) (a : α) : Raster α w h :=
  ⟨r.columns.set p.1 (r.columns[p.1].set p.2 a)⟩

/-- Gives one value to every listed point. -/
def setAll (r : Raster α w h) (points : List (Fin w × Fin h)) (a : α) : Raster α w h :=
  points.foldl (fun r p => r.set p a) r

/-- The raster with a function applied at every point. -/
def map (f : α → β) (r : Raster α w h) : Raster β w h := ofFn fun x y => f (r.get x y)

/-- Every point, column by column. -/
def points : List (Fin w × Fin h) :=
  (List.finRange w).flatMap fun x => (List.finRange h).map fun y => (x, y)

/-- The points at which two rasters differ, column by column. -/
def changes [BEq α] (r s : Raster α w h) : List (Fin w × Fin h) :=
  points.filter fun p => r.get p.1 p.2 != s.get p.1 p.2

/-- The point-wise exclusive or of two rasters of booleans. -/
def xor (r s : Raster Bool w h) : Raster Bool w h := ofFn fun x y => r.get x y ^^ s.get x y

/-- A raster is known by its values. -/
theorem ext_get {r s : Raster α w h} (hget : ∀ x y, r.get x y = s.get x y) : r = s := by
  cases r with
  | mk rc =>
    cases s with
    | mk sc =>
      congr 1
      exact Vector.ext fun i hi => Vector.ext fun j hj => hget ⟨i, hi⟩ ⟨j, hj⟩

@[simp] theorem get_ofFn (f : Fin w → Fin h → α) (x : Fin w) (y : Fin h) :
    (ofFn f).get x y = f x y := by simp [get, ofFn]

@[simp] theorem get_fill (a : α) (x : Fin w) (y : Fin h) : (fill a).get x y = a := by
  simp [get, fill]

theorem get_set (r : Raster α w h) (p : Fin w × Fin h) (a : α) (x : Fin w) (y : Fin h) :
    (r.set p a).get x y = if p = (x, y) then a else r.get x y := by
  obtain ⟨px, py⟩ := p
  by_cases hx : px = x <;> by_cases hy : py = y <;>
    simp [get, set, Vector.getElem_set, hx, hy] <;> simp_all [Fin.ext_iff]

/-- Painting a list of points changes these points and no other. -/
theorem get_setAll (r : Raster α w h) (ps : List (Fin w × Fin h)) (a : α) (x : Fin w)
    (y : Fin h) [hmem : Decidable ((x, y) ∈ ps)] :
    (r.setAll ps a).get x y = if (x, y) ∈ ps then a else r.get x y := by
  induction ps generalizing r hmem with
  | nil => simp [setAll]
  | cons p ps ih =>
    have step : r.setAll (p :: ps) a = (r.set p a).setAll ps a := rfl
    rw [step, ih, get_set]
    by_cases hp : p = (x, y) <;> simp [hp, eq_comm]

@[simp] theorem get_map (f : α → β) (r : Raster α w h) (x : Fin w) (y : Fin h) :
    (r.map f).get x y = f (r.get x y) := by simp [map]

@[simp] theorem get_xor (r s : Raster Bool w h) (x : Fin w) (y : Fin h) :
    (r.xor s).get x y = (r.get x y ^^ s.get x y) := by simp [xor]

@[simp] theorem mem_points (p : Fin w × Fin h) : p ∈ (points : List (Fin w × Fin h)) := by
  simp [points, List.mem_finRange, Prod.ext_iff]

/-- The changes between two rasters are the points at which their values differ. -/
@[simp] theorem mem_changes [BEq α] [LawfulBEq α] (r s : Raster α w h) (p : Fin w × Fin h) :
    p ∈ r.changes s ↔ r.get p.1 p.2 ≠ s.get p.1 p.2 := by
  simp [changes]

end Raster

end ChipEight
