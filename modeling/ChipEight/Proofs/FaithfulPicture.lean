import Mathlib.Data.List.FinRange
import ChipEight.Picture

/-!
# Pictures that tell the screen

A screen can be told from its image and from its text, and the two tell the same. Both are looked at
as rows of cells from the top left: the image has a square of equal cells for each pixel, the text a
single one. Of an image enlarged by `k` every `k`-th row and column is the image that was enlarged.

* `painted_eq`: the image is the one that a palette and two repetitions make of the columns.
* `lines_text`: the lines of the text are the rows of the screen.
* `Depicts.of_enlarged`: enlarged rows have the mark of a pixel at each point of its square.
* `rendering_faithful`: image and text show the screen, each determines it, and sampling the image
  gives the text.
-/

namespace ChipEight

variable {α β : Type} {w h : Nat}

/-! ## Rows -/

namespace Raster

/-- The values row by row, from the top left. -/
def rows (r : Raster α w h) : List (List α) :=
  (List.finRange h).map fun y => (List.finRange w).map fun x => r.get x y

@[simp] theorem length_rows (r : Raster α w h) : r.rows.length = h := by
  simp [rows]

theorem length_of_mem_rows {r : Raster α w h} {row : List α} (hrow : row ∈ r.rows) :
    row.length = w := by
  obtain ⟨y, -, rfl⟩ := List.mem_map.mp hrow
  simp

/-- Rasters with the same rows, of which there are some, have the same size and are the same. -/
theorem eq_of_rows_eq {v u : Nat} {r : Raster α w h} {r' : Raster α v u} (hheight : 0 < h)
    (hrows : r.rows = r'.rows) :
    (⟨w, h, r⟩ : (w : Nat) × (h : Nat) × Raster α w h) = ⟨v, u, r'⟩ := by
  have hsame : h = u := by
    rw [← r.length_rows, hrows, r'.length_rows]
  subst hsame
  have hwide : w = v := by
    have hmem : (List.finRange w).map (r.get · ⟨0, hheight⟩) ∈ r.rows :=
      List.mem_map.mpr ⟨_, List.mem_finRange _, rfl⟩
    have hmem' := hmem
    rw [hrows] at hmem'
    exact (length_of_mem_rows hmem).symm.trans (length_of_mem_rows hmem')
  subst hwide
  have hget : r = r' := by
    refine ext_get fun x y => ?_
    have hrow := List.map_inj_left.mp hrows y (List.mem_finRange y)
    exact List.map_inj_left.mp hrow x (List.mem_finRange x)
  rw [hget]

end Raster

namespace Picture

/-- What stands in a row and a column, counted from the top left, if anything does. -/
def cell? (rows : List (List α)) (row column : Nat) : Option α :=
  rows[row]?.bind fun cells => cells[column]?

theorem cell?_rows (r : Raster α w h) (x : Fin w) (y : Fin h) :
    cell? r.rows y x = some (r.get x y) := by
  simp [cell?, Raster.rows]

theorem cell?_map (f : α → β) (rows : List (List α)) (row column : Nat) :
    cell? (rows.map (List.map f)) row column = (cell? rows row column).map f := by
  unfold cell?
  rw [List.getElem?_map]
  cases rows[row]? with
  | none => rfl
  | some cells => exact List.getElem?_map

/-! ## Repeating and sampling -/

/-- Each element `k` times over. -/
def repeatEach (k : Nat) (l : List α) : List α := l.flatMap (List.replicate k)

/-- Each cell becomes a square with this side. -/
def enlarged (k : Nat) (rows : List (List α)) : List (List α) :=
  (repeatEach k rows).map (repeatEach k)

/-- The elements at the places that are multiples of `k`. -/
def everyNth (k : Nat) (l : List α) : List α :=
  (List.range l.length).filterMap fun i => l[i * k]?

/-- Every `k`-th row, and every `k`-th column of these. -/
def sampled (k : Nat) (rows : List (List α)) : List (List α) := (everyNth k rows).map (everyNth k)

theorem length_repeatEach (k : Nat) (l : List α) : (repeatEach k l).length = l.length * k := by
  induction l with
  | nil => simp [repeatEach]
  | cons a l ih =>
    change (List.replicate k a ++ repeatEach k l).length = _
    rw [List.length_append, List.length_replicate, ih, List.length_cons, Nat.succ_mul, Nat.add_comm]

theorem getElem?_repeatEach {k : Nat} (hk : 0 < k) (l : List α) (i : Nat) :
    (repeatEach k l)[i]? = l[i / k]? := by
  induction l generalizing i with
  | nil => simp [repeatEach]
  | cons a l ih =>
    change (List.replicate k a ++ repeatEach k l)[i]? = _
    rcases Nat.lt_or_ge i k with hfirst | hlater
    · rw [List.getElem?_append_left (by simpa using hfirst), Nat.div_eq_of_lt hfirst]
      simp [hfirst]
    · rw [List.getElem?_append_right (by simpa using hlater), List.length_replicate, ih,
        Nat.div_eq_sub_div hk hlater]
      rfl

theorem mem_of_mem_repeatEach {k : Nat} {l : List α} {a : α} (ha : a ∈ repeatEach k l) :
    a ∈ l := by
  obtain ⟨b, hb, hab⟩ := List.mem_flatMap.mp ha
  rwa [List.eq_of_mem_replicate hab]

theorem map_repeatEach (f : α → β) (k : Nat) (l : List α) :
    (repeatEach k l).map f = repeatEach k (l.map f) := by
  simp [repeatEach, List.map_flatMap, List.flatMap_map]

@[simp] theorem repeatEach_one (l : List α) : repeatEach 1 l = l := by
  refine List.ext_getElem? fun i => ?_
  rw [getElem?_repeatEach Nat.one_pos, Nat.div_one]

theorem filterMap_range_getElem? (l : List α) {n : Nat} (hn : l.length ≤ n) :
    (List.range n).filterMap (fun i => l[i]?) = l := by
  induction l generalizing n with
  | nil => simp
  | cons a l ih =>
    obtain ⟨n, rfl⟩ :=
      Nat.exists_eq_add_one_of_ne_zero (Nat.ne_of_gt (Nat.lt_of_lt_of_le (by simp) hn))
    rw [List.range_succ_eq_map, List.filterMap_cons, List.filterMap_map]
    exact congrArg (a :: ·) (ih (Nat.le_of_succ_le_succ hn))

theorem everyNth_repeatEach {k : Nat} (hk : 0 < k) (l : List α) :
    everyNth k (repeatEach k l) = l := by
  unfold everyNth
  simp only [getElem?_repeatEach hk, Nat.mul_div_cancel _ hk]
  refine filterMap_range_getElem? l ?_
  rw [length_repeatEach]
  exact Nat.le_mul_of_pos_right _ hk

theorem sampled_enlarged {k : Nat} (hk : 0 < k) (rows : List (List α)) :
    sampled k (enlarged k rows) = rows := by
  unfold sampled enlarged
  rw [map_repeatEach, everyNth_repeatEach hk, List.map_map]
  exact List.map_id'' (everyNth_repeatEach hk) rows

@[simp] theorem enlarged_one (rows : List (List α)) : enlarged 1 rows = rows := by
  unfold enlarged
  rw [repeatEach_one]
  exact List.map_id'' repeatEach_one rows

theorem cell?_enlarged {k : Nat} (hk : 0 < k) (rows : List (List α)) (row column : Nat) :
    cell? (enlarged k rows) row column = cell? rows (row / k) (column / k) := by
  unfold cell? enlarged
  rw [List.getElem?_map, getElem?_repeatEach hk]
  cases rows[row / k]? with
  | none => rfl
  | some cells => exact getElem?_repeatEach hk cells column

/-! ## The image -/

/-- A list over the places below a product goes through the places of the first factor, each as
often as the second says. -/
theorem map_finRange_div {n k : Nat} (hk : 0 < k) (f : Fin n → α) :
    ((List.finRange (n * k)).map fun i => f ⟨i.val / k, div_lt_of_lt_mul i.isLt⟩) =
      repeatEach k ((List.finRange n).map f) := by
  refine List.ext_getElem? fun i => ?_
  rw [getElem?_repeatEach hk]
  rcases Nat.lt_or_ge i (n * k) with hi | hi
  · have hquotient : i / k < n := div_lt_of_lt_mul hi
    simp [hi, hquotient]
  · have hquotient : n ≤ i / k := (Nat.le_div_iff_mul_le hk).mpr hi
    simp [hi, hquotient]

theorem rows_image (screen : Screen w h) {k : Nat} (hk : 0 < k) (scheme : Scheme) :
    (image screen k scheme).rows = enlarged k (screen.rows.map (List.map scheme.color)) := by
  have hrow (y : Fin h) : ((List.finRange (w * k)).map fun x =>
      scheme.color (screen.get ⟨x.val / k, div_lt_of_lt_mul x.isLt⟩ y)) =
      repeatEach k ((List.finRange w).map fun x => scheme.color (screen.get x y)) :=
    map_finRange_div hk fun x => scheme.color (screen.get x y)
  unfold Raster.rows image enlarged
  simp only [Raster.get_ofFn, hrow]
  rw [map_finRange_div hk fun y =>
    repeatEach k ((List.finRange w).map fun x => scheme.color (screen.get x y)), map_repeatEach]
  simp [Function.comp_def]

/-- The rows of the image as a palette and repetitions make them: the columns of the screen are
turned into rows, each pixel is the place of its colour in a palette, and if the scale is not one
the rows are repeated and then the columns. -/
def painted (screen : Screen w h) (scale : Nat) (scheme : Scheme) : List (List Color) :=
  let palette : Vector Color 2 := #v[scheme.off, scheme.on]
  let rows := (List.finRange h).map fun y =>
    screen.columns.toList.map fun column => palette.get ⟨(column.get y).toNat, Bool.toNat_lt _⟩
  if 1 < scale then enlarged scale rows else rows

theorem painted_eq (screen : Screen w h) {scale : Nat} (hscale : 1 ≤ scale) (scheme : Scheme) :
    painted screen scale scheme = enlarged scale (screen.rows.map (List.map scheme.color)) := by
  have hrows : ((List.finRange h).map fun y => screen.columns.toList.map fun column =>
      (#v[scheme.off, scheme.on] : Vector Color 2).get
        ⟨(column.get y).toNat, Bool.toNat_lt _⟩) =
      screen.rows.map (List.map scheme.color) := by
    unfold Raster.rows
    rw [List.map_map]
    refine List.map_congr_left fun y _ => List.ext_getElem (by simp) fun x hx hx' => ?_
    have hcolor : ∀ lit : Bool, (#v[scheme.off, scheme.on] : Vector Color 2).get
        ⟨lit.toNat, Bool.toNat_lt lit⟩ = scheme.color lit := by
      intro lit
      cases lit <;> rfl
    have hcell (column : Vector Bool h) : column.get y = column[y.val] := rfl
    simp [hcolor, hcell, Raster.get]
  unfold painted
  dsimp only
  rw [hrows]
  split
  case isTrue => rfl
  case isFalse hone =>
    have hscale : scale = 1 := by omega
    rw [hscale, enlarged_one]

/-! ## The text -/

/-- The lines of a text, as characters. -/
def lines (text : String) : List (List Char) := text.toList.splitOn '\n'

theorem lines_text (screen : Screen w h) (hheight : 0 < h) {on off : Char} (hon : on ≠ '\n')
    (hoff : off ≠ '\n') :
    lines (text screen (String.singleton on) (String.singleton off)) =
      screen.rows.map (List.map fun lit => if lit then on else off) := by
  have hrows : ((List.finRange h).map
      (rowText screen (String.singleton on) (String.singleton off))).map String.toList =
      screen.rows.map (List.map fun lit => if lit then on else off) := by
    unfold Raster.rows
    rw [List.map_map, List.map_map]
    refine List.map_congr_left fun y _ => ?_
    have hmark (lit : Bool) : (if lit then String.singleton on else String.singleton off).toList =
        [if lit then on else off] := by
      cases lit <;> exact String.toList_singleton _
    simp only [Function.comp_apply, rowText, String.toList_join, List.flatMap_map, List.map_map]
    simp [hmark, ← List.map_eq_flatMap]
  unfold lines text
  rw [String.toList_intercalate, hrows]
  refine List.splitOn_intercalate _ ?_ ?_
  · intro line hline hbreak
    obtain ⟨row, -, rfl⟩ := List.mem_map.mp hline
    obtain ⟨lit, -, hmark⟩ := List.mem_map.mp hbreak
    cases lit
    · exact hoff hmark
    · exact hon hmark
  · rw [ne_eq, List.map_eq_nil_iff, ← List.length_eq_zero_iff, Raster.length_rows]
    omega

/-! ## What rows of cells show -/

section Marks

variable {on off : α}

theorem mark_injective (hmarks : on ≠ off) :
    Function.Injective fun lit : Bool => if lit then on else off := by
  intro lit lit' hsame
  cases lit <;> cases lit'
  · rfl
  · exact absurd hsame.symm hmarks
  · exact absurd hsame hmarks
  · rfl

/-- The rows show the screen: each pixel has a square of `k` by `k` cells, whose marks are of one
kind if it is lit and of the other if it is dark. -/
structure Depicts (rows : List (List α)) (screen : Screen w h) (k : Nat) (on off : α) : Prop where
  height : rows.length = h * k
  width : ∀ cells ∈ rows, cells.length = w * k
  lit_iff : ∀ {row column : Nat} (hrow : row < h * k) (hcolumn : column < w * k),
    cell? rows row column = some on ↔
      screen.get ⟨column / k, div_lt_of_lt_mul hcolumn⟩ ⟨row / k, div_lt_of_lt_mul hrow⟩ = true
  dark_iff : ∀ {row column : Nat} (hrow : row < h * k) (hcolumn : column < w * k),
    cell? rows row column = some off ↔
      screen.get ⟨column / k, div_lt_of_lt_mul hcolumn⟩ ⟨row / k, div_lt_of_lt_mul hrow⟩ = false

theorem Depicts.of_enlarged (hmarks : on ≠ off) (screen : Screen w h) {k : Nat} (hk : 0 < k) :
    Depicts (enlarged k (screen.rows.map (List.map fun lit => if lit then on else off))) screen k
      on off := by
  have hcell {row column : Nat} (hrow : row < h * k) (hcolumn : column < w * k) :
      cell? (enlarged k (screen.rows.map (List.map fun lit => if lit then on else off))) row
        column = some (if screen.get ⟨column / k, div_lt_of_lt_mul hcolumn⟩
          ⟨row / k, div_lt_of_lt_mul hrow⟩ then on else off) := by
    rw [cell?_enlarged hk, cell?_map]
    exact congrArg _ (cell?_rows screen ⟨_, div_lt_of_lt_mul hcolumn⟩ ⟨_, div_lt_of_lt_mul hrow⟩)
  refine ⟨?_, ?_, ?_, ?_⟩
  · rw [enlarged, List.length_map, length_repeatEach, List.length_map, Raster.length_rows]
  · intro cells hcells
    obtain ⟨row, hrow, rfl⟩ := List.mem_map.mp hcells
    obtain ⟨pixels, hpixels, rfl⟩ := List.mem_map.mp (mem_of_mem_repeatEach hrow)
    rw [length_repeatEach, List.length_map, Raster.length_of_mem_rows hpixels]
  · intro row column hrow hcolumn
    rw [hcell hrow hcolumn, Option.some_inj]
    exact (mark_injective hmarks).eq_iff (b := true)
  · intro row column hrow hcolumn
    rw [hcell hrow hcolumn, Option.some_inj]
    exact (mark_injective hmarks).eq_iff (b := false)

end Marks

/-- The image at a scale is the one that palette and repetitions make; it shows the screen with
squares of that side, in the colours of the scheme, and the lines of the text show it with one
character for each pixel. Sampled at every row and column that is a multiple of the scale the image
is the text, in other marks. And no other screen, of whatever size, has this image or this text. -/
theorem rendering_faithful {scale : Nat} (hscale : 1 ≤ scale) {scheme : Scheme}
    (hcolors : scheme.on ≠ scheme.off) {on off : Char} (hmarks : on ≠ off) (hon : on ≠ '\n')
    (hoff : off ≠ '\n') (screen : Screen w h) (hheight : 0 < h) :
    let pixels := (image screen (side scale) scheme).rows
    let written := text screen (String.singleton on) (String.singleton off)
    pixels = painted screen scale scheme ∧
      Depicts pixels screen scale scheme.on scheme.off ∧
      Depicts (lines written) screen 1 on off ∧
      (sampled scale pixels).map (List.map fun color => if color = scheme.on then on else off) =
        lines written ∧
      ∀ {v u : Nat} (screen' : Screen v u), 0 < u →
        ((image screen' (side scale) scheme).rows = pixels ∨
          text screen' (String.singleton on) (String.singleton off) = written) →
        (⟨v, u, screen'⟩ : (w : Nat) × (h : Nat) × Screen w h) = ⟨w, h, screen⟩ := by
  intro pixels written
  have hpixels : pixels = enlarged scale (screen.rows.map (List.map scheme.color)) := by
    dsimp only [pixels]
    rw [side_natCast hscale, rows_image screen hscale]
  have hwritten : lines written = screen.rows.map (List.map fun lit => if lit then on else off) :=
    lines_text screen hheight hon hoff
  refine ⟨?_, ?_, ?_, ?_, ?_⟩
  · rw [hpixels, painted_eq screen hscale]
  · rw [hpixels]
    exact Depicts.of_enlarged hcolors screen hscale
  · have hshown := Depicts.of_enlarged hmarks screen Nat.one_pos
    rw [enlarged_one] at hshown
    rwa [hwritten]
  · have hmark (lit : Bool) : (if scheme.color lit = scheme.on then on else off) =
        if lit then on else off := by
      cases lit with
      | true => exact if_pos rfl
      | false => exact if_neg hcolors.symm
    rw [hpixels, sampled_enlarged hscale, hwritten, List.map_map]
    refine List.map_congr_left fun cells _ => ?_
    simp only [Function.comp_apply, List.map_map]
    exact List.map_congr_left fun lit _ => hmark lit
  · intro v u screen' hheight' hsame
    refine Raster.eq_of_rows_eq hheight' ?_
    rcases hsame with hsame | hsame
    -- Sampling undoes the enlarging, and splitting into lines the joining.
    · rw [side_natCast hscale, rows_image screen' hscale, hpixels] at hsame
      have hcells := congrArg (sampled scale) hsame
      rw [sampled_enlarged hscale, sampled_enlarged hscale] at hcells
      exact List.map_injective_iff.mpr (List.map_injective_iff.mpr (mark_injective hcolors)) hcells
    · have hlines := congrArg lines hsame
      rw [lines_text screen' hheight' hon hoff, hwritten] at hlines
      exact List.map_injective_iff.mpr (List.map_injective_iff.mpr (mark_injective hmarks)) hlines

/-- Three columns and two rows, lit in two opposite corners. -/
def corners : Screen 3 2 := Raster.ofFn fun x y => decide (x.val = 2 * y.val)

/-- The two corners at twice the size: a point of the square of the second one is green. -/
theorem rendering_faithful_of_corners :
    plainText corners = "#..\n..#" ∧
      Depicts (image corners (side 2) Scheme.classic).rows corners 2 Scheme.classic.on
        Scheme.classic.off ∧
      cell? (image corners (side 2) Scheme.classic).rows 3 4 = some ⟨0, 255, 0⟩ ∧
      Depicts (lines "#..\n..#") corners 1 '#' '.' ∧
      (sampled 2 (image corners (side 2) Scheme.classic).rows).map
        (List.map fun color => if color = Scheme.classic.on then '#' else '.') =
          lines "#..\n..#" := by
  have htext : text corners (String.singleton '#') (String.singleton '.') = "#..\n..#" := by
    decide +kernel
  obtain ⟨-, himage, hlines, hsampled, -⟩ := rendering_faithful (by decide : 1 ≤ 2)
    (by decide : Scheme.classic.on ≠ Scheme.classic.off) (by decide : '#' ≠ '.') (by decide)
    (by decide) corners (by decide)
  rw [htext] at hlines hsampled
  exact ⟨htext, himage, (himage.lit_iff (by decide) (by decide)).mpr (by decide), hlines,
    hsampled⟩

end Picture

end ChipEight
