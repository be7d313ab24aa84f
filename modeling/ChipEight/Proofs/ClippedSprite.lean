import ChipEight.Proofs.DialectChoices
import ChipEight.Proofs.InBounds

/-!
# Sprites that are cut and sprites that go on

If a screen had no edges, every bit of a sprite that is set would lie in a column and a row of its
own (`State.Reaches`). Both ways of drawing start from these places: one keeps those that are on the
screen, the other takes them all and reduces them. So a sprite that is cut at the edges covers a
part of what it covers when it goes on at the opposite edge, and the rest are reductions of places
off the screen.

* `State.get_plane_clipping`, `State.get_plane_wrapping`: the two planes, told from the same places.
* `State.drawsPlane`: what an instruction `DXYN` does with its plane, which is also the one that its
  bits add up to where bits off the screen are held at its last column and row.
* `State.clip_part_of_wrap`: the two ways compared.
-/

namespace ChipEight

namespace Sprite

variable {w h left top : Nat} {b : Nat × Nat} {p : Fin w × Fin h}

theorem place_eq_iff {wrap : Bool} : place w h wrap left top b = some p ↔
    (if wrap then (left + b.1) % w else left + b.1) = p.1.val ∧
      (if wrap then (top + b.2) % h else top + b.2) = p.2.val := by
  simp only [place, Option.dite_none_right_eq_some, Option.some.injEq, Prod.ext_iff, Fin.ext_iff]
  constructor
  · rintro ⟨-, -, hplace⟩
    exact hplace
  · rintro ⟨hx, hy⟩
    exact ⟨hx ▸ p.1.isLt, hy ▸ p.2.isLt, hx, hy⟩

end Sprite

namespace State

variable {w h : Nat}

/-- The same state, with sprites that are cut at the edges. -/
def clipping (s : State w h) : State w h :=
  s.withDialect { s.dialect with wrapSprites := false }

/-- The same state, with sprites that go on at the opposite edge. -/
def wrapping (s : State w h) : State w h :=
  s.withDialect { s.dialect with wrapSprites := true }

/-- A bit of the sprite is set that would lie in this column and row if there were no edges. -/
def Reaches (s : State w h) (x y rows : Nibble) (column row : Nat) : Prop :=
  ∃ b : Nat × Nat, b.2 < rows.val ∧ b.1 < 8 ∧
    Sprite.bit (s.memory.read (Address.ofWord s.index + Fin.ofNat 4096 b.2)) b.1 = true ∧
    (s.v x).toNat % w + b.1 = column ∧ (s.v y).toNat % h + b.2 = row

/-! ## The two planes -/

theorem mem_spriteTargets_iff {s : State w h} {x y rows : Nibble} {p : Fin w × Fin h} :
    p ∈ s.spriteTargets x y rows ↔ ∃ column row, s.Reaches x y rows column row ∧
      (if s.dialect.wrapSprites then column % w else column) = p.1.val ∧
      (if s.dialect.wrapSprites then row % h else row) = p.2.val := by
  simp only [spriteTargets, Sprite.targets, List.mem_filterMap, Sprite.mem_bits,
    Sprite.place_eq_iff, Reaches]
  constructor
  · rintro ⟨b, ⟨hrow, hcolumn, hbit⟩, hplace⟩
    exact ⟨_, _, ⟨b, hrow, hcolumn, hbit, rfl, rfl⟩, hplace⟩
  · rintro ⟨_, _, ⟨b, hrow, hcolumn, hbit, rfl, rfl⟩, hplace⟩
    exact ⟨b, ⟨hrow, hcolumn, hbit⟩, hplace⟩

theorem get_plane_clipping (s : State w h) (x y rows : Nibble) (px : Fin w) (py : Fin h) :
    (Sprite.plane (s.clipping.spriteTargets x y rows)).get px py = true ↔
      s.Reaches x y rows px.val py.val := by
  rw [Sprite.get_plane, decide_eq_true_iff, mem_spriteTargets_iff]
  constructor
  · rintro ⟨column, row, hreaches, hcolumn, hrow⟩
    cases hcolumn
    cases hrow
    exact hreaches
  · intro hreaches
    exact ⟨px.val, py.val, hreaches, rfl, rfl⟩

theorem get_plane_wrapping (s : State w h) (x y rows : Nibble) (px : Fin w) (py : Fin h) :
    (Sprite.plane (s.wrapping.spriteTargets x y rows)).get px py = true ↔
      ∃ column row, s.Reaches x y rows column row ∧ column % w = px.val ∧ row % h = py.val := by
  rw [Sprite.get_plane, decide_eq_true_iff, mem_spriteTargets_iff]
  rfl

/-- A place on the screen is its own reduction. -/
theorem plane_clipping_le (s : State w h) (x y rows : Nibble) (px : Fin w) (py : Fin h)
    (hclip : (Sprite.plane (s.clipping.spriteTargets x y rows)).get px py = true) :
    (Sprite.plane (s.wrapping.spriteTargets x y rows)).get px py = true := by
  rw [get_plane_wrapping]
  exact ⟨px.val, py.val, (get_plane_clipping s x y rows px py).mp hclip, Nat.mod_eq_of_lt px.isLt,
    Nat.mod_eq_of_lt py.isLt⟩

theorem exists_reaches_of_not_clipping (s : State w h) (x y rows : Nibble) (px : Fin w)
    (py : Fin h) (hwrap : (Sprite.plane (s.wrapping.spriteTargets x y rows)).get px py = true)
    (hclip : (Sprite.plane (s.clipping.spriteTargets x y rows)).get px py = false) :
    ∃ column row, s.Reaches x y rows column row ∧ (w ≤ column ∨ h ≤ row) ∧
      column % w = px.val ∧ row % h = py.val := by
  obtain ⟨column, row, hreaches, hcolumn, hrow⟩ := (get_plane_wrapping s x y rows px py).mp hwrap
  refine ⟨column, row, hreaches, ?_, hcolumn, hrow⟩
  by_contra hinside
  rw [not_or, Nat.not_le, Nat.not_le] at hinside
  rw [Nat.mod_eq_of_lt hinside.1] at hcolumn
  rw [Nat.mod_eq_of_lt hinside.2] at hrow
  subst hcolumn hrow
  rw [(get_plane_clipping s x y rows px py).mpr hreaches] at hclip
  cases hclip

/-- Two dialects that disagree on sprites make no difference where no bit passes an edge. -/
theorem not_diverges_of_inside {s : State w h} {x y rows : Nibble}
    (hinside : ∀ column row, s.Reaches x y rows column row → column < w ∧ row < h) (d : Dialect) :
    ¬ Diverges s.clipping d (.draw x y rows) := by
  intro hdiverges
  cases hdiverges with
  | sprite hd hover =>
    obtain ⟨row, column, hrow, hcolumn, hbit, hout⟩ := hover
    obtain ⟨hx, hy⟩ := hinside _ _ ⟨(column, row), hrow, hcolumn, hbit, rfl, rfl⟩
    exact hout.elim (Nat.not_le.mpr hx) (Nat.not_le.mpr hy)

/-! ## The instruction -/

/-- The instruction ends in `t` and its plane is `plane`. That is also what its bits add up to where
every bit is aimed at some pixel and one that is not to be seen counts nothing. -/
structure DrawsPlane (s : State w h) (x y rows : Nibble) (plane : Screen w h) (t : State w h) :
    Prop where
  plane_eq : plane = Sprite.plane (s.spriteTargets x y rows)
  sum_eq : Checked.plane s ((s.v x).toNat % w : Nat) ((s.v y).toNat % h : Nat) rows.val =
    .ok plane
  execute_eq :
    s.execute (.ofInt (0xD000 + 0x100 * x.val + 0x10 * y.val + rows.val : Nat)) = .ok t
  screen_eq : t.screen = s.screen.xor plane
  flag_eq_one_iff : t.v flagRegister = 1 ↔
    ∃ px py, plane.get px py = true ∧ s.screen.get px py = true

theorem execute_draw (s : State w h) (x y rows : Nibble) :
    s.execute (.ofInt (0xD000 + 0x100 * x.val + 0x10 * y.val + rows.val : Nat)) =
      .ok (s.draw x y rows) := by
  refine execute_eq_ok_iff.mpr ⟨.draw x y rows, Opcode.instruction?_eq_some_iff.mpr ?_, rfl⟩
  have := x.lt
  have := y.lt
  have := rows.lt
  rw [Opcode.toNat_word_ofInt, Instruction.word, Instruction.family, Instruction.operands]
  omega

theorem draw_flag_eq_one_iff (s : State w h) (x y rows : Nibble) :
    (s.draw x y rows).v flagRegister = 1 ↔ ∃ px py,
      (Sprite.plane (s.spriteTargets x y rows)).get px py = true ∧
        s.screen.get px py = true := by
  have hflag (b : Bool) : Byte.ofFlag b = 1 ↔ b = true := by
    cases b <;> decide
  unfold draw setFlag
  rw [v_setV, if_pos rfl, hflag, List.any_eq_true]
  simp only [Sprite.get_plane, decide_eq_true_eq, Prod.exists]

theorem drawsPlane (hw : 0 < w) (hh : 0 < h) (s : State w h) (x y rows : Nibble) :
    s.DrawsPlane x y rows (Sprite.plane (s.spriteTargets x y rows)) (s.draw x y rows) where
  plane_eq := rfl
  sum_eq := Checked.plane_eq hw hh s _ _ rows
  execute_eq := s.execute_draw x y rows
  screen_eq := rfl
  flag_eq_one_iff := s.draw_flag_eq_one_iff x y rows

/-- On a screen with at least one pixel, however small, a sprite that is cut at the edges covers a
part of the pixels that it covers when it goes on at the opposite edge. Any other pixel that it then
covers is the reduction of a bit off the screen. So a collision of the part is a collision of the
whole; and where no bit is off the screen, the two ways end alike. -/
theorem clip_part_of_wrap (hw : 0 < w) (hh : 0 < h) (s : State w h) (x y rows : Nibble) :
    ∃ (clip wrap : Screen w h) (t t' : State w h),
      s.clipping.DrawsPlane x y rows clip t ∧ s.wrapping.DrawsPlane x y rows wrap t' ∧
      (∀ px py, clip.get px py = true → wrap.get px py = true) ∧
      (∀ px py, wrap.get px py = true → clip.get px py = false →
        ∃ column row, s.Reaches x y rows column row ∧ (w ≤ column ∨ h ≤ row) ∧
          column % w = px.val ∧ row % h = py.val) ∧
      (t.v flagRegister = 1 → t'.v flagRegister = 1) ∧
      ((∀ column row, s.Reaches x y rows column row → column < w ∧ row < h) →
        clip = wrap ∧ t' = t.wrapping) := by
  have hclip := s.clipping.drawsPlane hw hh x y rows
  have hwrap := s.wrapping.drawsPlane hw hh x y rows
  refine ⟨_, _, _, _, hclip, hwrap, s.plane_clipping_le x y rows,
    s.exists_reaches_of_not_clipping x y rows, ?_, ?_⟩
  · rw [hclip.flag_eq_one_iff, hwrap.flag_eq_one_iff]
    rintro ⟨px, py, hcovered, hlit⟩
    exact ⟨px, py, s.plane_clipping_le x y rows px py hcovered, hlit⟩
  · intro hinside
    have hnot := not_diverges_of_inside hinside s.wrapping.dialect
    have hsame : s.clipping.withDialect s.wrapping.dialect = s.wrapping := rfl
    have htargets := spriteTargets_withDialect hnot
    have hdraw := draw_withDialect hnot
    rw [hsame] at htargets hdraw
    exact ⟨congrArg Sprite.plane htargets.symm, hdraw⟩

/-- The glyph of zero across the corner of a screen that is smaller than it, where a lit pixel is
met either way; and four of its rows in the other corner, where no bit is off the screen. -/
theorem clip_part_of_wrap_of_corner : ∃ (s : State 5 4) (clip wrap : Screen 5 4) (t t' : State 5 4),
    0 < 5 ∧ 0 < 4 ∧
    (create 5 4 ⟨0, 0⟩ [] {} 16).map (fun s =>
      { (s.setV 0 3).setV 1 2 with screen := s.screen.set (4, 2) true }) = .ok s ∧
    s.clipping.DrawsPlane 0 1 5 clip t ∧ s.wrapping.DrawsPlane 0 1 5 wrap t' ∧
    clip.get 4 2 = true ∧ wrap.get 4 2 = true ∧ t.v flagRegister = 1 ∧ t'.v flagRegister = 1 ∧
    clip.get 0 2 = false ∧ wrap.get 0 2 = true ∧
    (∃ column row, s.Reaches 0 1 5 column row ∧ (5 ≤ column ∨ 4 ≤ row) ∧
      column % 5 = 0 ∧ row % 4 = 2) ∧
    ∃ (plane : Screen 5 4) (u : State 5 4), s.clipping.DrawsPlane 2 2 4 plane u ∧
      s.wrapping.DrawsPlane 2 2 4 plane u.wrapping := by
  have hvalues : ((create 5 4 ⟨0, 0⟩ [] {} 16).map (fun s =>
      { (s.setV 0 3).setV 1 2 with screen := s.screen.set (4, 2) true } :
        State 5 4 → State 5 4)).map (fun s =>
      ((Sprite.plane (s.clipping.spriteTargets 0 1 5)).get 4 2,
        (Sprite.plane (s.clipping.spriteTargets 0 1 5)).get 0 2,
        (Sprite.plane (s.wrapping.spriteTargets 0 1 5)).get 0 2, s.screen.get 4 2,
        (Sprite.bits s.memory (Address.ofWord s.index) 4).all fun b =>
          (s.v 2).toNat % 5 + b.1 < 5 && (s.v 2).toNat % 4 + b.2 < 4)) =
      .ok (true, false, true, true, true) := by
    decide +kernel
  cases hs : (create 5 4 ⟨0, 0⟩ [] {} 16).map (fun s =>
      { (s.setV 0 3).setV 1 2 with screen := s.screen.set (4, 2) true } :
        State 5 4 → State 5 4) with
  | error f =>
    rw [hs] at hvalues
    cases hvalues
  | ok s =>
    rw [hs] at hvalues
    simp only [Except.map, Except.ok.injEq, Prod.mk.injEq, List.all_eq_true, Sprite.mem_bits,
      Bool.and_eq_true, decide_eq_true_eq] at hvalues
    obtain ⟨hmet, hcut, hcarried, hlit, hinside⟩ := hvalues
    obtain ⟨clip, wrap, t, t', hclip, hwrap, hpart, hrest, hflag, -⟩ :=
      clip_part_of_wrap (show 0 < 5 by decide) (show 0 < 4 by decide) s 0 1 5
    obtain ⟨plane, plane', u, u', hplane, hplane', -, -, -, hequal⟩ :=
      clip_part_of_wrap (show 0 < 5 by decide) (show 0 < 4 by decide) s 2 2 4
    obtain ⟨rfl, rfl⟩ := hequal (by
      rintro column row ⟨b, hrow, hcolumn, hbit, rfl, rfl⟩
      exact hinside b ⟨hrow, hcolumn, hbit⟩)
    rw [← hclip.plane_eq] at hmet hcut
    rw [← hwrap.plane_eq] at hcarried
    have hhit : t.v flagRegister = 1 := hclip.flag_eq_one_iff.mpr ⟨4, 2, hmet, hlit⟩
    exact ⟨s, clip, wrap, t, t', by decide, by decide, rfl, hclip, hwrap, hmet, hpart 4 2 hmet,
      hhit, hflag hhit, hcut, hcarried, hrest 0 2 hcarried hcut, plane, u, hplane, hplane'⟩

end State

end ChipEight
