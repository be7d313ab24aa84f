import Mathlib.Data.List.Nodup
import Mathlib.Data.Nat.ModEq
import ChipEight.Proofs.WordPatterns
import ChipEight.Proofs.Run

/-!
# Drawing pixel by pixel

A sprite can be drawn one bit after the other: each bit that is set flips the pixel it falls on, and
the flag remembers whether such a pixel was lit before its turn. As long as no two bits fall on one
pixel, nothing that is drawn gets in the way of what is drawn later, and this comes to the same as
flipping the pixels of the whole plane at once with the flag read off the screen before the drawing.

* `Drawing.foldl_flip`: pixels flipped in turn, none of them twice.
* `State.nodup_spriteTargets`: where no two bits of a sprite meet.
* `State.execute_draw_bit_by_bit`: the instruction `DXYN`.
-/

namespace ChipEight

/-- A picture in the making: the screen by now, and whether a lit pixel has been met. -/
structure Drawing (w h : Nat) where
  screen : Screen w h
  hit : Bool

namespace Drawing

variable {w h : Nat}

/-- Flips a pixel, and notes it if it was lit. -/
def flip (d : Drawing w h) (p : Fin w × Fin h) : Drawing w h :=
  ⟨d.screen.set p !d.screen.get p.1 p.2, d.hit || d.screen.get p.1 p.2⟩

/-- Flips the pixel in a column and a row, if they are on the screen. -/
def flipAt (d : Drawing w h) (column row : Nat) : Drawing w h :=
  if hcolumn : column < w then
    if hrow : row < h then d.flip (⟨column, hcolumn⟩, ⟨row, hrow⟩) else d
  else d

theorem flipAt_eq (d : Drawing w h) (column row : Nat) :
    d.flipAt column row =
      (if hcolumn : column < w then
        if hrow : row < h then some ((⟨column, hcolumn⟩, ⟨row, hrow⟩) : Fin w × Fin h) else none
      else none).elim d d.flip := by
  unfold flipAt
  split
  · split <;> rfl
  · rfl

theorem get_flip (d : Drawing w h) (p : Fin w × Fin h) (x : Fin w) (y : Fin h) :
    (d.flip p).screen.get x y = (d.screen.get x y ^^ decide (p = (x, y))) := by
  unfold flip
  rw [Raster.get_set]
  split
  case isTrue hp =>
    subst hp
    simp
  case isFalse hp => simp [hp]

/-- Pixels that are flipped in turn, none of them twice, do not get in each other's way: the screen
differs in these pixels, and the flag tells whether one of them was lit at the outset. -/
theorem foldl_flip {ps : List (Fin w × Fin h)} (hps : ps.Nodup) (d : Drawing w h) :
    ps.foldl flip d =
      ⟨d.screen.xor (Sprite.plane ps), d.hit || ps.any fun p => d.screen.get p.1 p.2⟩ := by
  induction ps generalizing d with
  | nil =>
    have hscreen : d.screen.xor (Sprite.plane []) = d.screen := by
      refine Raster.ext_get fun x y => ?_
      simp
    rw [hscreen, List.any_nil, Bool.or_false]
    rfl
  | cons p ps ih =>
    obtain ⟨hp, hrest⟩ := List.nodup_cons.mp hps
    have hscreen : (d.flip p).screen.xor (Sprite.plane ps) =
        d.screen.xor (Sprite.plane (p :: ps)) := by
      refine Raster.ext_get fun x y => ?_
      rw [Raster.get_xor, Raster.get_xor, get_flip, Sprite.get_plane, Sprite.get_plane]
      by_cases hxy : p = (x, y)
      · have hnot : (x, y) ∉ ps := hxy ▸ hp
        simp [hxy, hnot]
      · simp [hxy, eq_comm]
    -- The pixel flipped first is none of the others, so they are as lit as they were before.
    have hhit : (ps.any fun q => (d.flip p).screen.get q.1 q.2) =
        ps.any fun q => d.screen.get q.1 q.2 := by
      rw [Bool.eq_iff_iff, List.any_eq_true, List.any_eq_true]
      refine exists_congr fun q => and_congr_right fun hq => ?_
      have hne : p ≠ q := fun heq => hp (heq ▸ hq)
      simp [get_flip, hne]
    rw [List.foldl_cons, ih hrest, hscreen, hhit, List.any_cons, ← Bool.or_assoc]
    rfl

end Drawing

namespace State

variable {w h : Nat}

/-! ## The bits in turn -/

/-- The turn of one bit of a sprite whose top left corner is where `VX` and `VY` say. -/
def drawBit (s : State w h) (x y : Nibble) (d : Drawing w h) (row column : Nat) : Drawing w h :=
  let byte := s.memory.read (Fin.ofNat 4096 (s.index.toNat + row))
  if byte.toNat.testBit (7 - column) then
    let left := (s.v x).toNat % w + column
    let top := (s.v y).toNat % h + row
    let wrap := s.dialect.wrapSprites
    d.flipAt (if wrap then left % w else left) (if wrap then top % h else top)
  else d

/-- All bits of a sprite, row by row and each row from the left. -/
def drawBits (s : State w h) (x y rows : Nibble) : Drawing w h :=
  (List.range rows.val).foldl
    (fun d row => (List.range 8).foldl (fun d column => s.drawBit x y d row column) d)
    ⟨s.screen, false⟩

/-- A bit that is set flips the pixel it falls on, if there is one. -/
theorem drawBit_of_set {s : State w h} {row column : Nat}
    (hset : Sprite.bit (s.memory.read (Address.ofWord s.index + Fin.ofNat 4096 row)) column = true)
    (x y : Nibble) (d : Drawing w h) :
    s.drawBit x y d row column =
      (Sprite.place w h s.dialect.wrapSprites ((s.v x).toNat % w) ((s.v y).toNat % h)
        (column, row)).elim d d.flip := by
  rw [Address.ofWord_add_ofNat, Sprite.bit] at hset
  unfold drawBit Sprite.place
  dsimp only
  rw [if_pos hset]
  exact d.flipAt_eq _ _

theorem drawBit_of_clear {s : State w h} {row column : Nat}
    (hclear :
      ¬ Sprite.bit (s.memory.read (Address.ofWord s.index + Fin.ofNat 4096 row)) column = true)
    (x y : Nibble) (d : Drawing w h) : s.drawBit x y d row column = d := by
  rw [Address.ofWord_add_ofNat, Sprite.bit] at hclear
  unfold drawBit
  dsimp only
  rw [if_neg hclear]

theorem drawBits_eq (s : State w h) (x y rows : Nibble) :
    s.drawBits x y rows = (s.spriteTargets x y rows).foldl Drawing.flip ⟨s.screen, false⟩ := by
  unfold drawBits spriteTargets Sprite.targets Sprite.bits
  rw [List.foldl_filterMap, List.foldl_flatMap]
  refine List.foldl_ext _ _ _ fun d row _ => ?_
  rw [List.foldl_map, List.foldl_filter]
  refine List.foldl_ext _ _ _ fun d column _ => ?_
  split
  case isTrue hset =>
    rw [drawBit_of_set hset]
    cases Sprite.place w h s.dialect.wrapSprites ((s.v x).toNat % w) ((s.v y).toNat % h)
      (column, row) <;> rfl
  case isFalse hclear => exact drawBit_of_clear hclear x y d

/-! ## No two bits on one pixel -/

theorem nodup_bits (m : Memory) (base : Address) (rows : Nat) :
    (Sprite.bits m base rows).Nodup := by
  unfold Sprite.bits
  rw [List.nodup_flatMap]
  constructor
  · intro row _
    refine (List.nodup_range.filter _).map ?_
    intro c c' hc
    exact congrArg Prod.fst hc
  · refine List.nodup_range.imp ?_
    intro row row' hne b hb hb'
    obtain ⟨c, -, rfl⟩ := List.mem_map.mp hb
    obtain ⟨c', -, heq⟩ := List.mem_map.mp hb'
    exact hne (congrArg Prod.snd heq).symm

/-- Two places at different distances, less than the size, from one place stay apart when they are
reduced. -/
theorem eq_of_add_mod_eq {size start a b : Nat} (ha : a < size) (hb : b < size)
    (heq : (start + a) % size = (start + b) % size) : a = b :=
  (Nat.ModEq.add_left_cancel' start heq).eq_of_lt_of_lt ha hb

theorem eq_of_place_eq {wrap : Bool} {left top : Nat} {b b' : Nat × Nat} {p : Fin w × Fin h}
    (hroom : wrap = true → b.1 < w ∧ b'.1 < w ∧ b.2 < h ∧ b'.2 < h)
    (hb : Sprite.place w h wrap left top b = some p)
    (hb' : Sprite.place w h wrap left top b' = some p) : b = b' := by
  unfold Sprite.place at hb hb'
  simp only [Option.dite_none_right_eq_some, Option.some.injEq] at hb hb'
  obtain ⟨hx, hy, rfl⟩ := hb
  obtain ⟨hx', hy', hp⟩ := hb'
  obtain ⟨hcolumn, hrow⟩ := Prod.mk.inj hp
  have hcolumn := Fin.mk.inj hcolumn
  have hrow := Fin.mk.inj hrow
  cases wrap with
  | true =>
    obtain ⟨hc, hc', hr, hr'⟩ := hroom rfl
    exact Prod.ext (eq_of_add_mod_eq hc hc' hcolumn.symm) (eq_of_add_mod_eq hr hr' hrow.symm)
  | false =>
    exact Prod.ext (Nat.add_left_cancel hcolumn).symm (Nat.add_left_cancel hrow).symm

/-- No two bits of a sprite fall on one pixel when sprites are cut at the edges, nor when the screen
has room for a whole sprite. -/
theorem nodup_spriteTargets {s : State w h}
    (hroom : s.dialect.wrapSprites = true → 8 ≤ w ∧ 15 ≤ h) (x y rows : Nibble) :
    (s.spriteTargets x y rows).Nodup := by
  unfold spriteTargets Sprite.targets
  refine List.pairwise_filterMap.mpr ?_
  refine (nodup_bits s.memory (Address.ofWord s.index) rows.val).imp_of_mem ?_
  intro b b' hmem hmem' hne p hp p' hp' heq
  subst heq
  refine hne (eq_of_place_eq ?_ hp hp')
  intro hwrap
  obtain ⟨hrow, hcolumn, -⟩ := Sprite.mem_bits.mp hmem
  obtain ⟨hrow', hcolumn', -⟩ := Sprite.mem_bits.mp hmem'
  obtain ⟨hwidth, hheight⟩ := hroom hwrap
  have := rows.lt
  omega

/-! ## The instruction -/

theorem draw_eq_drawBits {s : State w h}
    (hroom : s.dialect.wrapSprites = true → 8 ≤ w ∧ 15 ≤ h) (x y rows : Nibble) :
    s.draw x y rows =
      { s with screen := (s.drawBits x y rows).screen }.setFlag (s.drawBits x y rows).hit := by
  rw [drawBits_eq, Drawing.foldl_flip (nodup_spriteTargets hroom x y rows), Bool.false_or]
  rfl

/-- Whatever memory, registers and screen hold, and however large the screen is, `DXYN` leaves the
screen that the bits of the sprite leave when they are drawn one after the other, and in the flag
register whether one of them met a lit pixel, and changes nothing else. The corner is where `VX` and
`VY` say before the flag is written. Where sprites go on at the opposite edge, the screen has to
have room for one, so that none meets itself. -/
theorem execute_draw_bit_by_bit (s : State w h)
    (hroom : s.dialect.wrapSprites = true → 8 ≤ w ∧ 15 ≤ h) (x y rows : Nibble) :
    s.execute (.ofInt (0xD000 + 0x100 * x.val + 0x10 * y.val + rows.val : Nat)) =
      .ok { s with
        screen := (s.drawBits x y rows).screen
        registers := s.registers.set 15 (if (s.drawBits x y rows).hit then 1 else 0) } := by
  have hop : (Opcode.ofInt (0xD000 + 0x100 * x.val + 0x10 * y.val + rows.val : Nat)).instruction? =
      some (.draw x y rows) := by
    refine Opcode.instruction?_eq_some_iff.mpr ?_
    have := x.lt
    have := y.lt
    have := rows.lt
    rw [Opcode.toNat_word_ofInt, Instruction.word, Instruction.family, Instruction.operands]
    omega
  refine execute_eq_ok_iff.mpr ⟨_, hop, ?_⟩
  rw [perform, draw_eq_drawBits hroom]
  rfl

/-- The glyph of zero across the lower right corner of the smallest screen that has room for every
sprite; one of its pixels on the opposite side was lit. Its column stood in the flag register. -/
theorem execute_draw_bit_by_bit_of_wrap : ∃ s t : State 8 15,
    (create 8 15 ⟨0, 0⟩ [] {} 16).map (fun s =>
      { (s.setV 15 14).setV 3 28 with screen := s.screen.set (1, 0) true }) = .ok s ∧
    s.dialect.wrapSprites = true ∧
    s.execute (.ofInt 0xDF35) = .ok t ∧
    t = { s with
      screen := (s.drawBits 15 3 5).screen
      registers := s.registers.set 15 (if (s.drawBits 15 3 5).hit then 1 else 0) } ∧
    t.v 15 = 1 ∧ t.screen.get 6 13 = true ∧ t.screen.get 1 0 = false := by
  have hpixels : ((create 8 15 ⟨0, 0⟩ [] {} 16).map (fun s =>
      { (s.setV 15 14).setV 3 28 with screen := s.screen.set (1, 0) true } :
        State 8 15 → State 8 15)).map
      (fun s => (s.dialect.wrapSprites, (s.drawBits 15 3 5).hit,
        (s.drawBits 15 3 5).screen.get 6 13, (s.drawBits 15 3 5).screen.get 1 0)) =
      .ok (true, true, true, false) := by
    decide +kernel
  cases hs : (create 8 15 ⟨0, 0⟩ [] {} 16).map (fun s =>
      { (s.setV 15 14).setV 3 28 with screen := s.screen.set (1, 0) true } :
        State 8 15 → State 8 15) with
  | error f =>
    rw [hs] at hpixels
    cases hpixels
  | ok s =>
    rw [hs] at hpixels
    simp only [Except.map, Except.ok.injEq, Prod.mk.injEq] at hpixels
    obtain ⟨hwrap, hhit, hcorner, hmet⟩ := hpixels
    have hexecute :=
      execute_draw_bit_by_bit s (fun _ => ⟨Nat.le_refl 8, Nat.le_refl 15⟩) 15 3 5
    refine ⟨s, _, rfl, hwrap, hexecute, rfl, ?_, hcorner, hmet⟩
    rw [hhit]
    exact Vector.getElem_set_self _

end State

end ChipEight
