import ChipEight.Proofs.CheckedInstructions

/-!
# No access is out of bounds

A bit of a sprite is aimed at a column taken modulo the width, or held at the last one, and the same
holds of rows, so a screen that has pixels has one for it; a bit that is not to be seen adds nothing
there. With the other instructions, which need no pixel, this makes an instruction word, a step and
a run under the checks of `Checked` come to what they come to without checks.

* `Checked.aim_eq`, `Checked.plane_eq`: where the bits of a sprite go, seen or not.
* `Checked.families_eq`: the table of handlers against the table of instructions.
* `accesses_in_bounds`: words, steps and runs.
-/

namespace ChipEight

namespace Checked

variable {w h : Nat}

/-! ## Sprites -/

/-- The pixel at which a bit is aimed, around the edges or held at the last column and row. -/
def aimed (hw : 0 < w) (hh : 0 < h) (wrap : Bool) (left top : Nat) (cell : Nat × Nat) :
    Fin w × Fin h :=
  if wrap then (⟨(left + cell.1) % w, Nat.mod_lt _ hw⟩, ⟨(top + cell.2) % h, Nat.mod_lt _ hh⟩)
  else (⟨min (left + cell.1) (w - 1), by omega⟩, ⟨min (top + cell.2) (h - 1), by omega⟩)

/-- Whether a bit is set, belongs to the sprite and is not cut off. -/
def seen (s : State w h) (left top rows : Nat) (cell : Nat × Nat) : Bool :=
  Sprite.bit (s.memory.read (Fin.ofNat 4096 (s.index.toNat + cell.2))) cell.1 && cell.2 < rows &&
    (s.dialect.wrapSprites || left + cell.1 < w && top + cell.2 < h)

theorem bit_eq (b : Byte) (column : Nat) :
    (b.toNat >>> (7 - column) &&& 1 == 1) = Sprite.bit b column := by
  rw [Sprite.bit, Nat.testBit_eq_decide_div_mod_eq, Nat.and_one_is_mod, Nat.shiftRight_eq_div_pow]
  rfl

/-- All bits are aimed at pixels of the screen, whether they are seen or not. -/
theorem aim_eq (hw : 0 < w) (hh : 0 < h) (s : State w h) (left top rows : Nat)
    (cell : Nat × Nat) : aim s left top rows cell =
      .ok (aimed hw hh s.dialect.wrapSprites left top cell, seen s left top rows cell) := by
  unfold aim seen aimed
  rw [cellPlace_eq, readMemory_masked, ok_bind]
  dsimp only
  rw [bit_eq]
  cases s.dialect.wrapSprites with
  | true =>
    have hx : ((left : Int) + cell.1) % w = ((left + cell.1) % w : Nat) := by push_cast; rfl
    have hy : ((top : Int) + cell.2) % h = ((top + cell.2) % h : Nat) := by push_cast; rfl
    rw [if_pos rfl, if_pos rfl, remainder_of_pos _ (by omega), ok_bind, hx,
      index_of_lt _ (Nat.mod_lt _ hw), ok_bind, remainder_of_pos _ (by omega), ok_bind, hy,
      index_of_lt _ (Nat.mod_lt _ hh), ok_bind, Bool.true_or, Bool.and_true]
    rfl
  | false =>
    have hx : min ((left : Int) + cell.1) (w - 1) = (min (left + cell.1) (w - 1) : Nat) := by omega
    have hy : min ((top : Int) + cell.2) (h - 1) = (min (top + cell.2) (h - 1) : Nat) := by omega
    have hcolumn : (left : Int) + cell.1 < w ↔ left + cell.1 < w := by omega
    have hrow : (top : Int) + cell.2 < h ↔ top + cell.2 < h := by omega
    rw [if_neg Bool.false_ne_true, if_neg Bool.false_ne_true, hx,
      index_of_lt _ (show min (left + cell.1) (w - 1) < w by omega), ok_bind, hy,
      index_of_lt _ (show min (top + cell.2) (h - 1) < h by omega), ok_bind, Bool.false_or]
    simp only [hcolumn, hrow, Bool.and_assoc]
    rfl

theorem place_eq_some_iff (hw : 0 < w) (hh : 0 < h) {wrap : Bool} {left top : Nat}
    {cell : Nat × Nat} {p : Fin w × Fin h} :
    Sprite.place w h wrap left top cell = some p ↔
      (wrap || left + cell.1 < w && top + cell.2 < h) = true ∧
        aimed hw hh wrap left top cell = p := by
  unfold Sprite.place aimed
  cases wrap with
  | true =>
    have hx := Nat.mod_lt (left + cell.1) hw
    have hy := Nat.mod_lt (top + cell.2) hh
    simp [hx, hy]
  | false =>
    by_cases hx : left + cell.1 < w
    · by_cases hy : top + cell.2 < h
      · have hcolumn : min (left + cell.1) (w - 1) = left + cell.1 := by omega
        have hrow : min (top + cell.2) (h - 1) = top + cell.2 := by omega
        simp [hx, hy, hcolumn, hrow]
      · simp [hx, hy]
    · simp [hx]

theorem mem_cells {cell : Nat × Nat} : cell ∈ cells ↔ cell.1 < 8 ∧ cell.2 < 16 := by
  obtain ⟨column, row⟩ := cell
  simp [cells]

/-- The pixels that a sprite covers are those at which a bit that is seen is aimed. -/
theorem mem_targets_iff (hw : 0 < w) (hh : 0 < h) (s : State w h) (left top : Nat) (rows : Nibble)
    (p : Fin w × Fin h) :
    p ∈ Sprite.targets w h s.memory (Address.ofWord s.index) rows.val s.dialect.wrapSprites
        left top ↔
      ∃ cell ∈ cells, aimed hw hh s.dialect.wrapSprites left top cell = p ∧
        seen s left top rows.val cell = true := by
  simp only [Sprite.targets, List.mem_filterMap, Sprite.mem_bits, place_eq_some_iff hw hh,
    mem_cells, seen, Address.ofWord_add_ofNat, Bool.and_eq_true, decide_eq_true_eq]
  constructor
  · rintro ⟨cell, ⟨hrows, hcolumn, hbit⟩, hkept, haimed⟩
    exact ⟨cell, ⟨hcolumn, by omega⟩, haimed, ⟨hbit, hrows⟩, hkept⟩
  · rintro ⟨cell, ⟨hcolumn, -⟩, haimed, ⟨hbit, hrows⟩, hkept⟩
    exact ⟨cell, ⟨hrows, hcolumn, hbit⟩, hkept, haimed⟩

/-- Every pixel counts the bits that are aimed at it. -/
theorem get_foldl_count (aims : List ((Fin w × Fin h) × Bool)) (counts : Raster Nat w h)
    (x : Fin w) (y : Fin h) :
    (aims.foldl (fun counts a => counts.set a.1 (counts.get a.1.1 a.1.2 + a.2.toNat)) counts).get
        x y = counts.get x y + aims.countP fun a => a.1 = (x, y) ∧ a.2 = true := by
  induction aims generalizing counts with
  | nil => rfl
  | cons a aims ih =>
    obtain ⟨p, isSeen⟩ := a
    rw [List.foldl_cons, ih, Raster.get_set, List.countP_cons]
    by_cases hp : p = (x, y)
    · subst hp
      cases isSeen with
      | true =>
        simp
        omega
      | false => simp
    · simp [hp]

theorem plane_eq (hw : 0 < w) (hh : 0 < h) (s : State w h) (left top : Nat) (rows : Nibble) :
    plane s left top rows.val = .ok (Sprite.plane (Sprite.targets w h s.memory
      (Address.ofWord s.index) rows.val s.dialect.wrapSprites left top)) := by
  have haim : aim s left top rows.val = fun cell =>
      pure (aimed hw hh s.dialect.wrapSprites left top cell, seen s left top rows.val cell) :=
    funext (aim_eq hw hh s left top rows.val)
  unfold plane
  rw [haim, List.mapM_pure]
  refine congrArg Except.ok (Raster.ext_get fun x y => ?_)
  rw [Raster.get_map, get_foldl_count, Raster.get_fill, Nat.zero_add, Sprite.get_plane,
    decide_eq_decide, List.countP_pos_iff, mem_targets_iff hw hh]
  simp only [List.mem_map, decide_eq_true_eq, exists_exists_and_eq_and]

/-- That a sprite meets a lit pixel can be seen on its plane. -/
theorem any_points_plane (screen : Screen w h) (targets : List (Fin w × Fin h)) :
    (Raster.points.any fun p => screen.get p.1 p.2 && (Sprite.plane targets).get p.1 p.2) =
      targets.any fun p => screen.get p.1 p.2 := by
  rw [Bool.eq_iff_iff, List.any_eq_true, List.any_eq_true]
  simp only [Raster.mem_points, Sprite.get_plane, Bool.and_eq_true, decide_eq_true_eq, true_and,
    and_comm]

theorem draw_eq (hw : 0 < w) (hh : 0 < h) (s : State w h) (op : Opcode) :
    draw s op.fields = answer s op (some (.draw op.x op.y op.n)) := by
  have hreduce (b : Byte) (size : Nat) : (b.toNat : Int) % size = (b.toNat % size : Nat) := by
    push_cast
    rfl
  have hn : op.fields.n = op.n.val := rfl
  unfold draw
  rw [readRegister_x, ok_bind, remainder_of_pos _ (by omega), ok_bind, readRegister_y, ok_bind,
    remainder_of_pos _ (by omega), ok_bind, hreduce, hreduce, hn, plane_eq hw hh, ok_bind]
  dsimp only
  rw [any_points_plane, writeFlag_eq]
  rfl

/-! ## Words, steps and runs -/

/-- The handler in the table does what the instruction table asks for. -/
theorem families_eq (hw : 0 < w) (hh : 0 < h) (s : State w h) (op : Opcode) :
    families.get op.family s op.fields = answer s op op.instruction? := by
  have hget (k : Nibble) (hfamily : op.family.val = k.val) :
      (families.get op.family : Handler w h) = families.get k := by
    rw [Fin.ext hfamily]
  unfold Opcode.instruction?
  split
  case h_1 hfamily =>
    rw [hget 0 hfamily]
    exact system_eq s op
  case h_2 hfamily =>
    rw [hget 1 hfamily]
    exact jump_eq s op
  case h_3 hfamily =>
    rw [hget 2 hfamily]
    exact call_eq s op
  case h_4 hfamily =>
    rw [hget 3 hfamily]
    exact skipIf_eq (equalsByte_eq s op)
  case h_5 hfamily =>
    rw [hget 4 hfamily]
    exact skipIf_eq (negated_eq (equalsByte_eq s op))
  case h_6 hfamily =>
    rw [hget 5 hfamily]
    exact skipIfRound_eq (equalsRegister_eq s op) rfl
  case h_7 hfamily =>
    rw [hget 6 hfamily]
    exact load_eq s op
  case h_8 hfamily =>
    rw [hget 7 hfamily]
    exact increase_eq s op
  case h_9 hfamily =>
    rw [hget 8 hfamily]
    exact alu_eq s op
  case h_10 hfamily =>
    rw [hget 9 hfamily]
    exact skipIfRound_eq (negated_eq (equalsRegister_eq s op)) rfl
  case h_11 hfamily =>
    rw [hget 10 hfamily]
    exact rfl
  case h_12 hfamily =>
    rw [hget 11 hfamily]
    exact jumpOffset_eq s op
  case h_13 hfamily =>
    rw [hget 12 hfamily]
    exact random_eq s op
  case h_14 hfamily =>
    rw [hget 13 hfamily]
    exact draw_eq hw hh s op
  case h_15 hfamily =>
    rw [hget 14 hfamily]
    exact keys_eq s op
  case h_16 =>
    have hfamily : op.family.val = 15 := by
      simp only [imp_false] at *
      have := op.family.isLt
      omega
    rw [hget 15 hfamily]
    exact devices_eq s op

theorem execute_eq (hw : 0 < w) (hh : 0 < h) (s : State w h) (word : Int) :
    execute s word = (s.execute (.ofInt word)).mapError .fault := by
  have hfamily : index .families 16 (Opcode.ofInt word).fields.family =
      .ok (Opcode.ofInt word).family := index_val .families (Opcode.ofInt word).family
  unfold execute
  rw [Fields.ofWord_eq]
  dsimp only
  rw [hfamily, ok_bind, families_eq hw hh, answer_instruction?]

theorem readMemory_pc (s : State w h) : readMemory s.memory (s.pc.toNat &&& 0xFFF : Nat) =
    .ok (s.memory.read (Address.ofWord s.pc)) := readMemory_masked s.memory s.pc.toNat

theorem readMemory_pc_succ (s : State w h) :
    readMemory s.memory (((s.pc.toNat &&& 0xFFF) + 1) &&& 0xFFF : Nat) =
      .ok (s.memory.read (Address.ofWord s.pc + 1)) := by
  have haddress : Fin.ofNat 4096 ((s.pc.toNat &&& 0xFFF) + 1) = Address.ofWord s.pc + 1 := by
    change _ = Address.ofWord s.pc + Fin.ofNat 4096 1
    rw [Nat.and_two_pow_sub_one_eq_mod _ 12, Address.ofWord_add_ofNat]
    exact Fin.ext (Nat.mod_add_mod s.pc.toNat 4096 1)
  rw [readMemory_masked, haddress]

theorem advance_eq (s : State w h) :
    { s with pc := UInt16.ofNat ((s.pc.toNat + 2) &&& 0xFFF) } = s.advance := by
  have hpc : UInt16.ofNat ((s.pc.toNat + 2) &&& 0xFFF) = (Address.ofWord s.pc + 2).toWord := by
    rw [ofNat_masked, ← Address.ofWord_add_ofNat]
    rfl
  rw [hpc]
  rfl

theorem nextOpcode_eq (s : State w h) :
    Opcode.ofInt ((s.memory.read (Address.ofWord s.pc)).toNat <<< 8 |||
      (s.memory.read (Address.ofWord s.pc + 1)).toNat : Nat) = s.nextOpcode := by
  unfold State.nextOpcode Memory.readWord
  generalize s.memory.read (Address.ofWord s.pc) = high
  generalize s.memory.read (Address.ofWord s.pc + 1) = low
  have hor : high.toNat <<< 8 ||| low.toNat = 256 * high.toNat + low.toNat := by
    rw [← Nat.shiftLeft_add_eq_or_of_lt low.toNat_lt, Nat.shiftLeft_eq, Nat.mul_comm]
  have hword : (Opcode.ofInt (256 * high.toNat + low.toNat : Nat)).word =
      UInt16.ofNat (256 * high.toNat + low.toNat) := by
    apply UInt16.toNat_inj.mp
    rw [Opcode.toNat_word_ofInt, UInt16.toNat_ofNat']
    omega
  rw [hor]
  exact congrArg Opcode.mk hword

theorem step_eq (hw : 0 < w) (hh : 0 < h) (s : State w h) :
    step s = s.step.mapError .fault := by
  unfold step
  dsimp only
  rw [readMemory_pc, ok_bind, readMemory_pc_succ, ok_bind, advance_eq, execute_eq hw hh,
    nextOpcode_eq]
  unfold State.step State.fetch
  dsimp only
  cases s.advance.execute s.nextOpcode with
  | error cause => rfl
  | ok t => rfl

theorem act_eq (hw : 0 < w) (hh : 0 < h) (s : State w h) (action : Action) :
    act s action = (s.act action).mapError .failure := by
  cases action with
  | step =>
    unfold act State.act
    rw [step_eq hw hh]
    cases s.step with
    | error cause => rfl
    | ok r => rfl
  | execute op =>
    rw [act, State.act, execute_eq hw hh, Opcode.ofInt_word]
    cases s.execute op with
    | error cause => rfl
    | ok t => rfl
  | tick count =>
    rw [act, State.act]
    cases s.tick count with
    | error cause => rfl
    | ok t => rfl
  | snapshot held pressed => rfl

theorem run_eq (hw : 0 < w) (hh : 0 < h) (s : State w h) (actions : List Action) :
    run s actions = (s.run actions).mapError .failure := by
  induction actions generalizing s with
  | nil => rfl
  | cons action actions ih =>
    rw [run, State.run, act_eq hw hh]
    cases s.act action with
    | error cause => rfl
    | ok t => exact ih t

end Checked

/-- No access of an instruction is out of bounds on a screen with at least one pixel. Whatever the
state and the word, an execution in which every index and every divisor is checked first comes to
the same as one without checks, so nothing but a fault of the program stops it; and so it is for a
step and for every run, from a start or from any other state, where a tick can fail as well. -/
theorem accesses_in_bounds {w h : Nat} (hw : 0 < w) (hh : 0 < h) :
    (∀ (s : State w h) (word : Int),
      Checked.execute s word = (s.execute (.ofInt word)).mapError .fault) ∧
    (∀ s : State w h, Checked.step s = s.step.mapError .fault) ∧
    ∀ (s : State w h) (actions : List Action),
      Checked.run s actions = (s.run actions).mapError .failure :=
  ⟨Checked.execute_eq hw hh, Checked.step_eq hw hh, Checked.run_eq hw hh⟩

/-- On a screen of one pixel, every bit of a sprite but its first is cut off and still aimed at that
pixel; the call that follows finds no room on a stack without slots. -/
theorem accesses_in_bounds_of_pixel : ∃ s₀ : State 1 1, 0 < 1 ∧
    State.create 1 1 ⟨0, 0⟩ [0xD0, 0x12, 0x22, 0x00] { wrapSprites := false } 0 = .ok s₀ ∧
    Checked.run s₀ [.step, .step] = (s₀.run [.step, .step]).mapError .failure ∧
    s₀.run [.step, .step] = .error (.fault (.stackOverflow 0x202 0)) := by
  have hfault : (do
      let s₀ ← State.create 1 1 ⟨0, 0⟩ [0xD0, 0x12, 0x22, 0x00] { wrapSprites := false } 0
      return decide (s₀.run [.step, .step] = .error (.fault (.stackOverflow 0x202 0)))) =
        Except.ok true := by
    decide +kernel
  obtain ⟨s₀, hcreate, hfault⟩ := bind_eq_ok_iff.mp hfault
  have hrun := of_decide_eq_true (Except.ok.inj hfault)
  have hchecked := (accesses_in_bounds Nat.one_pos Nat.one_pos).2.2 s₀ [.step, .step]
  exact ⟨s₀, Nat.one_pos, hcreate, hchecked, hrun⟩

/-- Without columns, the first remainder that a sprite asks for has no divisor. -/
example : (do
    let s ← State.create 0 0 ⟨0, 0⟩ [0xD0, 0x12] {} 16
    return decide (Checked.step s = .error .zeroDivisor)) = Except.ok true := by
  decide +kernel

end ChipEight
