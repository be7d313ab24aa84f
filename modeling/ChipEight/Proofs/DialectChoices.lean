import ChipEight.Proofs.Footprint

/-!
# What the dialect decides

Three choices of a dialect are open to a program, and each of them matters to two instructions or
one: the operand of the shifts `8XY6` and `8XYE`, the edge of the screen in `DXYN`, and the index
register after the transfers `FX55` and `FX65`. `Dialect.disputed` lists the patterns of the
instructions on which two dialects disagree, and `Diverges` says when an instruction really ends
differently under another dialect: a shift needs two different operands, and a sprite a bit that
passes an edge.

* `perform_withDialect`: an instruction that does not diverge does the same under both dialects.
* `execute_withDialect`: the same fault for every word, or two states that differ only where the
  instruction is disputed.
* `run_withDialect`: two runs are the same as long as none of their instructions diverges.
* `differ_only_where_disputed`: both for words and for runs, told by the patterns.
-/

namespace ChipEight

/-- The patterns of the instructions on which two dialects disagree. -/
def Dialect.disputed (d d' : Dialect) : List String :=
  (if d.legacyShift = d'.legacyShift then [] else ["8XY6", "8XYE"]) ++
    (if d.wrapSprites = d'.wrapSprites then [] else ["DXYN"]) ++
      if d.incrementIndex = d'.incrementIndex then [] else ["FX55", "FX65"]

example : Dialect.disputed {} { wrapSprites := false } = ["DXYN"] := by decide

theorem AluOp.pattern_of_isShift {f : AluOp} (hf : f.isShift = true) :
    f.pattern = "8XY6" ∨ f.pattern = "8XYE" := by
  cases f with
  | shiftRight => exact Or.inl rfl
  | shiftLeft => exact Or.inr rfl
  | _ => cases hf

/-- The two shifts are the only operations that ask the dialect, and on equal operands they too do
the same under every dialect. -/
theorem AluOp.evaluate_eq (f : AluOp) {legacy legacy' : Bool} {vx vy : Byte}
    (h : f.isShift = true → legacy ≠ legacy' → vx = vy) :
    f.evaluate legacy vx vy = f.evaluate legacy' vx vy := by
  unfold evaluate
  by_cases hshift : f.isShift = true
  · by_cases hlegacy : legacy = legacy'
    · rw [hlegacy]
    · rw [h hshift hlegacy, ite_self, ite_self]
  · simp [hshift]

/-- A bit that passes no edge covers the same pixel whether or not sprites go on at the opposite
edge. -/
theorem Sprite.place_of_inside {w h left top : Nat} {b : Nat × Nat} (wrap : Bool)
    (hx : left + b.1 < w) (hy : top + b.2 < h) :
    place w h wrap left top b = some (⟨left + b.1, hx⟩, ⟨top + b.2, hy⟩) := by
  cases wrap <;> simp [place, Nat.mod_eq_of_lt, hx, hy]

namespace State

variable {w h : Nat}

def withDialect (s : State w h) (d : Dialect) : State w h := { s with dialect := d }

/-- A bit of the sprite that is set passes the right or the bottom edge of the screen. -/
def Overhangs (s : State w h) (x y rows : Nibble) : Prop :=
  ∃ row column, row < rows.val ∧ column < 8 ∧
    Sprite.bit (s.memory.read (Address.ofWord s.index + Fin.ofNat 4096 row)) column = true ∧
    (w ≤ (s.v x).toNat % w + column ∨ h ≤ (s.v y).toNat % h + row)

/-- The instruction, carried out in this state, may end differently under the dialect `d`. -/
inductive Diverges (s : State w h) (d : Dialect) : Instruction → Prop
  | shift {f : AluOp} {x y : Nibble} (hf : f.isShift = true)
      (hd : s.dialect.legacyShift ≠ d.legacyShift) (hv : s.v x ≠ s.v y) :
      Diverges s d (.alu f x y)
  | sprite {x y rows : Nibble} (hd : s.dialect.wrapSprites ≠ d.wrapSprites)
      (hover : s.Overhangs x y rows) : Diverges s d (.draw x y rows)
  | store {x : Nibble} (hd : s.dialect.incrementIndex ≠ d.incrementIndex) :
      Diverges s d (.storeRegisters x)
  | load {x : Nibble} (hd : s.dialect.incrementIndex ≠ d.incrementIndex) :
      Diverges s d (.loadRegisters x)

/-- Instructions that come out differently are among the disputed ones. -/
theorem Diverges.pattern_mem {s : State w h} {d : Dialect} {i : Instruction}
    (hdiverges : Diverges s d i) : i.pattern ∈ s.dialect.disputed d := by
  unfold Dialect.disputed
  cases hdiverges with
  | shift hf hd =>
    rw [if_neg hd]
    rcases AluOp.pattern_of_isShift hf with hpattern | hpattern <;>
      simp [Instruction.pattern, hpattern]
  | sprite hd => simp [Instruction.pattern, hd]
  | store hd | load hd => simp [Instruction.pattern, hd]

/-- A difference of dialects is never about a fault. -/
theorem Diverges.perform_eq_ok {s : State w h} {d : Dialect} {i : Instruction}
    (hdiverges : Diverges s d i) : ∃ t, s.perform i = .ok t := by
  cases hdiverges <;> exact ⟨_, rfl⟩

/-! ## Instructions that do not diverge -/

section

variable {s : State w h} {d : Dialect}

theorem spriteTargets_withDialect {x y rows : Nibble} (hnot : ¬ Diverges s d (.draw x y rows)) :
    (s.withDialect d).spriteTargets x y rows = s.spriteTargets x y rows := by
  by_cases hd : s.dialect.wrapSprites = d.wrapSprites
  · unfold spriteTargets
    rw [hd]
    rfl
  · refine List.filterMap_congr fun b hb => ?_
    obtain ⟨hrow, hcolumn, hbit⟩ := Sprite.mem_bits.mp hb
    have hinside : ¬ (w ≤ (s.v x).toNat % w + b.1 ∨ h ≤ (s.v y).toNat % h + b.2) :=
      fun hout => hnot (.sprite hd ⟨b.2, b.1, hrow, hcolumn, hbit, hout⟩)
    rw [not_or, Nat.not_le, Nat.not_le] at hinside
    exact (Sprite.place_of_inside _ hinside.1 hinside.2).trans
      (Sprite.place_of_inside _ hinside.1 hinside.2).symm

theorem draw_withDialect {x y rows : Nibble} (hnot : ¬ Diverges s d (.draw x y rows)) :
    (s.withDialect d).draw x y rows = (s.draw x y rows).withDialect d := by
  unfold draw
  rw [spriteTargets_withDialect hnot]
  rfl

theorem alu_withDialect {f : AluOp} {x y : Nibble} (hnot : ¬ Diverges s d (.alu f x y)) :
    (s.withDialect d).alu f x y = (s.alu f x y).withDialect d := by
  have heq : f.evaluate (s.withDialect d).dialect.legacyShift ((s.withDialect d).v x)
      ((s.withDialect d).v y) = f.evaluate s.dialect.legacyShift (s.v x) (s.v y) := by
    refine f.evaluate_eq fun hf hd => ?_
    by_contra hv
    exact hnot (.shift hf (Ne.symm hd) hv)
  cases hflag : (f.evaluate s.dialect.legacyShift (s.v x) (s.v y)).2 with
  | none =>
    rw [alu_of_none hflag, alu_of_none (heq ▸ hflag), heq]
    rfl
  | some flag =>
    rw [alu_of_some hflag, alu_of_some (heq ▸ hflag), heq]
    rfl

theorem indexAfterTransfer_withDialect {x : Nibble}
    (hd : s.dialect.incrementIndex = d.incrementIndex) :
    (s.withDialect d).indexAfterTransfer x = s.indexAfterTransfer x := by
  unfold indexAfterTransfer
  rw [hd]
  rfl

/-- An instruction that does not diverge does the same under both dialects. -/
theorem perform_withDialect {i : Instruction} (hnot : ¬ Diverges s d i) :
    (s.withDialect d).perform i = (s.perform i).map (·.withDialect d) := by
  cases i with
  | alu f x y => exact congrArg Except.ok (alu_withDialect hnot)
  | draw x y rows => exact congrArg Except.ok (draw_withDialect hnot)
  | storeRegisters x =>
    have hd : s.dialect.incrementIndex = d.incrementIndex := by
      by_contra hd
      exact hnot (.store hd)
    simp only [perform, storeRegisters, indexAfterTransfer_withDialect hd]
    rfl
  | loadRegisters x =>
    have hd : s.dialect.incrementIndex = d.incrementIndex := by
      by_contra hd
      exact hnot (.load hd)
    simp only [perform, loadRegisters, indexAfterTransfer_withDialect hd]
    rfl
  | call target =>
    have hpush : (s.withDialect d).stack.push (s.withDialect d).pc.toNat
        (s.withDialect d).origin.toNat = s.stack.push s.pc.toNat s.origin.toNat := rfl
    simp only [perform, call, hpush]
    cases s.stack.push s.pc.toNat s.origin.toNat with
    | error cause => rfl
    | ok stack => rfl
  | ret =>
    have hpop : (s.withDialect d).stack.pop (s.withDialect d).origin.toNat =
        s.stack.pop s.origin.toNat := rfl
    simp only [perform, ret, hpop]
    cases s.stack.pop s.origin.toNat with
    | error cause => rfl
    | ok popped => rfl
  | skipIfEqual | skipIfUnequal | skipIfSame | skipIfDifferent | skipIfHeld | skipIfReleased =>
    simp only [perform, skipIf_eq]
    rfl
  | awaitKey x =>
    refine congrArg Except.ok ?_
    have hpressed : (s.withDialect d).pressed = s.pressed := rfl
    unfold awaitKey
    rw [hpressed]
    split <;> rfl
  | _ => rfl

/-! ## Words -/

/-- The word is a shift whose operands differ, and the dialects disagree on shifts. -/
def ShiftDisputed (s : State w h) (d : Dialect) (op : Opcode) : Prop :=
  s.dialect.legacyShift ≠ d.legacyShift ∧
    (Fits op.word.toNat "8XY6" ∨ Fits op.word.toNat "8XYE") ∧ s.v op.x ≠ s.v op.y

/-- The word draws a sprite that passes an edge, and the dialects disagree on edges. -/
def SpriteDisputed (s : State w h) (d : Dialect) (op : Opcode) : Prop :=
  s.dialect.wrapSprites ≠ d.wrapSprites ∧ Fits op.word.toNat "DXYN" ∧
    s.Overhangs op.x op.y op.n

/-- The word is a transfer, and the dialects disagree on transfers. -/
def TransferDisputed (s : State w h) (d : Dialect) (op : Opcode) : Prop :=
  s.dialect.incrementIndex ≠ d.incrementIndex ∧
    (Fits op.word.toNat "FX55" ∨ Fits op.word.toNat "FX65")

/-- Two outcomes of one word, the second under the dialect `d`, differ in the dialect and in what
is disputed of the word. -/
structure DiffersAsDisputed (s : State w h) (d : Dialect) (op : Opcode) (t t' : State w h) :
    Prop where
  rest : t' = { t with
    dialect := d, registers := t'.registers, screen := t'.screen, index := t'.index }
  registers : ∀ j, t'.v j ≠ t.v j →
    s.ShiftDisputed d op ∧ (j = op.x ∨ j = flagRegister) ∨ s.SpriteDisputed d op ∧ j = flagRegister
  screen : t'.screen ≠ t.screen → s.SpriteDisputed d op
  index : t'.index ≠ t.index → s.TransferDisputed d op

/-- States that are the same but for the dialect do not differ otherwise. -/
theorem differsAsDisputed_withDialect {op : Opcode} (t : State w h) :
    DiffersAsDisputed s d op t (t.withDialect d) where
  rest := rfl
  registers _ hne := (hne rfl).elim
  screen hne := (hne rfl).elim
  index hne := (hne rfl).elim

theorem v_alu_of_ne (s : State w h) {f : AluOp} {x y j : Nibble} (hx : j ≠ x)
    (hflag : j ≠ flagRegister) : (s.alu f x y).v j = s.v j := by
  by_contra hne
  cases hresult : (f.evaluate s.dialect.legacyShift (s.v x) (s.v y)).2 with
  | none =>
    rw [alu_of_none hresult] at hne
    exact hx (eq_of_setV_ne hne)
  | some flag =>
    rw [alu_of_some hresult] at hne
    exact (eq_of_setFlag_setV_ne hne).elim hx hflag

theorem v_draw_of_ne (s : State w h) {x y rows j : Nibble} (hflag : j ≠ flagRegister) :
    (s.draw x y rows).v j = s.v j := by
  by_contra hne
  exact hflag (eq_of_setV_ne (s := { s with screen := _ }) hne)

theorem alu_withDialect_eq (s : State w h) (d : Dialect) (f : AluOp) (x y : Nibble) :
    (s.withDialect d).alu f x y = { s.alu f x y with
      dialect := d, registers := ((s.withDialect d).alu f x y).registers } := by
  rw [(s.withDialect d).alu_eq, s.alu_eq]
  rfl

theorem draw_withDialect_eq (s : State w h) (d : Dialect) (x y rows : Nibble) :
    (s.withDialect d).draw x y rows = { s.draw x y rows with
      dialect := d
      screen := ((s.withDialect d).draw x y rows).screen
      registers := ((s.withDialect d).draw x y rows).registers } := by
  unfold draw setFlag setV
  rfl

theorem storeRegisters_withDialect_eq (s : State w h) (d : Dialect) (x : Nibble) :
    (s.withDialect d).storeRegisters x = { s.storeRegisters x with
      dialect := d, index := (s.withDialect d).indexAfterTransfer x } := by
  unfold storeRegisters
  rfl

theorem loadRegisters_withDialect_eq (s : State w h) (d : Dialect) (x : Nibble) :
    (s.withDialect d).loadRegisters x = { s.loadRegisters x with
      dialect := d, index := (s.withDialect d).indexAfterTransfer x } := by
  unfold loadRegisters
  rfl

/-- Shifts differ in `VX` and the flag. -/
theorem differsAsDisputed_of_shift {op : Opcode} (hdisputed : s.ShiftDisputed d op) (f : AluOp) :
    DiffersAsDisputed s d op (s.alu f op.x op.y) ((s.withDialect d).alu f op.x op.y) where
  rest := by
    rw [alu_withDialect_eq]
  registers j hne := by
    refine Or.inl ⟨hdisputed, ?_⟩
    by_contra hj
    rw [not_or] at hj
    rw [v_alu_of_ne _ hj.1 hj.2, v_alu_of_ne _ hj.1 hj.2] at hne
    exact hne rfl
  screen hne := by
    rw [alu_withDialect_eq] at hne
    exact (hne rfl).elim
  index hne := by
    rw [alu_withDialect_eq] at hne
    exact (hne rfl).elim

/-- Sprites differ on the screen and in the flag. -/
theorem differsAsDisputed_of_sprite {op : Opcode} (hdisputed : s.SpriteDisputed d op) :
    DiffersAsDisputed s d op (s.draw op.x op.y op.n)
      ((s.withDialect d).draw op.x op.y op.n) where
  rest := by
    rw [draw_withDialect_eq]
  registers j hne := by
    refine Or.inr ⟨hdisputed, ?_⟩
    by_contra hj
    rw [v_draw_of_ne _ hj, v_draw_of_ne _ hj] at hne
    exact hne rfl
  screen _ := hdisputed
  index hne := by
    rw [draw_withDialect_eq] at hne
    exact (hne rfl).elim

/-- Transfers differ in the index register. -/
theorem differsAsDisputed_of_transfer {op : Opcode} (hdisputed : s.TransferDisputed d op)
    (t : State w h) (index : Word) :
    DiffersAsDisputed s d op t { t with dialect := d, index } where
  rest := rfl
  registers _ hne := (hne rfl).elim
  screen hne := (hne rfl).elim
  index _ := hdisputed

/-- An instruction that diverges is carried out under both dialects, and the outcomes differ as
disputed. -/
theorem perform_of_diverges {op : Opcode} {i : Instruction} (hop : op.instruction? = some i)
    (hdiverges : Diverges s d i) :
    ∃ t t', s.perform i = .ok t ∧ (s.withDialect d).perform i = .ok t' ∧
      DiffersAsDisputed s d op t t' := by
  obtain ⟨-, hlow⟩ := (op.word_eq_word_iff i).mp (Opcode.instruction?_eq_some_iff.mp hop)
  have hfits := Opcode.fits_pattern hop
  cases hdiverges with
  | @shift f x y hf hd hv =>
    obtain ⟨rfl, rfl, -⟩ := op.x_y_n_of_operands hlow
    have hpattern : Fits op.word.toNat "8XY6" ∨ Fits op.word.toNat "8XYE" := by
      rcases AluOp.pattern_of_isShift hf with hpattern | hpattern
      · exact Or.inl (hpattern ▸ hfits)
      · exact Or.inr (hpattern ▸ hfits)
    exact ⟨_, _, rfl, rfl, differsAsDisputed_of_shift ⟨hd, hpattern, hv⟩ f⟩
  | @sprite x y rows hd hover =>
    obtain ⟨rfl, rfl, rfl⟩ := op.x_y_n_of_operands hlow
    exact ⟨_, _, rfl, rfl, differsAsDisputed_of_sprite ⟨hd, hfits, hover⟩⟩
  | store hd =>
    refine ⟨_, _, rfl, rfl, ?_⟩
    rw [storeRegisters_withDialect_eq]
    exact differsAsDisputed_of_transfer ⟨hd, Or.inl hfits⟩ _ _
  | load hd =>
    refine ⟨_, _, rfl, rfl, ?_⟩
    rw [loadRegisters_withDialect_eq]
    exact differsAsDisputed_of_transfer ⟨hd, Or.inr hfits⟩ _ _

/-- A word fails alike under both dialects, or its outcomes differ as disputed. -/
theorem execute_withDialect (s : State w h) (d : Dialect) (op : Opcode) :
    (∃ f, s.execute op = .error f ∧ (s.withDialect d).execute op = .error f) ∨
      ∃ t t', s.execute op = .ok t ∧ (s.withDialect d).execute op = .ok t' ∧
        DiffersAsDisputed s d op t t' := by
  unfold execute
  cases hop : op.instruction? with
  | none => exact Or.inl ⟨_, rfl, rfl⟩
  | some i =>
    by_cases hdiverges : Diverges s d i
    · exact Or.inr (perform_of_diverges hop hdiverges)
    · dsimp only
      rw [perform_withDialect hdiverges]
      cases s.perform i with
      | error f => exact Or.inl ⟨f, rfl, rfl⟩
      | ok t => exact Or.inr ⟨t, _, rfl, rfl, differsAsDisputed_withDialect t⟩

/-! ## Runs -/

theorem instruction?_withDialect (s : State w h) (d : Dialect) (action : Action) :
    (s.withDialect d).instruction? action =
      (s.instruction? action).map fun turn => (turn.1.withDialect d, turn.2) := by
  cases action with
  | step =>
    show s.nextOpcode.instruction?.map _ = _
    rw [instruction?, Option.map_map]
    rfl
  | execute op =>
    rw [instruction?, instruction?, Option.map_map]
    rfl
  | tick count => rfl
  | snapshot held pressed => rfl

/-- Without an instruction an action counts the timers down, renews the keys or fails at a word
that is no instruction. None of them asks the dialect. -/
theorem act_withDialect_of_none {action : Action} (hnone : s.instruction? action = none) :
    (s.withDialect d).act action = (s.act action).map (·.withDialect d) := by
  cases action with
  | step =>
    have hop := Option.map_eq_none_iff.mp hnone
    have hop' : (s.withDialect d).nextOpcode.instruction? = none := hop
    rw [act_step_eq_execute, act_step_eq_execute, execute, execute, hop, hop']
    rfl
  | execute op =>
    have hop := Option.map_eq_none_iff.mp hnone
    rw [act, act, execute, execute, hop]
    rfl
  | tick count =>
    have htick : (s.withDialect d).tick count = (s.tick count).map (·.withDialect d) := by
      unfold tick
      split
      · rfl
      · split <;> rfl
    rw [act, act, htick, mapError_map]
  | snapshot held pressed => rfl

/-- An action that comes down to no divergent instruction is the same under both dialects. -/
theorem act_withDialect {action : Action}
    (hnot : ∀ turn ∈ s.instruction? action, ¬ Diverges turn.1 d turn.2) :
    (s.withDialect d).act action = (s.act action).map (·.withDialect d) := by
  cases hturn : s.instruction? action with
  | none => exact act_withDialect_of_none hturn
  | some turn =>
    have hturn' : (s.withDialect d).instruction? action = some (turn.1.withDialect d, turn.2) := by
      rw [instruction?_withDialect, hturn]
      rfl
    rw [act_of_instruction? hturn, act_of_instruction? hturn']
    rw [perform_withDialect (hnot turn hturn), mapError_map]

/-- Two runs under different dialects carry out the same instructions and end alike as long as none
of these instructions diverges. -/
theorem run_withDialect {actions : List Action}
    (hnot : ∀ turn ∈ s.performed actions, ¬ Diverges turn.1 d turn.2) :
    (s.withDialect d).run actions = (s.run actions).map (·.withDialect d) ∧
      (s.withDialect d).performed actions =
        (s.performed actions).map fun turn => (turn.1.withDialect d, turn.2) := by
  induction actions generalizing s with
  | nil => exact ⟨rfl, rfl⟩
  | cons action actions ih =>
    cases hact : s.act action with
    | error f =>
      have hnot' : ∀ turn ∈ s.instruction? action, ¬ Diverges turn.1 d turn.2 := by
        intro turn hturn hdiverges
        obtain ⟨t, hperform⟩ := hdiverges.perform_eq_ok
        rw [act_of_instruction? hturn, hperform] at hact
        cases hact
      have hact' := act_withDialect hnot'
      rw [hact] at hact'
      simp only [run, performed, hact, hact']
      exact ⟨rfl, rfl⟩
    | ok t =>
      simp only [performed_cons hact, List.forall_mem_append, Option.mem_toList] at hnot
      have hact' := act_withDialect hnot.1
      rw [hact] at hact'
      obtain ⟨hrun, hperformed⟩ := ih hnot.2
      constructor
      · simp only [run, hact, hact']
        exact hrun
      · rw [performed_cons hact', performed_cons hact, hperformed, instruction?_withDialect,
          List.map_append, Option.toList_map]

/-- No action changes the dialect. -/
theorem act_dialect {s t : State w h} {action : Action} (hact : s.act action = .ok t) :
    t.dialect = s.dialect := by
  rcases act_cases hact with ⟨s', i, hs', hperform⟩ | ⟨ticks, rfl⟩ | ⟨held, pressed, rfl⟩
  · rw [perform_dialect hperform]
    rcases hs' with rfl | rfl <;> rfl
  · rfl
  · rfl

/-- So every instruction of a run is performed under one dialect. -/
theorem performed_dialect {actions : List Action} {turn : State w h × Instruction}
    (hturn : turn ∈ s.performed actions) : turn.1.dialect = s.dialect := by
  induction actions generalizing s with
  | nil => cases hturn
  | cons action actions ih =>
    cases hact : s.act action with
    | error f =>
      simp only [performed, hact] at hturn
      cases hturn
    | ok t =>
      rw [performed_cons hact, List.mem_append, Option.mem_toList] at hturn
      rcases hturn with hturn | hturn
      · rcases act_instruction? hact with ⟨u, i, hi, hu, -⟩ | ⟨hnone, -⟩
        · rw [hi] at hturn
          cases hturn
          rcases hu with rfl | rfl <;> rfl
        · rw [hnone] at hturn
          cases hturn
      · rw [ih hturn, act_dialect hact]

end

/-- Under another dialect every word fails alike or its outcome differs as disputed; and two runs
end alike as long as they carry out no word on which the dialects disagree. -/
theorem differ_only_where_disputed (s : State w h) (d : Dialect) :
    (∀ op, (∃ f, s.execute op = .error f ∧ (s.withDialect d).execute op = .error f) ∨
      ∃ t t', s.execute op = .ok t ∧ (s.withDialect d).execute op = .ok t' ∧
        DiffersAsDisputed s d op t t') ∧
    ∀ actions, (∀ turn ∈ s.performed actions, ∀ pattern ∈ s.dialect.disputed d,
        ¬ Fits turn.2.word pattern) →
      (s.withDialect d).run actions = (s.run actions).map (·.withDialect d) ∧
        (s.withDialect d).performed actions =
          (s.performed actions).map fun turn => (turn.1.withDialect d, turn.2) := by
  refine ⟨s.execute_withDialect d, ?_⟩
  intro actions hundisputed
  refine run_withDialect ?_
  intro turn hturn hdiverges
  have hmem := hdiverges.pattern_mem
  rw [performed_dialect hturn] at hmem
  exact hundisputed turn hturn _ hmem (Opcode.fits_word turn.2)

end State

end ChipEight
