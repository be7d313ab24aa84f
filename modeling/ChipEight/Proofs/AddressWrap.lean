import Mathlib.Data.Nat.ModEq
import ChipEight.Proofs.Footprint

/-!
# Addresses wrap

The program counter and the index register hold sixteen bits, and whoever looks something up in
memory takes the low twelve of them. The high bits are never asked for: two states whose program
counters and index registers name the same places go on alike. There is one way to see a high bit,
the flag of `FX1E`, which tells whether the index register has passed sixteen bits.

* `State.perform_withIndex`: every instruction but `FX1E` does the same on both, and leaves index
  registers that still name the same place.
* `State.perform_agree`, `State.execute_agree`: any instruction, and any word.
* `State.run_agree`: runs in which no `FX1E` is carried out.
* `State.step_reads_low_bits`: a step of two states that may differ in the high bits of both.
-/

namespace ChipEight

theorem Address.ofWord_eq_ofWord_iff {a b : Word} :
    Address.ofWord a = Address.ofWord b ↔ a.toNat ≡ b.toNat [MOD 4096] := by
  rw [Fin.ext_iff, Address.val_ofWord, Address.val_ofWord]
  rfl

/-- Sums wrap at sixteen bits, which twelve bits do not notice. -/
theorem Word.add_modEq {a b : Word} (hab : a.toNat ≡ b.toNat [MOD 4096]) (c : Word) :
    (a + c).toNat ≡ (b + c).toNat [MOD 4096] := by
  unfold Nat.ModEq at *
  rw [UInt16.toNat_add, UInt16.toNat_add]
  omega

namespace State

variable {w h : Nat}

/-- The state with another value in the index register. -/
def withIndex (s : State w h) (k : Word) : State w h := { s with index := k }

/-! ## Instructions that leave the index register alone -/

theorem alu_withIndex (s : State w h) (k : Word) (f : AluOp) (x y : Nibble) :
    (s.withIndex k).alu f x y = (s.alu f x y).withIndex k := by
  rcases hresult : f.evaluate s.dialect.legacyShift (s.v x) (s.v y) with ⟨result, flag⟩
  have hresult' : f.evaluate (s.withIndex k).dialect.legacyShift ((s.withIndex k).v x)
      ((s.withIndex k).v y) = (result, flag) := hresult
  rw [alu, alu, hresult, hresult']
  cases flag <;> rfl

theorem awaitKey_withIndex (s : State w h) (k : Word) (x : Nibble) :
    (s.withIndex k).awaitKey x = (s.awaitKey x).withIndex k := by
  have hpressed : (s.withIndex k).pressed = s.pressed := rfl
  unfold awaitKey
  rw [hpressed]
  cases s.pressed.toList.head? <;> rfl

theorem skipIf_withIndex (s : State w h) (k : Word) (condition : Bool) :
    (s.withIndex k).skipIf condition = (s.skipIf condition).withIndex k := by
  cases condition <;> rfl

theorem call_withIndex (s : State w h) (k : Word) (target : Address) :
    (s.withIndex k).call target = (s.call target).map (·.withIndex k) := by
  unfold call
  show (s.stack.push s.pc.toNat s.origin.toNat >>= _) = _
  cases s.stack.push s.pc.toNat s.origin.toNat <;> rfl

theorem ret_withIndex (s : State w h) (k : Word) :
    (s.withIndex k).ret = s.ret.map (·.withIndex k) := by
  unfold ret
  show (s.stack.pop s.origin.toNat >>= _) = _
  cases s.stack.pop s.origin.toNat <;> rfl

/-! ## Instructions that look something up in memory -/

section

variable {s : State w h} {k : Word}

section

variable (hplace : Address.ofWord (s.withIndex k).index = Address.ofWord s.index)

include hplace

theorem draw_withIndex (x y rows : Nibble) :
    (s.withIndex k).draw x y rows = (s.draw x y rows).withIndex k := by
  have htargets : (s.withIndex k).spriteTargets x y rows = s.spriteTargets x y rows := by
    unfold spriteTargets
    rw [hplace]
    rfl
  unfold draw
  rw [htargets]
  rfl

theorem storeDecimal_withIndex (x : Nibble) :
    (s.withIndex k).storeDecimal x = (s.storeDecimal x).withIndex k := by
  unfold storeDecimal
  rw [hplace]
  rfl

theorem storeRegisters_withIndex (x : Nibble) :
    (s.withIndex k).storeRegisters x =
      (s.storeRegisters x).withIndex ((s.withIndex k).indexAfterTransfer x) := by
  unfold storeRegisters
  rw [hplace]
  rfl

theorem loadRegisters_withIndex (x : Nibble) :
    (s.withIndex k).loadRegisters x =
      (s.loadRegisters x).withIndex ((s.withIndex k).indexAfterTransfer x) := by
  unfold loadRegisters
  rw [hplace]
  rfl

end

theorem indexAfterTransfer_modEq (hk : s.index.toNat ≡ k.toNat [MOD 4096]) (x : Nibble) :
    (s.indexAfterTransfer x).toNat ≡ ((s.withIndex k).indexAfterTransfer x).toNat [MOD 4096] := by
  unfold indexAfterTransfer
  show _ ≡ (if s.dialect.incrementIndex then k + UInt16.ofNat (x.val + 1) else k).toNat [MOD 4096]
  split
  · exact Word.add_modEq hk _
  · exact hk

/-! ## One instruction -/

/-- Every instruction but one does the same wherever the index register names the same place. -/
theorem perform_withIndex (hk : s.index.toNat ≡ k.toNat [MOD 4096]) {i : Instruction}
    (hi : ∀ x, i ≠ .increaseIndex x) :
    ∃ k' : State w h → Word,
      (s.withIndex k).perform i = (s.perform i).map (fun t => t.withIndex (k' t)) ∧
      ∀ t, s.perform i = .ok t → t.index.toNat ≡ (k' t).toNat [MOD 4096] := by
  have hplace : Address.ofWord (s.withIndex k).index = Address.ofWord s.index :=
    (Address.ofWord_eq_ofWord_iff.mpr hk).symm
  cases i with
  | increaseIndex x => exact (hi x rfl).elim
  | setIndex | pointGlyph => exact ⟨State.index, rfl, fun t ht => Nat.ModEq.refl _⟩
  | storeRegisters x =>
    refine ⟨fun t => _, congrArg Except.ok (storeRegisters_withIndex hplace x), ?_⟩
    rintro t ⟨⟩
    exact indexAfterTransfer_modEq hk x
  | loadRegisters x =>
    refine ⟨fun t => _, congrArg Except.ok (loadRegisters_withIndex hplace x), ?_⟩
    rintro t ⟨⟩
    exact indexAfterTransfer_modEq hk x
  | call target =>
    refine ⟨fun t => k, call_withIndex s k target, fun t ht => ?_⟩
    obtain ⟨stack, -, rfl⟩ := call_eq_ok_iff.mp ht
    exact hk
  | ret =>
    refine ⟨fun t => k, ret_withIndex s k, fun t ht => ?_⟩
    obtain ⟨stack, pc, -, rfl⟩ := ret_eq_ok_iff.mp ht
    exact hk
  | skipIfEqual | skipIfUnequal | skipIfSame | skipIfDifferent | skipIfHeld | skipIfReleased =>
    refine ⟨fun t => k, congrArg Except.ok (skipIf_withIndex s k _), ?_⟩
    rintro t ⟨⟩
    rw [skipIf_eq]
    exact hk
  | alu f x y =>
    refine ⟨fun t => k, congrArg Except.ok (alu_withIndex s k f x y), ?_⟩
    rintro t ⟨⟩
    rw [alu_eq]
    exact hk
  | awaitKey x =>
    refine ⟨fun t => k, congrArg Except.ok (awaitKey_withIndex s k x), ?_⟩
    rintro t ⟨⟩
    rw [awaitKey_eq]
    exact hk
  | draw x y rows =>
    refine ⟨fun t => k, congrArg Except.ok (draw_withIndex hplace x y rows), ?_⟩
    rintro t ⟨⟩
    exact hk
  | storeDecimal x =>
    refine ⟨fun t => k, congrArg Except.ok (storeDecimal_withIndex hplace x), ?_⟩
    rintro t ⟨⟩
    exact hk
  | _ =>
    refine ⟨fun t => k, rfl, ?_⟩
    rintro t ⟨⟩
    exact hk

end

/-! ## States that agree -/

/-- The two states are the same but for the index registers, which name the same place. -/
structure AgreeOnPlace (s s' : State w h) : Prop where
  rest : s' = s.withIndex s'.index
  index : s.index.toNat ≡ s'.index.toNat [MOD 4096]

/-- The two states are the same but for the index registers, which name the same place, and perhaps
for the flag. -/
structure AgreeButFlag (flag : Prop) (t t' : State w h) : Prop where
  rest : t' = { t with index := t'.index, registers := t'.registers }
  index : t.index.toNat ≡ t'.index.toNat [MOD 4096]
  registers : ∀ j, t'.v j ≠ t.v j → j = flagRegister ∧ flag

theorem AgreeOnPlace.agreeButFlag {s s' : State w h} (hs : AgreeOnPlace s s') (flag : Prop) :
    AgreeButFlag flag s s' := by
  obtain ⟨hrest, hindex⟩ := hs
  constructor
  · rw [hrest]
    rfl
  · exact hindex
  · intro j hne
    rw [hrest] at hne
    exact (hne rfl).elim

theorem AgreeButFlag.imp {flag flag' : Prop} {t t' : State w h} (ht : AgreeButFlag flag t t')
    (hflag : flag → flag') : AgreeButFlag flag' t t' where
  rest := ht.rest
  index := ht.index
  registers j hne := ⟨(ht.registers j hne).1, hflag (ht.registers j hne).2⟩

theorem AgreeButFlag.agreeOnPlace {flag : Prop} {t t' : State w h} (ht : AgreeButFlag flag t t')
    (hflag : ¬ flag) : AgreeOnPlace t t' := by
  have hregisters : t'.registers = t.registers := by
    apply Vector.ext
    intro j hj
    by_contra hne
    exact hflag (ht.registers ⟨j, hj⟩ hne).2
  constructor
  · have hrest := ht.rest
    rw [hregisters] at hrest
    exact hrest
  · exact ht.index

/-- The sums name the same place, and only one of them may pass sixteen bits. -/
theorem increaseIndex_agree {s s' : State w h} (hs : AgreeOnPlace s s') (x : Nibble) :
    AgreeButFlag True (s.increaseIndex x) (s'.increaseIndex x) := by
  obtain ⟨hrest, hindex⟩ := hs
  rw [hrest]
  constructor
  · rfl
  · show (UInt16.ofNat (s.index.toNat + (s.v x).toNat)).toNat ≡
      (UInt16.ofNat (s'.index.toNat + (s.v x).toNat)).toNat [MOD 4096]
    unfold Nat.ModEq at *
    rw [UInt16.toNat_ofNat', UInt16.toNat_ofNat']
    omega
  · intro j hne
    refine ⟨?_, trivial⟩
    by_contra hj
    apply hne
    unfold increaseIndex setFlag
    rw [v_setV, v_setV, if_neg (Ne.symm hj), if_neg (Ne.symm hj)]
    rfl

/-- One instruction, carried out in two states that agree. -/
theorem perform_agree {s s' : State w h} (hs : AgreeOnPlace s s') (i : Instruction) :
    (∃ f, s.perform i = .error f ∧ s'.perform i = .error f) ∨
      ∃ t t', s.perform i = .ok t ∧ s'.perform i = .ok t' ∧
        AgreeButFlag (∃ x, i = .increaseIndex x) t t' := by
  by_cases hi : ∃ x, i = .increaseIndex x
  · obtain ⟨x, rfl⟩ := hi
    exact Or.inr ⟨_, _, rfl, rfl, (increaseIndex_agree hs x).imp fun _ => ⟨x, rfl⟩⟩
  · obtain ⟨k', hperform, hindex⟩ := perform_withIndex hs.index (not_exists.mp hi)
    rw [← hs.rest] at hperform
    cases hresult : s.perform i with
    | error f =>
      rw [hresult] at hperform
      exact Or.inl ⟨f, rfl, hperform⟩
    | ok t =>
      rw [hresult] at hperform
      have hagree : AgreeOnPlace t (t.withIndex (k' t)) := ⟨rfl, hindex t hresult⟩
      exact Or.inr ⟨t, _, rfl, hperform, hagree.agreeButFlag _⟩

/-! ## Words and steps -/

theorem execute_agree {s s' : State w h} (hs : AgreeOnPlace s s') (op : Opcode) :
    (∃ f, s.execute op = .error f ∧ s'.execute op = .error f) ∨
      ∃ t t', s.execute op = .ok t ∧ s'.execute op = .ok t' ∧
        AgreeButFlag (∃ x, op.instruction? = some (.increaseIndex x)) t t' := by
  have horigin : s'.origin = s.origin := by
    rw [hs.rest]
    rfl
  unfold execute
  cases op.instruction? with
  | none => exact Or.inl ⟨_, rfl, by rw [horigin]⟩
  | some i =>
    rcases perform_agree hs i with hfails | ⟨t, t', ht, ht', hagree⟩
    · exact Or.inl hfails
    · refine Or.inr ⟨t, t', ht, ht', hagree.imp ?_⟩
      rintro ⟨x, rfl⟩
      exact ⟨x, rfl⟩

/-- A fetch takes the same opcode and leaves the same program counter. -/
theorem fetch_agree {s s' : State w h} (hrest : s' = { s with pc := s'.pc, index := s'.index })
    (hpc : s.pc.toNat ≡ s'.pc.toNat [MOD 4096])
    (hindex : s.index.toNat ≡ s'.index.toNat [MOD 4096]) :
    s'.nextOpcode = s.nextOpcode ∧ AgreeOnPlace s.advance s'.advance := by
  have hplace : Address.ofWord s'.pc = Address.ofWord s.pc :=
    (Address.ofWord_eq_ofWord_iff.mpr hpc).symm
  have hmemory : s'.memory = s.memory := by rw [hrest]
  constructor
  · rw [nextOpcode, nextOpcode, hplace, hmemory]
  · constructor
    · rw [advance, hplace, hrest]
      rfl
    · exact hindex

/-! ## Runs -/

theorem act_agree {s s' : State w h} (hs : AgreeOnPlace s s') (action : Action) :
    (∃ f, s.act action = .error f ∧ s'.act action = .error f) ∨
      ∃ t t', s.act action = .ok t ∧ s'.act action = .ok t' ∧
        AgreeButFlag (∃ u x, s.instruction? action = some (u, .increaseIndex x)) t t' := by
  have hpc : s.pc.toNat ≡ s'.pc.toNat [MOD 4096] := by
    rw [hs.rest]
    rfl
  have hrest : s' = { s with pc := s'.pc, index := s'.index } := by
    rw [hs.rest]
    rfl
  cases action with
  | step =>
    obtain ⟨hopcode, hfetch⟩ := fetch_agree hrest hpc hs.index
    rw [act_step_eq_execute, act_step_eq_execute, hopcode]
    rcases execute_agree hfetch s.nextOpcode with ⟨f, hf, hf'⟩ | ⟨t, t', ht, ht', hagree⟩
    · rw [hf, hf']
      exact Or.inl ⟨.fault f, rfl, rfl⟩
    · rw [ht, ht']
      refine Or.inr ⟨t, t', rfl, rfl, hagree.imp ?_⟩
      rintro ⟨x, hop⟩
      exact ⟨s.advance, x, Option.map_eq_some_iff.mpr ⟨_, hop, rfl⟩⟩
  | execute op =>
    rw [act, act]
    rcases execute_agree hs op with ⟨f, hf, hf'⟩ | ⟨t, t', ht, ht', hagree⟩
    · rw [hf, hf']
      exact Or.inl ⟨.fault f, rfl, rfl⟩
    · rw [ht, ht']
      refine Or.inr ⟨t, t', rfl, rfl, hagree.imp ?_⟩
      rintro ⟨x, hop⟩
      exact ⟨s, x, Option.map_eq_some_iff.mpr ⟨_, hop, rfl⟩⟩
  | tick count =>
    have hagree (ticks : Nat) : AgreeOnPlace (s.countDown ticks) (s'.countDown ticks) := by
      constructor
      · rw [hs.rest]
        rfl
      · exact hs.index
    rcases Int.lt_or_le count 2147483648 with hcount | hcount
    · exact Or.inr ⟨_, _, act_tick_eq_ok_iff.mpr ⟨hcount, rfl⟩,
        act_tick_eq_ok_iff.mpr ⟨hcount, rfl⟩, (hagree _).agreeButFlag _⟩
    · rw [act, act, tick_eq_error_iff.mpr ⟨hcount, rfl⟩, tick_eq_error_iff.mpr ⟨hcount, rfl⟩]
      exact Or.inl ⟨_, rfl, rfl⟩
  | snapshot held pressed =>
    have hagree : AgreeOnPlace { s with held, pressed } { s' with held, pressed } := by
      constructor
      · rw [hs.rest]
        rfl
      · exact hs.index
    exact Or.inr ⟨_, _, rfl, rfl, hagree.agreeButFlag _⟩

/-- Runs in which no `FX1E` is carried out stay alike to their end. -/
theorem run_agree {s s' : State w h} (hs : AgreeOnPlace s s') {actions : List Action}
    (hnot : ∀ p ∈ s.performed actions, ∀ x, p.2 ≠ .increaseIndex x) :
    (∃ f, s.run actions = .error f ∧ s'.run actions = .error f) ∨
      ∃ t t', s.run actions = .ok t ∧ s'.run actions = .ok t' ∧ AgreeOnPlace t t' := by
  induction actions generalizing s s' with
  | nil => exact Or.inr ⟨s, s', rfl, rfl, hs⟩
  | cons action actions ih =>
    rcases act_agree hs action with ⟨f, hact, hact'⟩ | ⟨u, u', hact, hact', hagree⟩
    · left
      exact ⟨f, bind_eq_error_iff.mpr (Or.inl hact), bind_eq_error_iff.mpr (Or.inl hact')⟩
    · rw [performed_cons hact] at hnot
      have hnow : ¬ ∃ u x, s.instruction? action = some (u, .increaseIndex x) := by
        rintro ⟨v, x, hi⟩
        rw [hi] at hnot
        exact hnot (v, .increaseIndex x) (List.mem_append_left _ (List.mem_singleton_self _)) x rfl
      have hlater := ih (hagree.agreeOnPlace hnow) fun p hp => hnot p (List.mem_append_right _ hp)
      rcases hlater with ⟨f, hrun, hrun'⟩ | ⟨t, t', hrun, hrun', ht⟩
      · left
        exact ⟨f, bind_eq_error_iff.mpr (Or.inr ⟨u, hact, hrun⟩),
          bind_eq_error_iff.mpr (Or.inr ⟨u', hact', hrun'⟩)⟩
      · right
        exact ⟨t, t', run_cons_eq_ok_iff.mpr ⟨u, hact, hrun⟩,
          run_cons_eq_ok_iff.mpr ⟨u', hact', hrun'⟩, ht⟩

/-! ## High bits -/

/-- Two states that differ in nothing but the high bits of the program counter and of the index
register step alike: the same fault, or the same opcode and states that differ in the high bits of
the index register only. After `FX1E`, which tells whether the index register has passed sixteen
bits, the flag may differ as well. -/
theorem step_reads_low_bits {s s' : State w h}
    (hrest : s' = { s with pc := s'.pc, index := s'.index })
    (hpc : s.pc.toNat ≡ s'.pc.toNat [MOD 4096])
    (hindex : s.index.toNat ≡ s'.index.toNat [MOD 4096]) :
    (∃ f, s.step = .error f ∧ s'.step = .error f) ∨
      ∃ t t' op, s.step = .ok (t, op) ∧ s'.step = .ok (t', op) ∧
        t' = { t with index := t'.index, registers := t'.registers } ∧
        t.index.toNat ≡ t'.index.toNat [MOD 4096] ∧
        ∀ j, t'.v j ≠ t.v j → j = flagRegister ∧ Fits op.word.toNat "FX1E" := by
  obtain ⟨hopcode, hfetch⟩ := fetch_agree hrest hpc hindex
  rcases execute_agree hfetch s.nextOpcode with ⟨f, hs, hs'⟩ | ⟨t, t', hs, hs', hagree⟩
  · left
    refine ⟨f, step_eq_error_iff.mpr hs, step_eq_error_iff.mpr ?_⟩
    rw [hopcode]
    exact hs'
  · right
    refine ⟨t, t', s.nextOpcode, step_eq_ok_iff.mpr ⟨rfl, hs⟩,
      step_eq_ok_iff.mpr ⟨hopcode.symm, ?_⟩, hagree.rest, hagree.index, ?_⟩
    · exact hs'
    · intro j hne
      obtain ⟨hj, x, hop⟩ := hagree.registers j hne
      exact ⟨hj, Opcode.fits_pattern hop⟩

/-- The index register passes sixteen bits on one side only. -/
theorem step_reads_low_bits_of_carry : ∃ s s' t t' : State 64 32,
    s.pc = 0x200 ∧ s.index = 0x0FFF ∧ s' = { s with pc := 0xF200, index := 0xFFFF } ∧
    s.step = .ok (t, .ofInt 0xF01E) ∧ s'.step = .ok (t', .ofInt 0xF01E) ∧
    t.index = 0x1000 ∧ t'.index = 0 ∧ t.v flagRegister = 0 ∧ t'.v flagRegister = 1 ∧
    t' = { t with index := t'.index, registers := t'.registers } ∧
    t.index.toNat ≡ t'.index.toNat [MOD 4096] ∧
    ∀ j, t'.v j ≠ t.v j → j = flagRegister ∧ Fits (Opcode.ofInt 0xF01E).word.toNat "FX1E" := by
  have hvalues : (do
      let start ← create 64 32 ⟨0, 0⟩ [0xF0, 0x1E] {} 16
      let before := { start.setV 0 1 with index := 0x0FFF }
      let first ← before.step
      let second ← { before with pc := 0xF200, index := 0xFFFF : State 64 32 }.step
      return ((first.2, first.1.index, first.1.v flagRegister),
        second.2, second.1.index, second.1.v flagRegister)) =
      Except.ok ((Opcode.ofInt 0xF01E, (0x1000 : Word), (0 : Byte)),
        Opcode.ofInt 0xF01E, (0 : Word), (1 : Byte)) := by
    decide +kernel
  obtain ⟨start, hcreate, hvalues⟩ := bind_eq_ok_iff.mp hvalues
  obtain ⟨memory, -, hstart⟩ := create_eq_ok_iff.mp hcreate
  obtain ⟨⟨t, op⟩, hstep, hvalues⟩ := bind_eq_ok_iff.mp hvalues
  obtain ⟨⟨t', op'⟩, hstep', hvalues⟩ := bind_eq_ok_iff.mp hvalues
  obtain ⟨hfirst, hsecond⟩ := Prod.mk.inj (Except.ok.inj hvalues)
  obtain ⟨hop, hfirst⟩ := Prod.mk.inj hfirst
  obtain ⟨hop', hsecond⟩ := Prod.mk.inj hsecond
  obtain ⟨hindex, hflag⟩ := Prod.mk.inj hfirst
  obtain ⟨hindex', hflag'⟩ := Prod.mk.inj hsecond
  dsimp only at hop hop'
  rw [hop] at hstep
  rw [hop'] at hstep'
  obtain ⟨s, hs⟩ : ∃ s : State 64 32, s = { start.setV 0 1 with index := 0x0FFF } := ⟨_, rfl⟩
  rw [← hs] at hstep hstep'
  have hpc : s.pc = 0x200 := by
    rw [hs, hstart]
    rfl
  have hplace : s.pc.toNat ≡ (0xF200 : Word).toNat [MOD 4096] := by
    rw [hpc]
    decide
  have hstarts : s.index = 0x0FFF := by rw [hs]
  have hindices : s.index.toNat ≡ (0xFFFF : Word).toNat [MOD 4096] := by
    rw [hstarts]
    decide
  have hrest : ({ s with pc := 0xF200, index := 0xFFFF } : State 64 32) =
      { s with pc := 0xF200, index := 0xFFFF } := rfl
  rcases step_reads_low_bits hrest hplace hindices with
    ⟨f, hfails, -⟩ | ⟨u, u', op, hu, hu', hagree⟩
  · rw [hstep] at hfails
    cases hfails
  · rw [hstep] at hu
    rw [hstep'] at hu'
    cases hu
    cases hu'
    exact ⟨s, _, t, t', hpc, hstarts, rfl, hstep, hstep', hindex, hindex', hflag, hflag', hagree⟩

end State

end ChipEight
