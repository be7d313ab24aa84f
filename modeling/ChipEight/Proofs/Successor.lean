import ChipEight.Proofs.Endings
import ChipEight.Proofs.KeyWait

/-!
# Where the next instruction is

The program counter is moved on before a word is carried out, and most words leave it there. The
others put it elsewhere, move it on once more, or take it back. `State.successor` is the table of
where it stands in the end, by the pattern of the word and from what the state held before; every
move goes around the end of memory.

Three pairs of words ask opposite questions about the same operands (`Opcode.Opposite`).

* `State.perform_pc`: an instruction, with the counter already moved on.
* `State.step_pc`: a step.
* `State.exists_step`: the steps that always come about.
* `State.step_goes_to_successor`: the law for every state, and which of two opposite words skips.
-/

namespace ChipEight

/-- Two words skip on opposite conditions, about the same operands. -/
inductive Opcode.Opposite (a b : Opcode) : Prop
  | value (ha : Fits a.word.toNat "3XNN") (hb : Fits b.word.toNat "4XNN") (hx : a.x = b.x)
      (hnn : a.nn = b.nn)
  | register (ha : Fits a.word.toNat "5XY0") (hb : Fits b.word.toNat "9XY0") (hx : a.x = b.x)
      (hy : a.y = b.y)
  | key (ha : Fits a.word.toNat "EX9E") (hb : Fits b.word.toNat "EXA1") (hx : a.x = b.x)

namespace State

variable {w h : Nat} {s t : State w h}

/-! ## The table -/

/-- The place a number of bytes behind the program counter. -/
def placeAfter (s : State w h) (bytes : Nat) : Nat := (s.pc.toNat + bytes) % 4096

/-- The key that the low digit of a register names is held. -/
def HoldsKey (s : State w h) (x : Nibble) : Prop :=
  s.held.get ⟨(s.v x).toNat % 16, Nat.mod_lt _ (by decide)⟩ = true

instance (s : State w h) (x : Nibble) : Decidable (s.HoldsKey x) :=
  inferInstanceAs (Decidable (_ = true))

/-- Where the program counter stands after a word of a pattern, from what the state held before. -/
def successor (s : State w h) (op : Opcode) (pattern : String) : Nat :=
  match pattern with
  | "1NNN" | "2NNN" => op.nnn.val
  | "BNNN" => (op.nnn.val + (s.v 0).toNat) % 4096
  | "00EE" => (s.stack.slots.getD (s.stack.depth - 1) 0).toNat
  | "FX0A" => if s.pressed = Keys.none then s.placeAfter 0 else s.placeAfter 2
  | "3XNN" => if s.v op.x = op.nn then s.placeAfter 4 else s.placeAfter 2
  | "4XNN" => if s.v op.x ≠ op.nn then s.placeAfter 4 else s.placeAfter 2
  | "5XY0" => if s.v op.x = s.v op.y then s.placeAfter 4 else s.placeAfter 2
  | "9XY0" => if s.v op.x ≠ s.v op.y then s.placeAfter 4 else s.placeAfter 2
  | "EX9E" => if s.HoldsKey op.x then s.placeAfter 4 else s.placeAfter 2
  | "EXA1" => if ¬ s.HoldsKey op.x then s.placeAfter 4 else s.placeAfter 2
  | _ => s.placeAfter 2

/-! ## One instruction -/

theorem advance_pc_eq (s : State w h) : s.advance.pc.toNat = s.placeAfter 2 := s.advance_pc_toNat

theorem advance_advance_pc (s : State w h) : s.advance.advance.pc.toNat = s.placeAfter 4 := by
  rw [advance_pc_toNat, advance_pc_toNat, placeAfter]
  omega

/-- The counter goes back to where it was, cut to an address. -/
theorem advance_rewind_pc (s : State w h) : s.advance.rewind.pc.toNat = s.placeAfter 0 := by
  have hadvance := s.advance_pc_toNat
  rw [rewind, placeAfter]
  simp only [Address.toNat_toWord, Fin.sub_def, Address.val_ofWord]
  omega

theorem skipIf_pc (s : State w h) {condition : Bool} {P : Prop} [Decidable P]
    (hcondition : condition = true ↔ P) :
    (s.advance.skipIf condition).pc.toNat =
      if P then s.placeAfter 4 else s.placeAfter 2 := by
  unfold skipIf
  split
  case isTrue hskip =>
    rw [if_pos (hcondition.mp hskip), advance_advance_pc]
  case isFalse hstay =>
    rw [if_neg (mt hcondition.mpr hstay), advance_pc_eq]

theorem awaitKey_advance_pc (s : State w h) (x : Nibble) : (s.advance.awaitKey x).pc.toNat =
    if s.pressed = Keys.none then s.placeAfter 0 else s.placeAfter 2 := by
  have hpressed : s.advance.pressed = s.pressed := rfl
  rw [awaitKey, hpressed]
  by_cases hnone : s.pressed = Keys.none
  · rw [if_pos hnone, hnone, Keys.toList_none]
    exact s.advance_rewind_pc
  · obtain ⟨key, hfirst⟩ := Keys.exists_head?_of_ne_none hnone
    rw [if_neg hnone, hfirst]
    exact s.advance_pc_eq

/-- The program counter after an instruction is what the table says of its pattern. -/
theorem perform_pc {op : Opcode} {i : Instruction} (hop : op.instruction? = some i)
    (hperform : s.advance.perform i = .ok t) : t.pc.toNat = s.successor op i.pattern := by
  obtain ⟨-, hlow⟩ := (op.word_eq_word_iff i).mp (Opcode.instruction?_eq_some_iff.mp hop)
  cases i with
  | jump target =>
    obtain rfl : op.nnn = target := Fin.ext hlow
    cases hperform
    exact op.nnn.toNat_toWord
  | call target =>
    obtain rfl : op.nnn = target := Fin.ext hlow
    obtain ⟨stack, -, rfl⟩ := call_eq_ok_iff.mp hperform
    exact op.nnn.toNat_toWord
  | jumpOffset base =>
    obtain rfl : op.nnn = base := Fin.ext hlow
    cases hperform
    have hsum : (op.nnn + Fin.ofNat 4096 (s.v 0).toNat).val =
        (op.nnn.val + (s.v 0).toNat) % 4096 := by
      simp only [Fin.val_add, Fin.val_ofNat]
      omega
    exact (Address.toNat_toWord _).trans hsum
  | ret =>
    obtain ⟨stack, pc, hpop, rfl⟩ := ret_eq_ok_iff.mp hperform
    exact congrArg UInt16.toNat (CallStack.pop_top hpop)
  | awaitKey x =>
    cases hperform
    exact s.awaitKey_advance_pc x
  | skipIfEqual x b =>
    obtain ⟨rfl, hnn⟩ := op.x_nn_of_operands hlow b.toNat_lt
    obtain rfl := UInt8.toNat.inj hnn
    cases hperform
    exact s.skipIf_pc beq_iff_eq
  | skipIfUnequal x b =>
    obtain ⟨rfl, hnn⟩ := op.x_nn_of_operands hlow b.toNat_lt
    obtain rfl := UInt8.toNat.inj hnn
    cases hperform
    exact s.skipIf_pc bne_iff_ne
  | skipIfSame x y =>
    obtain ⟨rfl, rfl, -⟩ := op.x_y_n_of_operands (n := 0) hlow
    cases hperform
    exact s.skipIf_pc beq_iff_eq
  | skipIfDifferent x y =>
    obtain ⟨rfl, rfl, -⟩ := op.x_y_n_of_operands (n := 0) hlow
    cases hperform
    exact s.skipIf_pc bne_iff_ne
  | skipIfHeld x =>
    obtain ⟨rfl, -⟩ := op.x_nn_of_operands hlow (by decide)
    cases hperform
    have hheld : s.isHeld op.x = true ↔ s.HoldsKey op.x := Iff.rfl
    exact s.skipIf_pc hheld
  | skipIfReleased x =>
    obtain ⟨rfl, -⟩ := op.x_nn_of_operands hlow (by decide)
    cases hperform
    have hheld : (!s.isHeld op.x) = true ↔ ¬ s.HoldsKey op.x := by
      rw [Bool.not_eq_true', ← Bool.not_eq_true]
      exact Iff.rfl
    exact s.skipIf_pc hheld
  | alu f x y =>
    cases hperform
    rw [alu_eq]
    cases f <;> exact s.advance_pc_eq
  | loadRegisters x =>
    cases hperform
    rw [loadRegisters_eq]
    exact s.advance_pc_eq
  | _ =>
    cases hperform
    exact s.advance_pc_eq

/-! ## Steps -/

theorem step_pc {op : Opcode} (hstep : s.step = .ok (t, op)) :
    op = s.nextOpcode ∧ InTable op.word.toNat ∧
      ∀ pattern ∈ wordPatterns, Fits op.word.toNat pattern →
        t.pc.toNat = s.successor op pattern := by
  obtain ⟨rfl, hexecute⟩ := step_eq_ok_iff.mp hstep
  obtain ⟨i, hop, hperform⟩ := execute_eq_ok_iff.mp hexecute
  refine ⟨rfl, ⟨i.pattern, Opcode.pattern_mem i, Opcode.fits_pattern hop⟩, ?_⟩
  intro pattern hmem hfits
  obtain rfl := (Opcode.fits_iff_pattern hop hmem).mp hfits
  exact perform_pc hop hperform

/-- The words of the pattern neither call nor return, so nothing stops them. -/
def NeverFails (pattern : String) : Prop :=
  pattern ∈ wordPatterns ∧ pattern ≠ "00EE" ∧ pattern ≠ "2NNN"

instance (pattern : String) : Decidable (NeverFails pattern) :=
  inferInstanceAs (Decidable (_ ∧ _ ∧ _))

/-- Such a word is always carried out, whatever else memory holds. -/
theorem exists_step {op : Opcode} {pattern : String} (hplain : NeverFails pattern)
    (hfits : Fits op.word.toNat pattern) {memory : Memory}
    (hword : memory.readWord (Address.ofWord s.pc) = op.word) :
    ∃ t, { s with memory }.step = .ok (t, op) ∧ t.pc.toNat = s.successor op pattern := by
  obtain ⟨hmem, hret, hcall⟩ := hplain
  have hnext : op = { s with memory }.nextOpcode := congrArg Opcode.mk hword.symm
  have hok : ∃ t, ({ s with memory } : State w h).advance.execute op = .ok t := by
    refine exists_execute_eq_ok_iff.mpr ⟨⟨pattern, hmem, hfits⟩, ?_, ?_⟩
    · rintro ⟨hreturn, -⟩
      exact hret (fits_unique hmem (by decide) hfits hreturn)
    · rintro ⟨hcalls, -⟩
      exact hcall (fits_unique hmem (by decide) hfits hcalls)
  obtain ⟨t, ht⟩ := hok
  have hstep : { s with memory }.step = .ok (t, op) := step_eq_ok_iff.mpr ⟨hnext, ht⟩
  obtain ⟨-, -, hpc⟩ := step_pc hstep
  exact ⟨t, hstep, hpc pattern hmem hfits⟩

/-! ## Words that skip on opposite conditions -/

/-- Of two steps from this place, one passes over the next word and the other goes on with it. -/
def OneSkips (s t u : State w h) : Prop :=
  t.pc.toNat = s.placeAfter 4 ∧ u.pc.toNat = s.placeAfter 2 ∨
    t.pc.toNat = s.placeAfter 2 ∧ u.pc.toNat = s.placeAfter 4

section

variable {a b : Opcode} {memory memory' : Memory}

/-- Two words of which the first skips where a condition holds, and the second where it does not. -/
theorem oneSkips_of_successor {pattern pattern' : String} {P : Prop} [Decidable P]
    (hplain : NeverFails pattern) (hplain' : NeverFails pattern')
    (hfits : Fits a.word.toNat pattern) (hfits' : Fits b.word.toNat pattern')
    (hsuccessor : s.successor a pattern = if P then s.placeAfter 4 else s.placeAfter 2)
    (hsuccessor' : s.successor b pattern' = if ¬ P then s.placeAfter 4 else s.placeAfter 2)
    (ha : memory.readWord (Address.ofWord s.pc) = a.word)
    (hb : memory'.readWord (Address.ofWord s.pc) = b.word) :
    ∃ t u, { s with memory }.step = .ok (t, a) ∧ { s with memory := memory' }.step = .ok (u, b) ∧
      OneSkips s t u := by
  obtain ⟨t, ht, hpc⟩ := exists_step hplain hfits ha
  obtain ⟨u, hu, hpc'⟩ := exists_step hplain' hfits' hb
  rw [hsuccessor] at hpc
  rw [hsuccessor'] at hpc'
  refine ⟨t, u, ht, hu, ?_⟩
  by_cases hP : P
  · rw [if_pos hP] at hpc
    rw [if_neg (not_not.mpr hP)] at hpc'
    exact Or.inl ⟨hpc, hpc'⟩
  · rw [if_neg hP] at hpc
    rw [if_pos hP] at hpc'
    exact Or.inr ⟨hpc, hpc'⟩

theorem oneSkips_of_opposite (hopposite : a.Opposite b)
    (ha : memory.readWord (Address.ofWord s.pc) = a.word)
    (hb : memory'.readWord (Address.ofWord s.pc) = b.word) :
    ∃ t u, { s with memory }.step = .ok (t, a) ∧ { s with memory := memory' }.step = .ok (u, b) ∧
      OneSkips s t u := by
  cases hopposite with
  | value hfits hfits' hx hnn =>
    have hother : s.successor b "4XNN" =
        if s.v a.x ≠ a.nn then s.placeAfter 4 else s.placeAfter 2 := by
      rw [hx, hnn]
      rfl
    exact oneSkips_of_successor (by decide) (by decide) hfits hfits' rfl hother ha hb
  | register hfits hfits' hx hy =>
    have hother : s.successor b "9XY0" =
        if s.v a.x ≠ s.v a.y then s.placeAfter 4 else s.placeAfter 2 := by
      rw [hx, hy]
      rfl
    exact oneSkips_of_successor (by decide) (by decide) hfits hfits' rfl hother ha hb
  | key hfits hfits' hx =>
    have hother : s.successor b "EXA1" =
        if ¬ s.HoldsKey a.x then s.placeAfter 4 else s.placeAfter 2 := by
      rw [hx]
      rfl
    exact oneSkips_of_successor (by decide) (by decide) hfits hfits' rfl hother ha hb

end

/-- In every state, wherever its program counter is, a step that succeeds carries out the word at
that place and leaves the counter where the table says for the pattern of the word; every such word
has one. And of two words that skip on opposite conditions, both are carried out in every state and
one of them skips. -/
theorem step_goes_to_successor (s : State w h) :
    (∀ t op, s.step = .ok (t, op) → op = s.nextOpcode ∧ InTable op.word.toNat ∧
      ∀ pattern ∈ wordPatterns, Fits op.word.toNat pattern →
        t.pc.toNat = s.successor op pattern) ∧
    ∀ a b : Opcode, a.Opposite b → ∀ memory memory' : Memory,
      memory.readWord (Address.ofWord s.pc) = a.word →
      memory'.readWord (Address.ofWord s.pc) = b.word →
      ∃ t u, { s with memory }.step = .ok (t, a) ∧
        { s with memory := memory' }.step = .ok (u, b) ∧ OneSkips s t u := by
  constructor
  · intro t op hstep
    exact step_pc hstep
  · intro a b hopposite memory memory' ha hb
    exact oneSkips_of_opposite hopposite ha hb

/-- Four bytes before the end of memory, `3100` skips to its beginning and `4100` does not. -/
theorem step_goes_to_successor_of_wrap : ∃ s t u : State 64 32,
    (create 64 32 ⟨0, 0⟩ [0x60, 0x31, 0xAF, 0xFC, 0xF0, 0x55, 0x1F, 0xFC] {} 16).mapError
      .fault >>= (·.run [.step, .step, .step, .step]) = .ok s ∧
    s.pc = 0xFFC ∧ s.step = .ok (t, ⟨0x3100⟩) ∧ t.pc.toNat = 0 ∧
    (⟨0x3100⟩ : Opcode).Opposite ⟨0x4100⟩ ∧
    { s with memory := s.memory.write 0xFFC 0x41 }.step = .ok (u, ⟨0x4100⟩) ∧
    u.pc.toNat = 0xFFE := by
  have hvalues : (do
      let s ← (create 64 32 ⟨0, 0⟩ [0x60, 0x31, 0xAF, 0xFC, 0xF0, 0x55, 0x1F, 0xFC] {} 16).mapError
        .fault >>= (·.run [.step, .step, .step, .step])
      return (s.pc, s.v 1, s.memory.readWord 0xFFC,
        (s.memory.write 0xFFC 0x41).readWord 0xFFC)) = Except.ok (0xFFC, 0, 0x3100, 0x4100) := by
    decide +kernel
  obtain ⟨s, hs, hvalues⟩ := bind_eq_ok_iff.mp hvalues
  have hvalues := Except.ok.inj hvalues
  simp only [Prod.mk.injEq] at hvalues
  obtain ⟨hpc, hv, hword, hword'⟩ := hvalues
  have hplace : Address.ofWord s.pc = 0xFFC := by
    rw [hpc]
    decide
  have hopposite : (⟨0x3100⟩ : Opcode).Opposite ⟨0x4100⟩ :=
    .value (by decide) (by decide) rfl rfl
  obtain ⟨hlaw, hpair⟩ := step_goes_to_successor s
  obtain ⟨t, u, ht, hu, hone⟩ := hpair _ _ hopposite s.memory (s.memory.write 0xFFC 0x41)
    (hplace ▸ hword) (hplace ▸ hword')
  obtain ⟨-, -, htable⟩ := hlaw t _ ht
  have htpc : t.pc.toNat = 0 := by
    rw [htable "3XNN" (by decide) (by decide)]
    have hskips : s.v (⟨0x3100⟩ : Opcode).x = (⟨0x3100⟩ : Opcode).nn := hv
    simp only [successor, if_pos hskips, placeAfter, hpc]
    decide
  refine ⟨s, t, u, hs, hpc, ht, htpc, hopposite, hu, ?_⟩
  rcases hone with ⟨-, hu⟩ | ⟨hthere, -⟩
  · rw [hu, placeAfter, hpc]
    decide
  · rw [htpc, placeAfter, hpc] at hthere
    exact absurd hthere (by decide)

end State

end ChipEight
