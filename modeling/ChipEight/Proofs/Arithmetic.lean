import ChipEight.Proofs.DialectChoices

/-!
# What the arithmetic words compute

The operations of the `8XYN` family reckon with bytes. Here they are told in numbers: the result as
an integer (`AluOp.value`) and the condition under which the flag is raised (`AluOp.Raises`), both
from what `VX`, `VY` and the operand of a shift hold before anything is written.

The flag goes into a register that can be `VX` or `VY` as well. Both operands have been read by
then, and the result is written after the flag, so that it is the flag that is lost.

* `AluOp.toNat_evaluate`, `AluOp.evaluate_snd_eq_some_iff`: result and flag of an operation in
  numbers.
* `State.alu_computes`: what an operation leaves in the registers, whichever of them coincide.
* `State.execute_alu_computes`: the same for the words that fit a pattern of the family.
-/

namespace ChipEight

namespace AluOp

/-! ## Numbers -/

/-- The result of an operation on the numbers in `VX` and `VY`, where a shift moves `s`. -/
def value (vx vy s : Nat) : AluOp → Int
  | set => vy
  | or => (vx ||| vy : Nat)
  | and => (vx &&& vy : Nat)
  | xor => (vx ^^^ vy : Nat)
  | add => (vx + vy) % 256
  | subtract => (vx - vy) % 256
  | shiftRight => s / 2
  | subtractFrom => (vy - vx) % 256
  | shiftLeft => 2 * s % 256

/-- The operation raises the flag; the first four leave it alone. -/
def Raises (vx vy s : Nat) : AluOp → Prop
  | set | or | and | xor => False
  | add => 255 < vx + vy
  | subtract => vy < vx
  | shiftRight => s % 2 = 1
  | subtractFrom => vx < vy
  | shiftLeft => 128 ≤ s

/-- The operations that have something to tell in the flag register: the sums, the differences and
the shifts. -/
def SetsFlag (f : AluOp) : Prop := f ∉ [set, or, and, xor]

/-- The operand of a shift. -/
def operand (legacyShift : Bool) (vx vy : Byte) : Byte := if legacyShift then vy else vx

theorem toNat_sub (a b : Byte) : ((a - b).toNat : Int) = (a.toNat - b.toNat) % 256 := by
  have ha := a.toNat_lt
  have hb := b.toNat_lt
  rw [UInt8.toNat_sub]
  omega

theorem toNat_apply (f : AluOp) (vx vy : Byte) :
    ((f.apply vx vy).1.toNat : Int) = f.value vx.toNat vy.toNat vx.toNat := by
  cases f with
  | set => rfl
  | or => exact congrArg Int.ofNat (UInt8.toNat_or vx vy)
  | and => exact congrArg Int.ofNat (UInt8.toNat_and vx vy)
  | xor => exact congrArg Int.ofNat (UInt8.toNat_xor vx vy)
  | add =>
    simp only [apply, value, UInt8.toNat_add]
    omega
  | subtract => exact toNat_sub vx vy
  | shiftRight => exact congrArg Int.ofNat (UInt8.toNat_div vx 2)
  | subtractFrom => exact toNat_sub vy vx
  | shiftLeft =>
    simp only [apply, value, UInt8.toNat_add]
    omega

theorem apply_snd_eq_some_iff (f : AluOp) (vx vy : Byte) (raised : Bool) :
    (f.apply vx vy).2 = some raised ↔
      f.SetsFlag ∧ (raised = true ↔ f.Raises vx.toNat vy.toNat vx.toNat) := by
  cases f
  all_goals
    cases raised <;>
      simp [apply, SetsFlag, Raises, UInt8.lt_iff_toNat_lt, UInt8.le_iff_toNat_le,
        ← UInt8.toNat_inj]

/-- A shift reads its operand and no other number, and every other operation reads `VX` and `VY`. -/
theorem value_and_raises_congr {f : AluOp} {vx vy s vx' vy' s' : Nat}
    (hshift : f.isShift = true → s = s') (hother : f.isShift = false → vx = vx' ∧ vy = vy') :
    f.value vx vy s = f.value vx' vy' s' ∧ (f.Raises vx vy s ↔ f.Raises vx' vy' s') := by
  cases f with
  | shiftRight | shiftLeft =>
    obtain rfl := hshift rfl
    exact ⟨rfl, Iff.rfl⟩
  | _ =>
    obtain ⟨rfl, rfl⟩ := hother rfl
    exact ⟨rfl, Iff.rfl⟩

/-- Whatever the dialect, an operation works on two operands of which the first is the one that a
shift moves. -/
theorem exists_apply (f : AluOp) (legacyShift : Bool) (vx vy : Byte) :
    ∃ a b, f.evaluate legacyShift vx vy = f.apply a b ∧
      (f.isShift = true → a = operand legacyShift vx vy) ∧
      (f.isShift = false → a = vx ∧ b = vy) := by
  unfold evaluate operand
  cases hshift : f.isShift with
  | true =>
    rw [Bool.and_true]
    cases legacyShift with
    | true => exact ⟨vy, vy, rfl, fun _ => rfl, nofun⟩
    | false => exact ⟨vx, vy, rfl, fun _ => rfl, nofun⟩
  | false =>
    rw [Bool.and_false]
    exact ⟨vx, vy, rfl, nofun, fun _ => ⟨rfl, rfl⟩⟩

theorem toNat_evaluate (f : AluOp) (legacyShift : Bool) (vx vy : Byte) :
    ((f.evaluate legacyShift vx vy).1.toNat : Int) =
      f.value vx.toNat vy.toNat (operand legacyShift vx vy).toNat := by
  obtain ⟨a, b, hevaluate, hshift, hother⟩ := f.exists_apply legacyShift vx vy
  rw [hevaluate, toNat_apply]
  refine (value_and_raises_congr ?_ ?_).1
  · intro hf
    rw [hshift hf]
  · intro hf
    obtain ⟨rfl, rfl⟩ := hother hf
    exact ⟨rfl, rfl⟩

theorem evaluate_snd_eq_some_iff (f : AluOp) (legacyShift : Bool) (vx vy : Byte) (raised : Bool) :
    (f.evaluate legacyShift vx vy).2 = some raised ↔ f.SetsFlag ∧
      (raised = true ↔ f.Raises vx.toNat vy.toNat (operand legacyShift vx vy).toNat) := by
  obtain ⟨a, b, hevaluate, hshift, hother⟩ := f.exists_apply legacyShift vx vy
  rw [hevaluate, apply_snd_eq_some_iff]
  have hraises : f.Raises a.toNat b.toNat a.toNat ↔
      f.Raises vx.toNat vy.toNat (operand legacyShift vx vy).toNat := by
    refine (value_and_raises_congr ?_ ?_).2
    · intro hf
      rw [hshift hf]
    · intro hf
      obtain ⟨rfl, rfl⟩ := hother hf
      exact ⟨rfl, rfl⟩
  rw [hraises]

end AluOp

/-! ## Words -/

/-- The words of an operation. -/
theorem Opcode.instruction?_eq_alu_iff (op : Opcode) (f : AluOp) (x y : Nibble) :
    op.instruction? = some (.alu f x y) ↔
      Fits op.word.toNat f.pattern ∧ op.x = x ∧ op.y = y := by
  constructor
  · intro hop
    obtain ⟨-, hlow⟩ := (op.word_eq_word_iff _).mp (instruction?_eq_some_iff.mp hop)
    obtain ⟨hx, hy, -⟩ := op.x_y_n_of_operands hlow
    exact ⟨fits_pattern hop, hx, hy⟩
  · rintro ⟨hfits, rfl, rfl⟩
    rw [instruction?_eq_some_iff, word_eq_word_iff]
    simp only [Fits, FitsPlaces, patternPlaces_aluOp, wordDigits_word, List.forall₂_cons,
      Option.mem_some, forall_eq', List.Forall₂.nil, and_true] at hfits
    obtain ⟨hfamily, -, -, hcode⟩ := hfits
    refine ⟨hfamily, ?_⟩
    simp only [Instruction.operands, ← hcode, val_x, val_y, val_n]
    omega

namespace State

variable {w h : Nat}

/-! ## Registers -/

/-- The operand that the dialect gives a shift. -/
def shiftOperand (s : State w h) (x y : Nibble) : Byte :=
  AluOp.operand s.dialect.legacyShift (s.v x) (s.v y)

/-- What an arithmetic word leaves behind, told from what the registers held before it. -/
structure Computes (s t : State w h) (f : AluOp) (x y : Nibble) : Prop where
  result : ((t.v x).toNat : Int) =
    f.value (s.v x).toNat (s.v y).toNat (s.shiftOperand x y).toNat
  raised : x ≠ flagRegister → f.SetsFlag →
    f.Raises (s.v x).toNat (s.v y).toNat (s.shiftOperand x y).toNat → t.v flagRegister = 1
  lowered : x ≠ flagRegister → f.SetsFlag →
    ¬ f.Raises (s.v x).toNat (s.v y).toNat (s.shiftOperand x y).toNat → t.v flagRegister = 0
  flag_kept : x ≠ flagRegister → ¬ f.SetsFlag → t.v flagRegister = s.v flagRegister
  others : ∀ j, j ≠ x → j ≠ flagRegister → t.v j = s.v j
  rest : t = { s with registers := t.registers }

theorem v_alu_self (s : State w h) (f : AluOp) (x y : Nibble) :
    (s.alu f x y).v x = (f.evaluate s.dialect.legacyShift (s.v x) (s.v y)).1 := by
  cases hflag : (f.evaluate s.dialect.legacyShift (s.v x) (s.v y)).2 with
  | none => rw [alu_of_none hflag, v_setV, if_pos rfl]
  | some raised => rw [alu_of_some hflag, v_setV, if_pos rfl]

theorem v_alu_flag (s : State w h) {f : AluOp} {x y : Nibble} (hx : x ≠ flagRegister) :
    (s.alu f x y).v flagRegister =
      ((f.evaluate s.dialect.legacyShift (s.v x) (s.v y)).2.map Byte.ofFlag).getD
        (s.v flagRegister) := by
  cases hflag : (f.evaluate s.dialect.legacyShift (s.v x) (s.v y)).2 with
  | none =>
    rw [alu_of_none hflag, v_setV, if_neg hx]
    rfl
  | some raised =>
    rw [alu_of_some hflag, v_setV, if_neg hx, setFlag, v_setV, if_pos rfl]
    rfl

theorem alu_computes (s : State w h) (f : AluOp) (x y : Nibble) :
    Computes s (s.alu f x y) f x y := by
  have hflag := f.evaluate_snd_eq_some_iff s.dialect.legacyShift (s.v x) (s.v y)
  exact {
    result := by rw [v_alu_self, AluOp.toNat_evaluate, shiftOperand]
    raised := by
      intro hx hsets hraises
      rw [v_alu_flag s hx, (hflag true).mpr ⟨hsets, iff_of_true rfl hraises⟩]
      rfl
    lowered := by
      intro hx hsets hraises
      rw [v_alu_flag s hx, (hflag false).mpr ⟨hsets, iff_of_false Bool.false_ne_true hraises⟩]
      rfl
    flag_kept := by
      intro hx hsets
      rw [v_alu_flag s hx, (f.evaluate_snd_eq_none_iff _ _ _).mpr (not_not.mp hsets)]
      rfl
    others := fun j hx hj => v_alu_of_ne s hx hj
    rest := alu_eq s f x y }

/-- A word of the family is carried out in every state, and computes what its pattern says from the
registers `VX` and `VY` as they were, also where they are one register or the flag register. -/
theorem execute_alu_computes (s : State w h) {op : Opcode} {f : AluOp}
    (hfits : Fits op.word.toNat f.pattern) :
    ∃ t, s.execute op = .ok t ∧ Computes s t f op.x op.y := by
  have hop := (op.instruction?_eq_alu_iff f op.x op.y).mpr ⟨hfits, rfl, rfl⟩
  exact ⟨s.alu f op.x op.y, execute_eq_ok_iff.mpr ⟨_, hop, rfl⟩, s.alu_computes f op.x op.y⟩

/-- The flag register is the operand that a difference is taken from, and receives the flag. -/
theorem execute_alu_computes_of_flag_operand : ∃ s t : State 64 32,
    (create 64 32 ⟨0, 0⟩ [0x61, 0x10, 0x6F, 0x20] {} 16).mapError .fault >>=
      (·.run [.step, .step]) = .ok s ∧
    Fits (Opcode.ofInt 0x81F7).word.toNat AluOp.subtractFrom.pattern ∧
    s.execute (.ofInt 0x81F7) = .ok t ∧ Computes s t .subtractFrom 1 0xF ∧
    t.v 1 = 0x10 ∧ t.v 0xF = 1 := by
  have hvalues : (do
      let s ← (create 64 32 ⟨0, 0⟩ [0x61, 0x10, 0x6F, 0x20] {} 16).mapError .fault >>=
        (·.run [.step, .step])
      let t ← (s.execute (.ofInt 0x81F7)).mapError Failure.fault
      return (t.v 1, t.v 0xF)) = Except.ok (0x10, 1) := by
    decide +kernel
  obtain ⟨s, hs, hvalues⟩ := bind_eq_ok_iff.mp hvalues
  obtain ⟨t, hexecute, hvalues⟩ := bind_mapError_eq_ok_iff.mp hvalues
  obtain ⟨hresult, hflag⟩ := Prod.mk.inj (Except.ok.inj hvalues)
  have hfits : Fits (Opcode.ofInt 0x81F7).word.toNat AluOp.subtractFrom.pattern := by decide
  obtain ⟨t', hexecute', hcomputes⟩ := execute_alu_computes s hfits
  obtain rfl : t = t' := Except.ok.inj (hexecute.symm.trans hexecute')
  exact ⟨s, t, hs, hfits, hexecute, hcomputes, hresult, hflag⟩

end State

end ChipEight
