import Mathlib.Data.List.GetD
import ChipEight.Proofs.CheckedAccess
import ChipEight.Proofs.WordPatterns

/-!
# Instructions pass their checks

Registers and keys are named by four bits of a word or of a byte, and cells of memory by twelve;
masks keep them within their arrays. The pointer of a call stack never exceeds the number of its
slots, which is part of every state. So the checks of `Checked` pass, and a handler does what the
instruction does that its word stands for. Sprites have a module of their own.

* `Checked.index_of_lt`: a check that passes, and after it one lemma for each kind of access.
* `Checked.push_eq`, `Checked.pop_eq`: the call stack.
* `Fields.ofWord_eq`: masks and shifts find the digits of a word.
* `Checked.answer`: what comes of an instruction. Each handler is compared with it.
-/

namespace ChipEight

namespace Checked

variable {w h : Nat}

theorem ok_bind {α β : Type} (a : α) (next : α → Except Trap β) :
    (Except.ok a >>= next) = next a := rfl

/-! ## Checks that pass -/

theorem index_of_lt (store : Store) {size n : Nat} (hn : n < size) :
    index store size n = .ok ⟨n, hn⟩ := by
  have hrange : (0 : Int) ≤ n ∧ (n : Int) < size := by omega
  rw [index, dif_pos hrange]
  rfl

theorem index_val (store : Store) {size : Nat} (i : Fin size) :
    index store size i.val = .ok i := index_of_lt store i.isLt

theorem index_masked (k : Nat) :
    index .memory 4096 (k &&& 0xFFF : Nat) = .ok (Fin.ofNat 4096 k) := by
  rw [Nat.and_two_pow_sub_one_eq_mod k 12]
  exact index_val .memory (Fin.ofNat 4096 k)

theorem remainder_of_pos (a : Int) {b : Int} (hb : 0 < b) : remainder a b = .ok (a % b) := by
  rw [remainder, if_neg (by omega)]

@[simp] theorem readRegister_val (s : State w h) (x : Nibble) :
    readRegister s x.val = .ok (s.v x) := by
  rw [readRegister, index_val]
  rfl

@[simp] theorem writeRegister_val (s : State w h) (x : Nibble) (b : Byte) :
    writeRegister s x.val b = .ok (s.setV x b) := by
  rw [writeRegister, index_val]
  rfl

@[simp] theorem writeFlag_eq (s : State w h) (flag : Bool) :
    writeFlag s flag = .ok (s.setFlag flag) := writeRegister_val s flagRegister (Byte.ofFlag flag)

@[simp] theorem readMemory_masked (m : Memory) (k : Nat) :
    readMemory m (k &&& 0xFFF : Nat) = .ok (m.read (Fin.ofNat 4096 k)) := by
  rw [readMemory, index_masked]
  rfl

@[simp] theorem writeMemory_masked (m : Memory) (k : Nat) (b : Byte) :
    writeMemory m (k &&& 0xFFF : Nat) b = .ok (m.write (Fin.ofNat 4096 k) b) := by
  rw [writeMemory, index_masked]
  rfl

theorem readKey_masked (s : State w h) (k : Nat) :
    readKey s (k &&& 0xF : Nat) = .ok s.held[(Fin.ofNat 16 k : Nibble)] := by
  have hmask : k &&& 0xF = (Fin.ofNat 16 k : Nibble).val := Nat.and_two_pow_sub_one_eq_mod k 4
  rw [readKey, hmask, index_val]
  rfl

/-! ## The call stack -/

theorem push_eq (stack : CallStack) (address origin : Int) :
    push stack address origin = (stack.push address origin).mapError .fault := by
  unfold push CallStack.push
  by_cases hroom : stack.depth < stack.slots.size
  · rw [dif_pos hroom, if_neg (by omega), index_of_lt _ hroom]
    rfl
  · rw [dif_neg hroom, if_pos (by omega)]
    rfl

theorem pop_eq (stack : CallStack) (origin : Int) :
    pop stack origin = (stack.pop origin).mapError .fault := by
  unfold pop CallStack.pop
  by_cases hused : 0 < stack.depth
  · have htop : stack.depth - 1 < stack.slots.size := by
      have := stack.depth_le
      omega
    have hpointer : (stack.depth : Int) - 1 = (stack.depth - 1 : Nat) := by omega
    rw [dif_pos hused, if_neg (by omega), hpointer, index_of_lt _ htop]
    rfl
  · rw [dif_neg hused, if_pos (by omega)]
    rfl

end Checked

/-! ## Operands -/

def Opcode.fields (op : Opcode) : Fields where
  raw := op.word.toNat
  family := op.family.val
  x := op.x.val
  y := op.y.val
  n := op.n.val
  nn := op.nn.toNat
  nnn := op.nnn.val

/-- Masks and shifts find the digits of a word. -/
theorem Fields.ofWord_eq (word : Int) : ofWord word = (Opcode.ofInt word).fields := by
  have hraw : (word % 65536).toNat = (Opcode.ofInt word).word.toNat :=
    (Opcode.toNat_word_ofInt word).symm
  unfold ofWord Opcode.fields
  rw [hraw]
  generalize (Opcode.ofInt word) = op
  have hlt := op.word.toNat_lt
  have hdigit (k : Nat) : op.word.toNat >>> k &&& 0xF = op.word.toNat / 2 ^ k % 16 := by
    rw [Nat.and_two_pow_sub_one_eq_mod _ 4, Nat.shiftRight_eq_div_pow]
  have hfamily : op.word.toNat / 4096 % 16 = op.word.toNat / 4096 := by omega
  have hn : op.word.toNat &&& 0xF = op.word.toNat % 16 := Nat.and_two_pow_sub_one_eq_mod _ 4
  have hnn : op.word.toNat &&& 0xFF = op.word.toNat % 256 := Nat.and_two_pow_sub_one_eq_mod _ 8
  have hnnn : op.word.toNat &&& 0xFFF = op.word.toNat % 4096 :=
    Nat.and_two_pow_sub_one_eq_mod _ 12
  simp only [Nat.shiftRight_and_distrib, Nat.reduceShiftRight, hdigit, Nat.reducePow, hfamily, hn,
    hnn, hnnn, Opcode.val_family, Opcode.val_x, Opcode.val_y, Opcode.val_n, Opcode.toNat_nn,
    Opcode.val_nnn]

namespace Checked

variable {w h : Nat}

theorem readRegister_x (s : State w h) (op : Opcode) :
    readRegister s op.fields.x = .ok (s.v op.x) := readRegister_val s op.x

theorem readRegister_y (s : State w h) (op : Opcode) :
    readRegister s op.fields.y = .ok (s.v op.y) := readRegister_val s op.y

theorem writeRegister_x (s : State w h) (op : Opcode) (b : Byte) :
    writeRegister s op.fields.x b = .ok (s.setV op.x b) := writeRegister_val s op.x b

theorem ofNat_masked (k : Nat) :
    UInt16.ofNat (k &&& 0xFFF) = Address.toWord (Fin.ofNat 4096 k) :=
  congrArg UInt16.ofNat (Nat.and_two_pow_sub_one_eq_mod k 12)

/-! ## Instructions -/

/-- What comes of an opcode for which this instruction was found, or none. -/
def answer (s : State w h) (op : Opcode) (found : Option Instruction) :
    Except Trap (State w h) :=
  match found with
  | some i => (s.perform i).mapError .fault
  | none => .error (.fault (.unknownOpcode op.hex s.origin.toNat))

theorem answer_instruction? (s : State w h) (op : Opcode) :
    answer s op op.instruction? = (s.execute op).mapError .fault := by
  unfold answer State.execute
  cases op.instruction? with
  | some i => rfl
  | none => rfl

theorem unknown_eq (s : State w h) (op : Opcode) : unknown s op.fields = answer s op none := by
  change Except.error (Trap.fault (.unknownOpcode (Opcode.ofInt op.word.toNat).hex _)) = _
  rw [Opcode.ofInt_word]
  rfl

theorem ret_eq (s : State w h) (op : Opcode) : (do
      let (stack, pc) ← pop s.stack s.origin.toNat
      return { s with stack, pc }) = answer s op (some .ret) := by
  change _ = (s.ret).mapError Trap.fault
  rw [pop_eq]
  unfold State.ret
  cases s.stack.pop s.origin.toNat with
  | error cause => rfl
  | ok r => rfl

theorem system_eq (s : State w h) (op : Opcode) : system s op.fields = answer s op op.plain? := by
  have hraw : op.fields.raw = op.word.toNat := rfl
  unfold system
  rw [hraw]
  split
  case h_1 hword =>
    rw [Opcode.plain?, hword]
    rfl
  case h_2 hword =>
    rw [Opcode.plain?, hword]
    exact ret_eq s op
  case h_3 =>
    have hnone : op.plain? = none := by
      rw [← Option.not_isSome_iff_eq_none, Opcode.isSome_plain?_iff]
      tauto
    rw [hnone]
    exact unknown_eq s op

theorem jump_eq (s : State w h) (op : Opcode) :
    jump s op.fields = answer s op (some (.jump op.nnn)) := rfl

theorem call_eq (s : State w h) (op : Opcode) :
    call s op.fields = answer s op (some (.call op.nnn)) := by
  unfold call
  rw [push_eq]
  change _ = (s.call op.nnn).mapError Trap.fault
  unfold State.call
  cases s.stack.push s.pc.toNat s.origin.toNat <;> rfl

theorem equalsByte_eq (s : State w h) (op : Opcode) :
    equalsByte s op.fields = .ok (s.v op.x == op.nn) := by
  have hbyte : (s.v op.x).toNat = op.nn.toNat ↔ s.v op.x = op.nn := UInt8.toNat_inj
  unfold equalsByte
  rw [readRegister_x]
  refine congrArg Except.ok ?_
  rw [Bool.eq_iff_iff, beq_iff_eq, beq_iff_eq]
  exact hbyte

theorem equalsRegister_eq (s : State w h) (op : Opcode) :
    equalsRegister s op.fields = .ok (s.v op.x == s.v op.y) := by
  unfold equalsRegister
  rw [readRegister_x, readRegister_y]
  rfl

theorem isHeld_eq (s : State w h) (op : Opcode) :
    isHeld s op.fields = .ok (s.isHeld op.x) := by
  unfold isHeld
  rw [readRegister_x]
  exact readKey_masked s (s.v op.x).toNat

theorem negated_eq {condition : State w h → Fields → Except Trap Bool} {s : State w h} {f : Fields}
    {b : Bool} (hcondition : condition s f = .ok b) : negated condition s f = .ok !b := by
  rw [negated, hcondition]
  rfl

theorem skipIf_eq {condition : State w h → Fields → Except Trap Bool} {s : State w h} {f : Fields}
    {b : Bool} (hcondition : condition s f = .ok b) :
    skipIf condition s f = .ok (s.skipIf b) := by
  rw [skipIf, hcondition]
  rfl

theorem skipIfRound_eq {condition : State w h → Fields → Except Trap Bool} {s : State w h}
    {op : Opcode} {b : Bool} {i : Instruction} (hcondition : condition s op.fields = .ok b)
    (hperform : s.perform i = .ok (s.skipIf b)) :
    skipIfRound condition s op.fields = answer s op (if op.n = 0 then some i else none) := by
  unfold skipIfRound
  by_cases hn : op.n = 0
  · have hzero : ¬ op.fields.n ≠ 0 := by simp [Opcode.fields, hn, -Opcode.val_n]
    rw [if_neg hzero, if_pos hn, skipIf_eq hcondition, answer, hperform]
    rfl
  · have hzero : op.fields.n ≠ 0 := fun h => hn (Fin.ext h)
    rw [if_pos hzero, if_neg hn]
    exact unknown_eq s op

theorem load_eq (s : State w h) (op : Opcode) :
    load s op.fields = answer s op (some (.load op.x op.nn)) := by
  have hnn : UInt8.ofNat op.fields.nn = op.nn := UInt8.ofNat_toNat
  unfold load
  rw [writeRegister_x, hnn]
  rfl

theorem increase_eq (s : State w h) (op : Opcode) :
    increase s op.fields = answer s op (some (.increase op.x op.nn)) := by
  have hsum : UInt8.ofNat (((s.v op.x).toNat + op.fields.nn) &&& 0xFF) = s.v op.x + op.nn := by
    apply UInt8.toNat_inj.mp
    rw [Nat.and_two_pow_sub_one_eq_mod _ 8, UInt8.toNat_ofNat', UInt8.toNat_add]
    exact Nat.mod_mod _ 256
  unfold increase
  rw [readRegister_x, ok_bind, hsum, writeRegister_x]
  rfl

theorem ofInt?_val (x : Nibble) : Nibble.ofInt? x.val = some x := by
  have hrange : (0 : Int) ≤ x.val ∧ (x.val : Int) < 16 := by omega
  rw [Nibble.ofInt?, dif_pos hrange]
  rfl

theorem alu_eq (s : State w h) (op : Opcode) : alu s op.fields =
    answer s op ((AluOp.ofNibble? op.n).map fun operation => .alu operation op.x op.y) := by
  have hn : (Nibble.ofInt? op.fields.n).bind AluOp.ofNibble? = AluOp.ofNibble? op.n := by
    change (Nibble.ofInt? op.n.val).bind AluOp.ofNibble? = _
    rw [ofInt?_val]
    rfl
  unfold alu
  rw [hn]
  cases AluOp.ofNibble? op.n with
  | none => exact unknown_eq s op
  | some operation =>
    change _ = Except.ok (s.alu operation op.x op.y)
    dsimp only
    rw [readRegister_x, ok_bind, readRegister_y, ok_bind]
    unfold State.alu
    rcases operation.evaluate s.dialect.legacyShift (s.v op.x) (s.v op.y) with ⟨result, _ | flag⟩
    · exact writeRegister_x s op result
    · rw [writeResult, writeFlag_eq]
      exact writeRegister_x (s.setFlag flag) op result

theorem jumpOffset_eq (s : State w h) (op : Opcode) :
    jumpOffset s op.fields = answer s op (some (.jumpOffset op.nnn)) := by
  have hpc : UInt16.ofNat ((op.fields.nnn + (s.v 0).toNat) &&& 0xFFF) =
      (op.nnn + Fin.ofNat 4096 (s.v 0).toNat).toWord := by
    rw [ofNat_masked, Fin.add_ofNat]
    rfl
  have hzero : readRegister s 0 = .ok (s.v 0) := readRegister_val s 0
  unfold jumpOffset
  rw [hzero, ok_bind, hpc]
  rfl

theorem random_eq (s : State w h) (op : Opcode) :
    random s op.fields = answer s op (some (.random op.x op.nn)) := by
  have hnn : UInt8.ofNat op.fields.nn = op.nn := UInt8.ofNat_toNat
  unfold random
  rw [writeRegister_x, hnn]
  rfl

/-! ### Timers, keys and the index register -/

theorem awaitKey_eq (s : State w h) (op : Opcode) :
    awaitKey s op.fields = answer s op (some (.awaitKey op.x)) := by
  change _ = Except.ok (s.awaitKey op.x)
  unfold awaitKey State.awaitKey
  cases s.pressed.toList.head? with
  | none => rfl
  | some key => exact writeRegister_x s op _

theorem setDelay_eq (s : State w h) (op : Opcode) :
    (do return { s with delay := ← readRegister s op.fields.x }) =
      answer s op (some (.setDelay op.x)) := by
  rw [readRegister_x]
  rfl

theorem setSound_eq (s : State w h) (op : Opcode) :
    (do return { s with sound := ← readRegister s op.fields.x }) =
      answer s op (some (.setSound op.x)) := by
  rw [readRegister_x]
  rfl

theorem increaseIndex_eq (s : State w h) (op : Opcode) :
    increaseIndex s op.fields = answer s op (some (.increaseIndex op.x)) := by
  have hindex (total : Nat) : UInt16.ofNat (total &&& 0xFFFF) = UInt16.ofNat total := by
    rw [Nat.and_two_pow_sub_one_eq_mod _ 16]
    exact UInt16.ofNat_mod_size
  unfold increaseIndex
  rw [readRegister_x, ok_bind]
  dsimp only
  rw [hindex, writeFlag_eq]
  rfl

theorem pointGlyph_eq (s : State w h) (op : Opcode) :
    pointGlyph s op.fields = answer s op (some (.pointGlyph op.x)) := by
  unfold pointGlyph
  rw [readRegister_x]
  change Except.ok { s with index := UInt16.ofNat ((s.v op.x).toNat * Memory.glyphSize) } = _
  rw [Nat.mul_comm]
  rfl

/-! ### Cells of memory -/

theorem cellPlace_eq (s : State w h) (j : Nat) :
    cellPlace s j = ((s.index.toNat + j) &&& 0xFFF : Nat) := rfl

theorem ofNat_add_one (k : Nat) : (Fin.ofNat 4096 k + 1 : Address) = Fin.ofNat 4096 (k + 1) :=
  Fin.ofNat_add k 1

theorem writeCells_eq (s : State w h) (bytes : List Byte) :
    writeCells s bytes = .ok (s.memory.writeAll (Address.ofWord s.index) bytes) := by
  -- By induction on the bytes, whose numbers go on from those already written.
  have hrun (m : Memory) (k : Nat) :
      (bytes.zipIdx k).foldlM (fun m b => writeMemory m (cellPlace s b.2) b.1) m =
        .ok (m.writeAll (Fin.ofNat 4096 (s.index.toNat + k)) bytes) := by
    induction bytes generalizing m k with
    | nil => rfl
    | cons b bs ih =>
      rw [List.zipIdx_cons, List.foldlM_cons, cellPlace_eq, writeMemory_masked]
      change List.foldlM _ (m.write _ b) _ = _
      rw [ih, Memory.writeAll_cons, ofNat_add_one, Nat.add_assoc]
  exact hrun s.memory 0

theorem window_eq_ok (s : State w h) : ∃ cells, window s = .ok cells ∧
    ∀ j : Fin 16, cells.get j = s.memory.read (Fin.ofNat 4096 (s.index.toNat + j.val)) := by
  refine ⟨Vector.ofFn fun j => s.memory.read (Fin.ofNat 4096 (s.index.toNat + j.val)), ?_,
    fun j => Vector.getElem_ofFn j.isLt⟩
  unfold window
  simp only [cellPlace_eq, readMemory_masked]
  exact Vector.ofFnM_pure

theorem indexAfterTransfer_eq (s : State w h) (op : Opcode) :
    indexAfterTransfer s op.fields = s.indexAfterTransfer op.x := by
  have hsum : UInt16.ofNat (s.index.toNat + op.x.val + 1) =
      s.index + UInt16.ofNat (op.x.val + 1) := by
    apply UInt16.toNat_inj.mp
    rw [UInt16.toNat_add, UInt16.toNat_ofNat', UInt16.toNat_ofNat']
    omega
  unfold indexAfterTransfer State.indexAfterTransfer
  rw [← hsum]
  rfl

theorem decimalDigits_eq (b : Byte) : State.decimalDigits b =
    [UInt8.ofNat (b.toNat / 100), UInt8.ofNat (b.toNat / 10 % 10), UInt8.ofNat (b.toNat % 10)] := by
  have hbyte {a : Byte} {n : Nat} (hn : a.toNat = n) : a = UInt8.ofNat n := by
    rw [← hn, UInt8.ofNat_toNat]
  have hhundred : (b / 100).toNat = b.toNat / 100 := UInt8.toNat_div b 100
  have hten : (b / 10).toNat = b.toNat / 10 := UInt8.toNat_div b 10
  have htens : (b / 10 % 10).toNat = b.toNat / 10 % 10 := by
    rw [← hten]
    exact UInt8.toNat_mod (b / 10) 10
  have hunits : (b % 10).toNat = b.toNat % 10 := UInt8.toNat_mod b 10
  rw [State.decimalDigits, hbyte hhundred, hbyte htens, hbyte hunits]

theorem storeDecimal_eq (s : State w h) (op : Opcode) :
    storeDecimal s op.fields = answer s op (some (.storeDecimal op.x)) := by
  unfold storeDecimal
  rw [readRegister_x, ok_bind]
  dsimp only
  rw [← decimalDigits_eq, writeCells_eq, ok_bind]
  rfl

/-- Cells that receive what they hold need not be written. -/
theorem writeAll_window (s : State w h) (x : Nibble) :
    s.memory.writeAll (Address.ofWord s.index) ((List.finRange 16).map fun j =>
        if j.val ≤ x.val then s.v j
        else s.memory.read (Fin.ofNat 4096 (s.index.toNat + j.val))) =
      s.memory.writeAll (Address.ofWord s.index) (s.registers.toList.take (x.val + 1)) := by
  have hlength : (s.registers.toList.take (x.val + 1)).length = x.val + 1 := by
    rw [List.length_take, Vector.length_toList]
    omega
  refine Memory.ext_read fun a => ?_
  rw [Memory.read_writeAll (by simp), Memory.read_writeAll (by omega)]
  have ha : Fin.ofNat 4096 (s.index.toNat + (a - Address.ofWord s.index).val) = a := by
    rw [← Address.ofWord_add_ofNat]
    ext
    simp only [Fin.val_add, Fin.sub_def, Fin.val_ofNat]
    omega
  -- A cell at distance `d` is stored to, written with what it holds, or out of reach.
  generalize (a - Address.ofWord s.index).val = d at ha ⊢
  by_cases hd : d < 16
  · rw [List.getD_eq_getElem _ _ (by simpa using hd), List.getElem_map, List.getElem_finRange]
    by_cases hx : d ≤ x.val
    · rw [List.getD_eq_getElem _ _ (by omega), List.getElem_take, Vector.getElem_toList]
      exact if_pos hx
    · rw [List.getD_eq_default _ _ (by omega)]
      exact (if_neg hx).trans (congrArg s.memory.read ha)
  · rw [List.getD_eq_default _ _ (by simpa using hd), List.getD_eq_default _ _ (by omega)]

theorem storeRegisters_eq (s : State w h) (op : Opcode) :
    storeRegisters s op.fields = answer s op (some (.storeRegisters op.x)) := by
  have hx : op.fields.x = op.x.val := rfl
  obtain ⟨cells, hwindow, hcells⟩ := window_eq_ok s
  unfold storeRegisters
  rw [hwindow, hx, ok_bind]
  simp only [hcells]
  rw [writeCells_eq, writeAll_window, ok_bind, indexAfterTransfer_eq]
  rfl

theorem loadRegisters_eq (s : State w h) (op : Opcode) :
    loadRegisters s op.fields = answer s op (some (.loadRegisters op.x)) := by
  have hx : op.fields.x = op.x.val := rfl
  obtain ⟨cells, hwindow, hcells⟩ := window_eq_ok s
  change _ = Except.ok (s.loadRegisters op.x)
  unfold loadRegisters State.loadRegisters
  rw [hwindow, hx, ok_bind, indexAfterTransfer_eq]
  simp only [hcells, Address.ofWord_add_ofNat]
  rfl

theorem keys_eq (s : State w h) (op : Opcode) : keys s op.fields = answer s op op.key? := by
  have hnn : op.fields.nn = op.nn.toNat := rfl
  unfold keys
  rw [hnn]
  split
  case h_1 hlow =>
    rw [Opcode.key?, hlow]
    exact skipIf_eq (isHeld_eq s op)
  case h_2 hlow =>
    rw [Opcode.key?, hlow]
    exact skipIf_eq (negated_eq (isHeld_eq s op))
  case h_3 =>
    have hnone : op.key? = none := by
      rw [← Option.not_isSome_iff_eq_none, Opcode.isSome_key?_iff]
      tauto
    rw [hnone]
    exact unknown_eq s op

theorem devices_eq (s : State w h) (op : Opcode) :
    devices s op.fields = answer s op op.device? := by
  have hnn : op.fields.nn = op.nn.toNat := rfl
  unfold devices
  rw [hnn]
  split
  case h_1 hlow =>
    rw [Opcode.device?, hlow]
    exact writeRegister_x s op s.delay
  case h_2 hlow =>
    rw [Opcode.device?, hlow]
    exact awaitKey_eq s op
  case h_3 hlow =>
    rw [Opcode.device?, hlow]
    exact setDelay_eq s op
  case h_4 hlow =>
    rw [Opcode.device?, hlow]
    exact setSound_eq s op
  case h_5 hlow =>
    rw [Opcode.device?, hlow]
    exact increaseIndex_eq s op
  case h_6 hlow =>
    rw [Opcode.device?, hlow]
    exact pointGlyph_eq s op
  case h_7 hlow =>
    rw [Opcode.device?, hlow]
    exact storeDecimal_eq s op
  case h_8 hlow =>
    rw [Opcode.device?, hlow]
    exact storeRegisters_eq s op
  case h_9 hlow =>
    rw [Opcode.device?, hlow]
    exact loadRegisters_eq s op
  case h_10 =>
    have hnone : op.device? = none := by
      rw [← Option.not_isSome_iff_eq_none, Opcode.isSome_device?_iff]
      simp only [List.mem_cons, List.not_mem_nil, or_false]
      tauto
    rw [hnone]
    exact unknown_eq s op

end Checked

end ChipEight
