import ChipEight.Proofs.Footprint

/-!
# What memory holds after a run

Two instructions put bytes down, both from the index register on and past the end of memory into
its beginning: `FX55` the registers up to `VX`, and `FX33` the digits of `VX`. `Stores a b turn`
says that an instruction, in the state in which it is carried out, puts the byte `b` at `a`.

* `perform_memory`: an instruction puts its bytes down and leaves the rest of memory alone.
* `lastStored_append`: the last store of a run that goes on for one more instruction.
* `run_memory_lastStored`: after a run each address holds what the last store to it has put there,
  or what it held at the start.
-/

namespace ChipEight.State

variable {w h : Nat}

/-! ## The two stores -/

/-- Three decimal digits of a byte, the highest first. -/
structure IsDecimal (value d₀ d₁ d₂ : Byte) : Prop where
  le_nine : ∀ d ∈ [d₀, d₁, d₂], d.toNat ≤ 9
  sum_eq : 100 * d₀.toNat + 10 * d₁.toNat + d₂.toNat = value.toNat

/-- The instruction, carried out in this state, puts the byte at the address. -/
inductive Stores (a : Address) : Byte → State w h × Instruction → Prop
  | register {s : State w h} {x j : Nibble} (hj : j ≤ x)
      (ha : a.val = (s.index.toNat + j.val) % 4096) : Stores a (s.v j) (s, .storeRegisters x)
  | digit {s : State w h} {x : Nibble} {b d₀ d₁ d₂ : Byte} {j : Nat}
      (hdecimal : IsDecimal (s.v x) d₀ d₁ d₂) (hb : [d₀, d₁, d₂][j]? = some b)
      (ha : a.val = (s.index.toNat + j) % 4096) : Stores a b (s, .storeDecimal x)

/-- The bytes that an instruction puts down from the index register on. -/
def bytesStored (s : State w h) : Instruction → List Byte
  | .storeDecimal x => decimalDigits (s.v x)
  | .storeRegisters x => s.registers.toList.take (x.val + 1)
  | _ => []

theorem length_bytesStored_le (s : State w h) (i : Instruction) :
    (s.bytesStored i).length ≤ 16 := by
  cases i with
  | storeDecimal x => simp [bytesStored, decimalDigits]
  | storeRegisters x =>
    rw [bytesStored, List.length_take]
    omega
  | _ => exact Nat.zero_le _

theorem getElem?_registers (s : State w h) {x j : Nibble} (hj : j ≤ x) :
    (s.registers.toList.take (x.val + 1))[j.val]? = some (s.v j) := by
  rw [List.getElem?_take_of_lt (Nat.lt_succ_of_le hj)]
  simp [v]

/-- The three bytes of a decimal are known by their digits. -/
theorem isDecimal_iff {value d₀ d₁ d₂ : Byte} :
    IsDecimal value d₀ d₁ d₂ ↔ [d₀, d₁, d₂] = decimalDigits value := by
  have := value.toNat_lt
  simp only [decimalDigits, List.cons.injEq, and_true, ← UInt8.toNat_inj, UInt8.toNat_div,
    UInt8.toNat_mod, UInt8.reduceToNat]
  constructor
  · rintro ⟨hle, hsum⟩
    have h₀ := hle d₀ (by simp)
    have h₁ := hle d₁ (by simp)
    have h₂ := hle d₂ (by simp)
    omega
  · rintro ⟨h₀, h₁, h₂⟩
    refine ⟨?_, by omega⟩
    simp only [List.forall_mem_cons, List.not_mem_nil, false_imp_iff, implies_true, and_true]
    omega

/-- The place that lies so far behind the index register, counted around the end of memory. -/
theorem distance_ofWord_eq_iff {a : Address} {i : Word} {j : Nat} (hj : j < 4096) :
    (a - Address.ofWord i).val = j ↔ a.val = (i.toNat + j) % 4096 := by
  have := a.isLt
  rw [Fin.sub_def]
  simp only [Address.val_ofWord]
  omega

/-- The byte of a store, by its distance from the index register. -/
theorem stores_iff {a : Address} {b : Byte} {s : State w h} {i : Instruction} :
    Stores a b (s, i) ↔ (s.bytesStored i)[(a - Address.ofWord s.index).val]? = some b := by
  constructor
  · intro hstores
    cases hstores with
    | @register _ x j hj ha =>
      rw [(distance_ofWord_eq_iff (by omega)).mpr ha]
      exact s.getElem?_registers hj
    | @digit _ x _ _ _ _ j hdecimal hb ha =>
      have hj : j < 3 := (List.getElem?_eq_some_iff.mp hb).1
      rw [(distance_ofWord_eq_iff (by omega)).mpr ha, bytesStored, ← isDecimal_iff.mp hdecimal]
      exact hb
  · intro hb
    generalize hdistance : (a - Address.ofWord s.index).val = j at hb
    have hlt : j < (s.bytesStored i).length := (List.getElem?_eq_some_iff.mp hb).1
    have hj : j < 16 := Nat.lt_of_lt_of_le hlt (s.length_bytesStored_le i)
    have ha := (distance_ofWord_eq_iff (by omega)).mp hdistance
    cases i with
    | storeDecimal x => exact .digit (isDecimal_iff.mpr rfl) hb ha
    | storeRegisters x =>
      have hle : (⟨j, hj⟩ : Nibble) ≤ x := by
        rw [bytesStored, List.length_take] at hlt
        show j ≤ x.val
        omega
      rw [bytesStored, s.getElem?_registers hle] at hb
      cases hb
      exact .register hle ha
    | _ => cases hb

/-! ## One instruction -/

/-- Instructions change memory by the bytes that they store, and not otherwise. -/
theorem perform_memory {s t : State w h} {i : Instruction} (hperform : s.perform i = .ok t) :
    t.memory = s.memory.writeAll (Address.ofWord s.index) (s.bytesStored i) := by
  cases i with
  | storeDecimal x | storeRegisters x =>
    cases hperform
    rfl
  | alu f x y =>
    cases hperform
    rw [alu_eq]
    rfl
  | _ =>
    by_contra hne
    have hchanged : Changed s t .memory := hne
    have howns := perform_changed hperform hchanged
    simp [Instruction.pattern, Part.owners] at howns

/-- After an instruction an address holds the byte that the instruction puts there; where it puts
none, the address holds what it held. -/
theorem perform_read {s t : State w h} {i : Instruction} (hperform : s.perform i = .ok t)
    (a : Address) : (∀ b, Stores a b (s, i) ↔ b = t.memory.read a) ∨
      (∀ b, ¬ Stores a b (s, i)) ∧ t.memory.read a = s.memory.read a := by
  have hlength : (s.bytesStored i).length ≤ 4096 := by
    have := s.length_bytesStored_le i
    omega
  have hread : t.memory.read a =
      (s.bytesStored i).getD (a - Address.ofWord s.index).val (s.memory.read a) := by
    rw [perform_memory hperform, Memory.read_writeAll hlength]
  rw [hread, List.getD_eq_getElem?_getD]
  simp only [stores_iff]
  cases (s.bytesStored i)[(a - Address.ofWord s.index).val]? with
  | none => exact Or.inr ⟨fun b hb => Option.some_ne_none b hb.symm, rfl⟩
  | some c => exact Or.inl fun b => by rw [Option.some_inj, Option.getD_some, eq_comm]

/-! ## The last store of a run -/

/-- The last instruction of the list that puts a byte at the address puts this one. -/
def LastStored (trace : List (State w h × Instruction)) (a : Address) (b : Byte) : Prop :=
  ∃ before turn later, trace = before ++ turn :: later ∧ Stores a b turn ∧
    ∀ turn' ∈ later, ∀ c, ¬ Stores a c turn'

/-- No instruction of the list puts a byte at the address. -/
def NeverStored (trace : List (State w h × Instruction)) (a : Address) : Prop :=
  ∀ turn ∈ trace, ∀ b, ¬ Stores a b turn

theorem neverStored_append {trace : List (State w h × Instruction)}
    {turn : State w h × Instruction} {a : Address} :
    NeverStored (trace ++ [turn]) a ↔ NeverStored trace a ∧ ∀ b, ¬ Stores a b turn := by
  simp only [NeverStored, List.forall_mem_append, List.forall_mem_singleton]

/-- What is stored last, when one more instruction follows. -/
theorem lastStored_append {trace : List (State w h × Instruction)}
    {turn : State w h × Instruction} {a : Address} {b : Byte} :
    LastStored (trace ++ [turn]) a b ↔
      Stores a b turn ∨ (∀ c, ¬ Stores a c turn) ∧ LastStored trace a b := by
  constructor
  · rintro ⟨before, turn', later, heq, hstores, hlater⟩
    rcases List.eq_nil_or_concat later with rfl | ⟨between, last, rfl⟩
    · obtain ⟨-, hturn⟩ := List.append_inj' heq rfl
      cases hturn
      exact Or.inl hstores
    · rw [List.concat_eq_append, ← List.cons_append, ← List.append_assoc] at heq
      obtain ⟨htrace, hturn⟩ := List.append_inj' heq rfl
      cases hturn
      rw [List.concat_eq_append] at hlater
      refine Or.inr ⟨hlater turn (by simp), before, turn', between, htrace, hstores, ?_⟩
      intro turn'' hmem
      exact hlater turn'' (List.mem_append_left _ hmem)
  · rintro (hstores | ⟨hnot, before, turn', later, rfl, hstores, hlater⟩)
    · exact ⟨trace, turn, [], rfl, hstores, by simp⟩
    · refine ⟨before, turn', later ++ [turn], by simp, hstores, ?_⟩
      rw [List.forall_mem_append, List.forall_mem_singleton]
      exact ⟨hlater, hnot⟩

/-- What memory holds at an address follows from the stores so far and from what it held before
them. -/
def Remembers (before : Memory) (a : Address) (trace : List (State w h × Instruction))
    (s : State w h) : Prop :=
  (∀ b, LastStored trace a b ↔ b = s.memory.read a) ∨
    NeverStored trace a ∧ s.memory.read a = before.read a

/-- An instruction keeps what memory remembers in step with what has been stored. -/
theorem Remembers.perform {before : Memory} {a : Address}
    {trace : List (State w h × Instruction)} {s t : State w h} {i : Instruction}
    (hs : Remembers before a trace s) (hperform : s.perform i = .ok t) :
    Remembers before a (trace ++ [(s, i)]) t := by
  rcases perform_read hperform a with hstores | ⟨hnot, hread⟩
  · refine Or.inl fun b => ?_
    rw [lastStored_append, hstores]
    have hsome : ¬ ∀ c, ¬ Stores a c (s, i) := fun hnone => hnone _ ((hstores _).mpr rfl)
    simp only [hsome, false_and, or_false]
  · rw [Remembers, neverStored_append, hread]
    simp only [lastStored_append, hnot, not_false_eq_true, implies_true, false_or, true_and,
      and_true]
    exact hs

theorem Remembers.act {before : Memory} {a : Address} {trace : List (State w h × Instruction)}
    {s t : State w h} {action : Action} (hs : Remembers before a trace s)
    (hact : s.act action = .ok t) :
    Remembers before a (trace ++ (s.instruction? action).toList) t := by
  rcases act_instruction? hact with ⟨u, i, hi, hu, hperform⟩ | ⟨hnone, hother⟩
  · rw [hi]
    have hmemory : u.memory = s.memory := by
      rcases hu with rfl | rfl <;> rfl
    have hbefore : Remembers before a trace u := by
      rw [Remembers, hmemory]
      exact hs
    exact hbefore.perform hperform
  · rw [hnone, Option.toList_none, List.append_nil]
    rcases hother with ⟨count, rfl⟩ | ⟨held, pressed, rfl⟩ <;> exact hs

/-- After a run every address holds the byte that the last store to it has put there, or what it
held at the start where there was no such store. The stores are the words `FX55` and `FX33`. -/
theorem run_memory_lastStored {s₀ s : State w h} {actions : List Action}
    (hrun : s₀.run actions = .ok s) :
    (∀ a, (∀ b, LastStored (s₀.performed actions) a b ↔ b = s.memory.read a) ∨
      NeverStored (s₀.performed actions) a ∧ s.memory.read a = s₀.memory.read a) ∧
    (∀ (op : Opcode) x, op.instruction? = some (.storeRegisters x) ↔
      Fits op.word.toNat "FX55" ∧ op.x = x) ∧
    ∀ (op : Opcode) x, op.instruction? = some (.storeDecimal x) ↔
      Fits op.word.toNat "FX33" ∧ op.x = x := by
  refine ⟨?_, ?_, ?_⟩
  · intro a
    have hstart : Remembers s₀.memory a [] s₀ := Or.inr ⟨by simp [NeverStored], rfl⟩
    have hend := run_induction_performed (P := Remembers s₀.memory a)
      (fun hs hact => hs.act hact) hstart hrun
    exact hend
  · intro op x
    exact op.instruction?_eq_storeRegisters_iff x
  · intro op x
    exact op.instruction?_eq_storeDecimal_iff x

/-- The digits of 254, put down across the end of memory: the second of them is at address 0. -/
theorem run_memory_lastStored_of_wrap : ∃ s₀ s : State 64 32,
    create 64 32 ⟨0, 0⟩ [0x60, 0xFE, 0xAF, 0xFF, 0xF0, 0x33] {} 16 = .ok s₀ ∧
    s₀.run [.step, .step, .step] = .ok s ∧ s₀.memory.read 0 = 0xF0 ∧ s.memory.read 0 = 5 ∧
    ∀ b, LastStored (s₀.performed [.step, .step, .step]) 0 b ↔ b = 5 := by
  have hread : (do
      let s₀ ← (create 64 32 ⟨0, 0⟩ [0x60, 0xFE, 0xAF, 0xFF, 0xF0, 0x33] {} 16).mapError
        Failure.fault
      let s ← s₀.run [.step, .step, .step]
      return (s₀.memory.read 0, s.memory.read 0)) = Except.ok (0xF0, 5) := by
    decide +kernel
  obtain ⟨s₀, hcreate, hread⟩ := bind_mapError_eq_ok_iff.mp hread
  obtain ⟨s, hrun, hread⟩ := bind_eq_ok_iff.mp hread
  obtain ⟨hbefore, hafter⟩ := Prod.mk.inj (Except.ok.inj hread)
  refine ⟨s₀, s, hcreate, hrun, hbefore, hafter, ?_⟩
  rcases (run_memory_lastStored hrun).1 0 with hlast | ⟨-, hkept⟩
  · intro b
    rw [hlast b, hafter]
  · rw [hbefore, hafter] at hkept
    exact absurd hkept (by decide)

end ChipEight.State
