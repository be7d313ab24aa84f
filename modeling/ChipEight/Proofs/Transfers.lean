import Mathlib.Algebra.Ring.Nat
import ChipEight.Proofs.LastStored

/-!
# Transfers between registers and memory

`FX55` puts `V0` to `VX` down from the index register on, and `FX65` takes them up again. Both use a
window of `X + 1` places that goes on at the beginning of memory when it comes to the end, while the
index register itself goes on to sixteen bits.

* `State.Dumps`, `State.Loads`: a transfer by its window, from a start that can be any number.
* `State.Loads.of_dumps`, `State.Dumps.of_loads`: each of the two takes back the other.
* `State.run_transfers`: where the index register stands after transfers in a row.
* `State.dump_and_load_undo`: all of it for words, with the windows of transfers in a row one behind
  the other.
-/

namespace ChipEight

/-- The place `j` behind a start, where the beginning of memory follows its end. -/
def Address.offset (start : Nat) (j : Nibble) : Address := Fin.ofNat 4096 (start + j.val)

theorem Address.offset_congr {start start' : Nat} (hstart : start' % 4096 = start % 4096)
    (j : Nibble) : offset start' j = offset start j := by
  ext
  simp only [offset, Fin.val_ofNat]
  omega

/-- The word of a transfer. -/
def Opcode.Transfers (op : Opcode) : Prop :=
  Fits op.word.toNat "FX55" ∨ Fits op.word.toNat "FX65"

/-- How many registers the words transfer. -/
def Opcode.span (ops : List Opcode) : Nat := (ops.map fun op => op.x.val + 1).sum

theorem Opcode.instruction?_eq_loadRegisters_iff (op : Opcode) (x : Nibble) :
    op.instruction? = some (.loadRegisters x) ↔ Fits op.word.toNat "FX65" ∧ op.x = x :=
  instruction?_eq_iff_of_lastByte (f := 15) (y := 6) (n := 5) (by decide) rfl rfl

namespace State

variable {w h : Nat} {s s₁ s₂ t : State w h} {start start' : Nat} {x : Nibble}

/-! ## Windows -/

/-- The second state is the first with `V0` to `VX` put down from a start on; the index register
apart, nothing else has changed. -/
structure Dumps (start : Nat) (x : Nibble) (s t : State w h) : Prop where
  written : ∀ j ≤ x, t.memory.read (Address.offset start j) = s.v j
  outside : ∀ a, (∀ j ≤ x, a ≠ Address.offset start j) → t.memory.read a = s.memory.read a
  rest : t = { s with memory := t.memory, index := t.index }

/-- The second state is the first with `V0` to `VX` taken up from a start on; the index register
apart, nothing else has changed. -/
structure Loads (start : Nat) (x : Nibble) (s t : State w h) : Prop where
  taken : ∀ j ≤ x, t.v j = s.memory.read (Address.offset start j)
  above : ∀ j, x < j → t.v j = s.v j
  rest : t = { s with registers := t.registers, index := t.index }

theorem storeRegisters_dumps (s : State w h) (x : Nibble) :
    Dumps s.index.toNat x s (s.storeRegisters x) := by
  have hperform : s.perform (.storeRegisters x) = .ok (s.storeRegisters x) := rfl
  refine ⟨?_, ?_, rfl⟩
  · intro j hj
    have hstores : Stores (Address.offset s.index.toNat j) (s.v j) (s, .storeRegisters x) :=
      .register hj rfl
    rcases perform_read hperform (Address.offset s.index.toNat j) with hread | ⟨hnone, -⟩
    · exact ((hread _).mp hstores).symm
    · exact absurd hstores (hnone _)
  · intro a houtside
    rcases perform_read hperform a with hread | ⟨-, hkept⟩
    · -- A byte that is put down at `a` is that of a register, so `a` lies in the window.
      have hstores := (hread _).mpr rfl
      generalize (s.storeRegisters x).memory.read a = b at hstores
      cases hstores with
      | @register _ _ j hj ha => exact absurd (Fin.ext ha) (houtside j hj)
    · exact hkept

theorem loadRegisters_loads (s : State w h) (x : Nibble) :
    Loads s.index.toNat x s (s.loadRegisters x) := by
  refine ⟨?_, ?_, by rw [loadRegisters_eq]⟩
  · intro j hj
    rw [v_loadRegisters, if_pos hj, Address.ofWord_add_ofNat]
    rfl
  · intro j hj
    rw [v_loadRegisters, if_neg (Fin.not_le.mpr hj)]

theorem Dumps.congr (hdumps : Dumps start x s t) (hstart : start' % 4096 = start % 4096) :
    Dumps start' x s t := by
  obtain ⟨hwritten, houtside, hrest⟩ := hdumps
  simp only [← Address.offset_congr hstart] at hwritten houtside
  exact ⟨hwritten, houtside, hrest⟩

theorem Loads.congr (hloads : Loads start x s t) (hstart : start' % 4096 = start % 4096) :
    Loads start' x s t := by
  obtain ⟨htaken, habove, hrest⟩ := hloads
  simp only [← Address.offset_congr hstart] at htaken
  exact ⟨htaken, habove, hrest⟩

/-! ## There and back -/

/-- What has been put down is taken up again, from every state that still holds it. -/
theorem Loads.of_dumps (hdumps : Dumps start x s s₁)
    (hkept : ∀ j ≤ x, s₂.memory.read (Address.offset start j) =
      s₁.memory.read (Address.offset start j))
    (hloads : Loads start x s₂ t) : ∀ j ≤ x, t.v j = s.v j := by
  intro j hj
  rw [hloads.taken j hj, hkept j hj, hdumps.written j hj]

/-- To put down what has been taken up changes no memory that still holds it. -/
theorem Dumps.of_loads (hloads : Loads start x s s₁)
    (hregisters : ∀ j ≤ x, s₂.v j = s₁.v j)
    (hkept : ∀ j ≤ x, s₂.memory.read (Address.offset start j) =
      s.memory.read (Address.offset start j))
    (hdumps : Dumps start x s₂ t) : t.memory = s₂.memory := by
  apply Memory.ext_read
  intro a
  by_cases hinside : ∃ j ≤ x, a = Address.offset start j
  · obtain ⟨j, hj, rfl⟩ := hinside
    rw [hdumps.written j hj, hregisters j hj, hloads.taken j hj, hkept j hj]
  · push Not at hinside
    exact hdumps.outside a hinside

/-! ## Words -/

theorem execute_dump {dump : Opcode} (hdump : Fits dump.word.toNat "FX55") (s : State w h) :
    ∃ t, s.execute dump = .ok t ∧ Dumps s.index.toNat dump.x s t ∧
      t.index = s.indexAfterTransfer dump.x := by
  have hop := (dump.instruction?_eq_storeRegisters_iff dump.x).mpr ⟨hdump, rfl⟩
  exact ⟨_, execute_eq_ok_iff.mpr ⟨_, hop, rfl⟩, s.storeRegisters_dumps dump.x, rfl⟩

theorem execute_load {load : Opcode} (hload : Fits load.word.toNat "FX65") (s : State w h) :
    ∃ t, s.execute load = .ok t ∧ Loads s.index.toNat load.x s t ∧
      t.index = s.indexAfterTransfer load.x := by
  have hop := (load.instruction?_eq_loadRegisters_iff load.x).mpr ⟨hload, rfl⟩
  exact ⟨_, execute_eq_ok_iff.mpr ⟨_, hop, rfl⟩, s.loadRegisters_loads load.x, rfl⟩

/-! ## In a row -/

/-- By how much transfers of a number of registers move the index register, before it wraps. -/
def shift (s : State w h) (count : Nat) : Nat := if s.dialect.incrementIndex then count else 0

theorem toNat_indexAfterTransfer (s : State w h) (x : Nibble) :
    (s.indexAfterTransfer x).toNat = (s.index.toNat + s.shift (x.val + 1)) % 65536 := by
  have hindex := s.index.toNat_lt
  unfold indexAfterTransfer shift
  split
  · rw [UInt16.toNat_add, UInt16.toNat_ofNat']
    omega
  · omega

theorem execute_transfer {op : Opcode} (hop : op.Transfers) (s : State w h) :
    ∃ t, s.execute op = .ok t ∧ t.dialect = s.dialect ∧
      t.index.toNat = (s.index.toNat + s.shift (op.x.val + 1)) % 65536 := by
  rcases hop with hdump | hload
  · obtain ⟨t, hexecute, hdumps, hindex⟩ := execute_dump hdump s
    refine ⟨t, hexecute, by rw [hdumps.rest], ?_⟩
    rw [hindex, toNat_indexAfterTransfer]
  · obtain ⟨t, hexecute, hloads, hindex⟩ := execute_load hload s
    refine ⟨t, hexecute, by rw [hloads.rest], ?_⟩
    rw [hindex, toNat_indexAfterTransfer]

/-- Transfers in a row move the index register by as many registers as they transfer together. -/
theorem run_transfers {ops : List Opcode} (hops : ∀ op ∈ ops, op.Transfers) (s : State w h) :
    ∃ t, s.run (ops.map .execute) = .ok t ∧ t.dialect = s.dialect ∧
      t.index.toNat = (s.index.toNat + s.shift (Opcode.span ops)) % 65536 := by
  induction ops generalizing s with
  | nil =>
    have hindex := s.index.toNat_lt
    refine ⟨s, rfl, rfl, ?_⟩
    unfold shift Opcode.span
    rw [List.map_nil, List.sum_nil, ite_self]
    omega
  | cons op rest ih =>
    obtain ⟨hop, hrest⟩ := List.forall_mem_cons.mp hops
    obtain ⟨u, hexecute, hdialect, hindex⟩ := execute_transfer hop s
    obtain ⟨t, hrun, hdialect', hindex'⟩ := ih hrest u
    refine ⟨t, run_cons_eq_ok_iff.mpr ⟨u, act_execute_eq_ok_iff.mpr hexecute, hrun⟩,
      hdialect'.trans hdialect, ?_⟩
    have hshift : s.shift (Opcode.span (op :: rest)) =
        s.shift (op.x.val + 1) + u.shift (Opcode.span rest) := by
      unfold shift Opcode.span
      rw [hdialect, List.map_cons, List.sum_cons]
      split <;> rfl
    rw [hindex', hindex, hshift]
    omega

/-- A dump and a load with the same `X` take each other back, however memory beyond the window and
the registers beyond `VX` have changed in between. In a row of transfers each has a window of its
own that begins where the one before has ended, past the end of memory and past sixteen bits too, if
the dialect has them move the index register; if not, all of them have the same. -/
theorem dump_and_load_undo {dump load : Opcode} (hdump : Fits dump.word.toNat "FX55" ∧ dump.x = x)
    (hload : Fits load.word.toNat "FX65" ∧ load.x = x) (s : State w h) :
    (∃ s₁, s.execute dump = .ok s₁ ∧ ∀ s₂ : State w h,
      (∀ j ≤ x, s₂.memory.read (Address.offset s.index.toNat j) =
        s₁.memory.read (Address.offset s.index.toNat j)) →
      s₂.index.toNat % 4096 = s.index.toNat % 4096 →
      ∃ t, s₂.execute load = .ok t ∧ (∀ j ≤ x, t.v j = s.v j) ∧ (∀ j, x < j → t.v j = s₂.v j) ∧
        t.memory = s₂.memory) ∧
    (∃ s₁, s.execute load = .ok s₁ ∧ ∀ s₂ : State w h,
      (∀ j ≤ x, s₂.v j = s₁.v j) →
      (∀ j ≤ x, s₂.memory.read (Address.offset s.index.toNat j) =
        s₁.memory.read (Address.offset s.index.toNat j)) →
      s₂.index.toNat % 4096 = s.index.toNat % 4096 →
      ∃ t, s₂.execute dump = .ok t ∧ t.memory = s₂.memory) ∧
    ∀ ops : List Opcode, (∀ op ∈ ops, op.Transfers) →
      ∃ t, s.run (ops.map .execute) = .ok t ∧
        t.index.toNat = (s.index.toNat + s.shift (Opcode.span ops)) % 65536 ∧
        (∃ u, t.execute dump = .ok u ∧
          Dumps (s.index.toNat + s.shift (Opcode.span ops)) x t u) ∧
        ∃ u, t.execute load = .ok u ∧
          Loads (s.index.toNat + s.shift (Opcode.span ops)) x t u := by
  obtain ⟨hdump, rfl⟩ := hdump
  obtain ⟨hload, hx⟩ := hload
  refine ⟨?_, ?_, ?_⟩
  · obtain ⟨s₁, hfirst, hdumps, -⟩ := execute_dump hdump s
    refine ⟨s₁, hfirst, ?_⟩
    intro s₂ hkept hindex
    obtain ⟨t, hsecond, hloads, -⟩ := execute_load hload s₂
    rw [hx] at hloads
    have hsame := hloads.congr hindex.symm
    exact ⟨t, hsecond, Loads.of_dumps hdumps hkept hsame, hloads.above, by rw [hloads.rest]⟩
  · obtain ⟨s₁, hfirst, hloads, -⟩ := execute_load hload s
    rw [hx] at hloads
    refine ⟨s₁, hfirst, ?_⟩
    intro s₂ hregisters hkept hindex
    obtain ⟨t, hsecond, hdumps, -⟩ := execute_dump hdump s₂
    have hmemory : s₁.memory = s.memory := by rw [hloads.rest]
    rw [hmemory] at hkept
    exact ⟨t, hsecond, Dumps.of_loads hloads hregisters hkept (hdumps.congr hindex.symm)⟩
  · intro ops hops
    obtain ⟨t, hrun, -, hindex⟩ := run_transfers hops s
    have hstart : (s.index.toNat + s.shift (Opcode.span ops)) % 4096 = t.index.toNat % 4096 := by
      omega
    obtain ⟨u, hdumped, hdumps, -⟩ := execute_dump hdump t
    obtain ⟨u', hloaded, hloads, -⟩ := execute_load hload t
    rw [hx] at hloads
    exact ⟨t, hrun, hindex, ⟨u, hdumped, hdumps.congr hstart⟩,
      ⟨u', hloaded, hloads.congr hstart⟩⟩

/-- Two registers at `0xFFF`: the second lies at the beginning of memory, and so does the place
after both. -/
theorem dump_and_load_undo_of_wrap : ∃ s s₁ t u : State 64 32,
    (create 64 32 ⟨0, 0⟩ [0x60, 0x07, 0x61, 0x09, 0xAF, 0xFF]
      { incrementIndex := true } 16).mapError .fault >>= (·.run [.step, .step, .step]) = .ok s ∧
    s.execute (.ofInt 0xF155) = .ok s₁ ∧
    (s₁.memory.read 0xFFF, s₁.memory.read 0, s₁.index) = (7, 9, 0x1001) ∧
    { s₁ with index := s.index }.execute (.ofInt 0xF165) = .ok t ∧
    t.v 0 = s.v 0 ∧ t.v 1 = s.v 1 ∧
    s.run [.execute (.ofInt 0xF155)] = .ok s₁ ∧ s₁.execute (.ofInt 0xF155) = .ok u ∧
    u.memory.read 1 = 7 ∧ u.memory.read 2 = 9 := by
  have hvalues : (do
      let s ← (create 64 32 ⟨0, 0⟩ [0x60, 0x07, 0x61, 0x09, 0xAF, 0xFF]
        { incrementIndex := true } 16).mapError .fault >>= (·.run [.step, .step, .step])
      let s₁ ← (s.execute (.ofInt 0xF155)).mapError Failure.fault
      return ((s.v 0, s.v 1, s.index, s.dialect.incrementIndex),
        (s₁.memory.read 0xFFF, s₁.memory.read 0, s₁.index), s₁.v 0, s₁.v 1)) =
      Except.ok ((7, 9, 0xFFF, true), (7, 9, 0x1001), 7, 9) := by
    decide +kernel
  obtain ⟨s, hs, hvalues⟩ := bind_eq_ok_iff.mp hvalues
  obtain ⟨s₁, hfirst, hvalues⟩ := bind_mapError_eq_ok_iff.mp hvalues
  obtain ⟨hbefore, hvalues⟩ := Prod.mk.inj (Except.ok.inj hvalues)
  obtain ⟨hmemory, hregisters⟩ := Prod.mk.inj hvalues
  have hdump : Fits (Opcode.ofInt 0xF155).word.toNat "FX55" ∧ (Opcode.ofInt 0xF155).x = 1 := by
    decide
  have hload : Fits (Opcode.ofInt 0xF165).word.toNat "FX65" ∧ (Opcode.ofInt 0xF165).x = 1 := by
    decide
  obtain ⟨⟨s₁', hfirst', hundo⟩, -, hrow⟩ := dump_and_load_undo hdump hload s
  obtain rfl : s₁ = s₁' := Except.ok.inj (hfirst.symm.trans hfirst')
  obtain ⟨t, hsecond, htaken, -⟩ := hundo { s₁ with index := s.index } (fun _ _ => rfl) rfl
  have hops : ∀ op ∈ [Opcode.ofInt 0xF155], op.Transfers := by
    rw [List.forall_mem_singleton]
    exact Or.inl hdump.1
  obtain ⟨s₁', hrun, -, ⟨u, hthird, hdumps⟩, -⟩ := hrow [.ofInt 0xF155] hops
  obtain ⟨u', hexecute, hnil⟩ := run_cons_eq_ok_iff.mp hrun
  obtain rfl : s₁ = s₁' := by
    cases hfirst.symm.trans (act_execute_eq_ok_iff.mp hexecute)
    exact Except.ok.inj hnil
  -- The window of the second dump begins at `0x1001`.
  have hstart : s.index.toNat + s.shift (Opcode.span [.ofInt 0xF155]) = 0x1001 := by
    simp only [Prod.mk.injEq] at hbefore
    obtain ⟨-, -, hindex, hincrement⟩ := hbefore
    rw [shift, hindex, hincrement]
    decide
  rw [hstart] at hdumps
  simp only [Prod.mk.injEq] at hregisters
  refine ⟨s, s₁, t, u, hs, hfirst, hmemory, hsecond, htaken 0 (by decide), htaken 1 (by decide),
    hrun, hthird, ?_, ?_⟩
  · exact (hdumps.written 0 (by decide)).trans hregisters.1
  · exact (hdumps.written 1 (by decide)).trans hregisters.2

end State

end ChipEight
