import Mathlib.Control.Monad.Basic
import ChipEight.Proofs.Run
import ChipEight.Proofs.StackSlots

/-!
# Bounds that hold in every run

`Sound limit dialect s` is the invariant of a run: the program counter is an address, the call
stack is proper, and its limit and the dialect are those of the start. The parts depend on each
other, because a return puts into the counter what a call has put on the stack.

* `create_sound`, `perform_sound`, `act_sound`: the start has the invariant, and every instruction
  and every action keeps it.
* `run_sound`: every state of a run has it.
* `run_withinBounds`: hence every quantity of a state that a run reaches stays within its bounds.
-/

namespace ChipEight.State

variable {w h : Nat}

/-- What every reachable state has: its program counter in memory, the slots of its call stack in
order, and the limit and the dialect that it was made with. -/
structure Sound (limit : Nat) (dialect : Dialect) (s : State w h) : Prop where
  pc_lt : s.pc.toNat < 4096
  proper : s.stack.Proper
  limit_eq : s.stack.limit = limit
  dialect_eq : s.dialect = dialect

theorem toWord_lt (a : Address) : a.toWord.toNat < 4096 := by
  rw [Address.toNat_toWord]
  exact a.isLt

/-! ## The start -/

/-- The state in which a program starts, item by item. -/
theorem create_eq_ok_iff {random : RandomKey} {rom : List Byte} {dialect : Dialect} {limit : Nat}
    {s : State w h} :
    create w h random rom dialect limit = .ok s ↔ ∃ memory, Memory.image rom = .ok memory ∧
      s = {
        random
        memory
        pc := Memory.programStart.toWord
        screen := Raster.fill false
        stack := CallStack.empty limit
        delay := 0
        sound := 0
        held := Keys.none
        pressed := Keys.none
        registers := Vector.replicate 16 0
        index := 0
        dialect } := by
  unfold create
  rw [bind_eq_ok_iff]
  simp only [pure, Except.pure, Except.ok.injEq, eq_comm]

/-- The start of a program is sound. -/
theorem create_sound {random : RandomKey} {rom : List Byte} {dialect : Dialect} {limit : Nat}
    {s : State w h} (hcreate : create w h random rom dialect limit = .ok s) :
    s.Sound limit dialect := by
  obtain ⟨memory, -, rfl⟩ := create_eq_ok_iff.mp hcreate
  exact ⟨toWord_lt _, CallStack.proper_empty limit, CallStack.limit_empty limit, rfl⟩

/-! ## One action -/

theorem Sound.advance {limit : Nat} {dialect : Dialect} {s : State w h}
    (hs : s.Sound limit dialect) : s.advance.Sound limit dialect :=
  ⟨toWord_lt _, hs.proper, hs.limit_eq, hs.dialect_eq⟩

/-- No instruction leaves the sound states: every place it can go on at lies in memory. -/
theorem perform_sound {limit : Nat} {dialect : Dialect} {s t : State w h} {i : Instruction}
    (hs : s.Sound limit dialect) (hperform : s.perform i = .ok t) : t.Sound limit dialect := by
  have hdialect : t.dialect = dialect := (perform_dialect hperform).trans hs.dialect_eq
  rcases perform_control hperform with ⟨target, -, hpush, hpc⟩ | ⟨-, hpop⟩ | ⟨hstack, hpc⟩
  · have hlimit := (CallStack.push_eq_ok hpush).2
    exact ⟨hpc ▸ toWord_lt target, hs.proper.push hpush, hlimit.trans hs.limit_eq, hdialect⟩
  · -- The address in the counter now is one that the stack held.
    have hlimit := (CallStack.pop_eq_ok hpop).2
    exact ⟨hs.proper.pop_lt hpop, hs.proper.pop hpop, hlimit.trans hs.limit_eq, hdialect⟩
  · refine ⟨?_, hstack ▸ hs.proper, hstack ▸ hs.limit_eq, hdialect⟩
    rcases hpc with hpc | ⟨a, hpc⟩
    · exact hpc ▸ hs.pc_lt
    · exact hpc ▸ toWord_lt a

/-- No action leaves the sound states. -/
theorem act_sound {limit : Nat} {dialect : Dialect} {s t : State w h} {action : Action}
    (hs : s.Sound limit dialect) (hact : s.act action = .ok t) : t.Sound limit dialect := by
  rcases act_cases hact with ⟨s', i, hs', hperform⟩ | ⟨ticks, rfl⟩ | ⟨held, pressed, rfl⟩
  · rcases hs' with rfl | rfl
    · exact perform_sound hs hperform
    · exact perform_sound hs.advance hperform
  · exact ⟨hs.pc_lt, hs.proper, hs.limit_eq, hs.dialect_eq⟩
  · exact ⟨hs.pc_lt, hs.proper, hs.limit_eq, hs.dialect_eq⟩

/-! ## Runs -/

/-- So every state of every run is sound. -/
theorem run_sound {random : RandomKey} {rom : List Byte} {dialect : Dialect} {limit : Nat}
    {s₀ s : State w h} {actions : List Action}
    (hcreate : create w h random rom dialect limit = .ok s₀) (hrun : s₀.run actions = .ok s) :
    s.Sound limit dialect :=
  run_induction act_sound (create_sound hcreate) hrun

/-- The bounds of a state whose start had a stack of `limit` slots and this dialect. -/
structure WithinBounds (limit : Nat) (dialect : Dialect) (s : State w h) : Prop where
  pc_lt : s.pc.toNat < 4096
  depth_le : s.stack.depth ≤ limit
  slots_size : s.stack.slots.size = limit
  slots_inUse : ∀ i (hi : i < s.stack.slots.size),
    i < s.stack.depth → s.stack.slots[i].toNat < 4096
  slots_unused : ∀ i (hi : i < s.stack.slots.size), s.stack.depth ≤ i → s.stack.slots[i] = 0
  memory_size : s.memory.cells.toArray.size = 4096
  screen_width : s.screen.columns.toArray.size = w
  screen_height : ∀ x : Fin w, s.screen.columns[x].toArray.size = h
  dialect_eq : s.dialect = dialect
  index_lt : s.index.toNat < 65536
  registers_lt : ∀ x, (s.v x).toNat < 256
  memory_lt : ∀ a, (s.memory.read a).toNat < 256
  delay_lt : s.delay.toNat < 256
  sound_lt : s.sound.toNat < 256

theorem Sound.withinBounds {limit : Nat} {dialect : Dialect} {s : State w h}
    (hs : s.Sound limit dialect) : s.WithinBounds limit dialect where
  pc_lt := hs.pc_lt
  depth_le := hs.limit_eq ▸ s.stack.depth_le
  slots_size := hs.limit_eq
  slots_inUse i hi hlt := hs.proper.inUse i _ hlt (Array.getElem?_eq_getElem hi)
  slots_unused i hi hle := hs.proper.unused i _ hle (Array.getElem?_eq_getElem hi)
  memory_size := s.memory.cells.size_toArray
  screen_width := s.screen.columns.size_toArray
  screen_height x := s.screen.columns[x].size_toArray
  dialect_eq := hs.dialect_eq
  index_lt := s.index.toNat_lt
  registers_lt x := (s.v x).toNat_lt
  memory_lt a := (s.memory.read a).toNat_lt
  delay_lt := s.delay.toNat_lt
  sound_lt := s.sound.toNat_lt

/-- Every state that a run reaches from a start is within the bounds of that start. -/
theorem run_withinBounds {random : RandomKey} {rom : List Byte} {dialect : Dialect} {limit : Nat}
    {s₀ s : State w h} {actions : List Action}
    (hcreate : create w h random rom dialect limit = .ok s₀) (hrun : s₀.run actions = .ok s) :
    s.WithinBounds limit dialect :=
  (run_sound hcreate hrun).withinBounds

/-- A call, an opcode from outside, timer ticks, a poll of the keys and a sprite. -/
theorem run_withinBounds_of_call : ∃ s₀ s : State 64 32,
    create 64 32 ⟨0, 0⟩ [0x22, 0x04, 0x00, 0x00, 0xD0, 0x15] {} 1 = .ok s₀ ∧
    s₀.run [.step, .execute (.ofInt 0xFE15), .tick 3, .snapshot Keys.none Keys.none, .step] =
      .ok s ∧
    s.WithinBounds 1 {} := by
  have hdepth : (do
      let s₀ ← (create 64 32 ⟨0, 0⟩ [0x22, 0x04, 0x00, 0x00, 0xD0, 0x15] {} 1).mapError
        Failure.fault
      let s ← s₀.run [.step, .execute (.ofInt 0xFE15), .tick 3,
        .snapshot Keys.none Keys.none, .step]
      return s.stack.depth) = Except.ok 1 := by
    decide +kernel
  obtain ⟨s₀, hcreate, hdepth⟩ := bind_mapError_eq_ok_iff.mp hdepth
  obtain ⟨s, hrun, -⟩ := bind_eq_ok_iff.mp hdepth
  exact ⟨s₀, s, hcreate, hrun, run_withinBounds hcreate hrun⟩

end ChipEight.State
