import Mathlib.Control.Monad.Basic
import ChipEight.Proofs.Bounds

/-!
# The address that a fault names

A fault names the place two before the program counter, which a step has moved on already. The
counter moves on inside memory, but the place before it is taken in sixteen bits. So the fault of a
step names the place of its instruction everywhere but in the last two cells of memory, from which
the counter goes on at the start: there it names a place outside memory.

* `execute_fault_address`: the faults of an execution all name the place before the counter.
* `step_fault_address`: in every state of a run, a step that fails names its own place exactly when
  the program counter is below `0xFFE`.
* `step_fault_address_at_end`: a program of one jump that gets to a place where it does not.
-/

namespace ChipEight

/-- The place in the program that a fault names, if it names one. -/
def Fault.address? : Fault → Option Int
  | unknownOpcode _ address => some address
  | stackUnderflow address => some address
  | stackOverflow address _ => some address
  | _ => none

namespace State

variable {w h : Nat}

/-- A fault carries the place that is told from the program counter. -/
theorem execute_fault_address {s : State w h} {op : Opcode} {f : Fault}
    (hexecute : s.execute op = .error f) : f.address? = some (s.origin.toNat : Int) := by
  rcases execute_eq_error_iff.mp hexecute with ⟨-, rfl⟩ | ⟨i, -, hperform⟩
  · rfl
  · rcases perform_eq_error_iff.mp hperform with ⟨-, -, rfl⟩ | ⟨-, -, rfl⟩
    · rfl
    · rfl

/-- That place is two below the program counter, which is too high by `0xF000` where the program
counter has wrapped around. -/
theorem advance_origin_toNat {s : State w h} (hpc : s.pc.toNat < 4096) :
    s.advance.origin.toNat = if s.pc.toNat < 0xFFE then s.pc.toNat else s.pc.toNat + 0xF000 := by
  have hadvance := s.advance_pc_toNat
  have htwo : (2 : Word).toNat = 2 := rfl
  simp only [origin, UInt16.toNat_sub, htwo]
  split
  · omega
  · omega

/-- A step of a run that fails names the place it fetched its instruction from exactly when that
place is not one of the last two; otherwise it names the one `0xF000` behind. -/
theorem step_fault_address {random : RandomKey} {rom : List Byte} {dialect : Dialect}
    {limit : Nat} {s₀ s : State w h} {actions : List Action} {f : Fault}
    (hcreate : create w h random rom dialect limit = .ok s₀) (hrun : s₀.run actions = .ok s)
    (hstep : s.step = .error f) :
    (f.address? = some (s.pc.toNat : Int) ↔ s.pc.toNat < 0xFFE) ∧
      (0xFFE ≤ s.pc.toNat → f.address? = some (s.pc.toNat + 0xF000 : Int)) := by
  have hpc := (run_sound hcreate hrun).pc_lt
  have haddress := execute_fault_address (step_eq_error_iff.mp hstep)
  rw [haddress, advance_origin_toNat hpc]
  simp only [Option.some.injEq]
  split
  · omega
  · omega

theorem step_fault_address_of_ret : ∃ s : State 1 1,
    create 1 1 ⟨0, 0⟩ [0x00, 0xEE] {} 16 = .ok s ∧ s.step = .error (.stackUnderflow 0x200) ∧
    ((Fault.stackUnderflow 0x200).address? = some (s.pc.toNat : Int) ↔ s.pc.toNat < 0xFFE) ∧
    (0xFFE ≤ s.pc.toNat →
      (Fault.stackUnderflow 0x200).address? = some (s.pc.toNat + 0xF000 : Int)) := by
  have hfault : (do
      let s ← create 1 1 ⟨0, 0⟩ [0x00, 0xEE] {} 16
      return decide (s.step = .error (.stackUnderflow 0x200))) = Except.ok true := by
    decide +kernel
  obtain ⟨s, hcreate, hfault⟩ := bind_eq_ok_iff.mp hfault
  have hstep := of_decide_eq_true (Except.ok.inj hfault)
  have hrun : s.run [] = .ok s := rfl
  exact ⟨s, hcreate, hstep, step_fault_address hcreate hrun hstep⟩

/-- The jump `1FFE` leads to two cells that hold zero, and the fault says `0xFFFE`. -/
theorem step_fault_address_at_end : ∃ s₀ s : State 1 1, ∃ f,
    create 1 1 ⟨0, 0⟩ [0x1F, 0xFE] {} 16 = .ok s₀ ∧ s₀.run [.step] = .ok s ∧
    s.step = .error f ∧ f = .unknownOpcode "0000" 0xFFFE ∧ s.pc.toNat = 0xFFE ∧
    f.address? ≠ some (s.pc.toNat : Int) := by
  have hfault : (do
      let s₀ ← (create 1 1 ⟨0, 0⟩ [0x1F, 0xFE] {} 16).mapError Failure.fault
      let s ← s₀.run [.step]
      return decide (s.step = .error (.unknownOpcode "0000" 0xFFFE) ∧ s.pc.toNat = 0xFFE)) =
        Except.ok true := by
    decide +kernel
  obtain ⟨s₀, hcreate, hfault⟩ := bind_mapError_eq_ok_iff.mp hfault
  obtain ⟨s, hrun, hfault⟩ := bind_eq_ok_iff.mp hfault
  obtain ⟨hstep, hpc⟩ := of_decide_eq_true (Except.ok.inj hfault)
  refine ⟨s₀, s, _, hcreate, hrun, hstep, rfl, hpc, ?_⟩
  rw [hpc]
  decide

end State

end ChipEight
