import Mathlib.Data.List.Infix
import ChipEight.Proofs.Bounds

/-!
# Calls and their returns

While a run stays deeper than a call found the stack, it works above the addresses that were in use
after the call: they remain a prefix of the stack, whatever is called, jumped to or stored meanwhile
(`run_keeps_base`). So the return that ends the call finds on top what the call had put there.

* `step_call`, `step_ret`: what a step does whose opcode is `2NNN` or `00EE`.
* `return_matches_call`: that return goes to the instruction after the call and leaves the stack as
  it was before the call.
-/

namespace ChipEight.State

variable {w h : Nat}

/-! ## The addresses below a call -/

/-- A stack that begins with the addresses of a list is at least as deep as the list is long. -/
theorem length_le_depth {base : List Word} {s : CallStack} (hbase : base <+: s.toList) :
    base.length ≤ s.depth := by
  rw [← CallStack.length_toList]
  exact hbase.length_le

/-- An action that does not end with one address less than `base` has keeps `base` in place. -/
theorem act_keeps_base {base : List Word} {s t : State w h} {action : Action}
    (hbase : base <+: s.stack.toList) (hact : s.act action = .ok t)
    (hdeep : t.stack.depth + 1 ≠ base.length) : base <+: t.stack.toList := by
  rcases act_stack hact with ⟨address, origin, hpush⟩ | ⟨origin, address, hpop⟩ | hstack
  · rw [(CallStack.push_eq_ok hpush).1]
    exact hbase.trans (List.prefix_append _ _)
  · have hlist := (CallStack.pop_eq_ok hpop).1
    have hdepth := (CallStack.pop_slots hpop).1
    have hle : base.length ≤ t.stack.toList.length := by
      have := length_le_depth hbase
      rw [CallStack.length_toList]
      omega
    rw [hlist] at hbase
    exact List.prefix_of_prefix_length_le hbase (List.prefix_append _ _) hle
  · rw [hstack]
    exact hbase

/-- A run in which the stack never has one address less than `base` keeps `base` in place. -/
theorem run_keeps_base {base : List Word} {s t : State w h} {actions : List Action}
    (hbase : base <+: s.stack.toList) (hrun : s.run actions = .ok t)
    (hdeep : ∀ done, done <+: actions → ∀ x, s.run done = .ok x →
      x.stack.depth + 1 ≠ base.length) : base <+: t.stack.toList := by
  induction actions generalizing s with
  | nil => cases hrun; exact hbase
  | cons action actions ih =>
    obtain ⟨u, hact, hrest⟩ := run_cons_eq_ok_iff.mp hrun
    have hfirst : u.stack.depth + 1 ≠ base.length :=
      hdeep [action] (by simp) u (run_cons_eq_ok_iff.mpr ⟨u, hact, rfl⟩)
    refine ih (act_keeps_base hbase hact hfirst) hrest fun done hdone x hx => ?_
    exact hdeep (action :: done) (List.cons_prefix_cons.mpr ⟨rfl, hdone⟩) x
      (run_cons_eq_ok_iff.mpr ⟨u, hact, hx⟩)

/-! ## The two steps -/

theorem instruction?_of_family_two {op : Opcode} (hfamily : op.family = 2) :
    op.instruction? = some (.call op.nnn) := by
  unfold Opcode.instruction?
  rw [hfamily]
  rfl

/-- A call puts the address of the next instruction on the stack. -/
theorem step_call {s t : State w h} {op : Opcode} (hstep : s.step = .ok (t, op))
    (hop : op.family = 2) :
    s.stack.push s.advance.pc.toNat s.advance.origin.toNat = .ok t.stack := by
  obtain ⟨-, hexecute⟩ := step_eq_ok_iff.mp hstep
  obtain ⟨i, hi, hperform⟩ := execute_eq_ok_iff.mp hexecute
  rw [instruction?_of_family_two hop] at hi
  cases hi
  obtain ⟨stack, hpush, rfl⟩ := call_eq_ok_iff.mp hperform
  exact hpush

/-- A return goes on at the address that it takes from the stack. -/
theorem step_ret {s t : State w h} (hstep : s.step = .ok (t, ⟨0x00EE⟩)) :
    s.stack.pop s.advance.origin.toNat = .ok (t.stack, t.pc) := by
  obtain ⟨-, hexecute⟩ := step_eq_ok_iff.mp hstep
  obtain ⟨i, hi, hperform⟩ := execute_eq_ok_iff.mp hexecute
  have hret : (⟨0x00EE⟩ : Opcode).instruction? = some .ret := by decide
  rw [hret] at hi
  cases hi
  obtain ⟨stack, pc, hpop, rfl⟩ := ret_eq_ok_iff.mp hperform
  exact hpop

/-! ## Matching -/

/-- In a run from a start, let a step fetch `2NNN` and carry it out, and let a later step with
opcode `00EE` be the first action after it that brings the stack back to its depth before the call.
Then the program counter is two behind the place of the call, and the stack is what it was. -/
theorem return_matches_call {random : RandomKey} {rom : List Byte} {dialect : Dialect}
    {limit : Nat} {s₀ s u v t : State w h} {before between : List Action} {op : Opcode}
    (hcreate : create w h random rom dialect limit = .ok s₀) (hbefore : s₀.run before = .ok s)
    (hcall : s.step = .ok (u, op)) (hop : op.family = 2) (hbetween : u.run between = .ok v)
    (hfirst : ∀ done, done <+: between → ∀ x, u.run done = .ok x →
      x.stack.depth ≠ s.stack.depth)
    (hret : v.step = .ok (t, ⟨0x00EE⟩)) (hdepth : t.stack.depth = s.stack.depth) :
    t.pc.toNat = (s.pc.toNat + 2) % 4096 ∧ t.stack = s.stack := by
  have hs := run_sound hcreate hbefore
  have hpush := step_call hcall hop
  have hpop := step_ret hret
  have hcalled := (CallStack.push_eq_ok hpush).1
  obtain ⟨hreturned, hlimitV⟩ := CallStack.pop_eq_ok hpop
  -- The stack after the call is a prefix of the stack before the return, and no shorter.
  have hbase : u.stack.toList <+: v.stack.toList := by
    refine run_keeps_base (List.prefix_refl _) hbetween fun done hdone x hx => ?_
    have := hfirst done hdone x hx
    have := (CallStack.push_slots hpush).2.1
    rw [CallStack.length_toList]
    omega
  have hsame : u.stack.toList = v.stack.toList := by
    refine hbase.eq_of_length ?_
    rw [hcalled, hreturned]
    simp [hdepth]
  have hlists := hcalled.symm.trans (hsame.trans hreturned)
  obtain ⟨hlist, htop⟩ := List.append_inj' hlists rfl
  have hpc : t.pc.toNat = s.advance.pc.toNat := by
    have := hs.advance.pc_lt
    rw [← List.singleton_inj.mp htop, UInt16.toNat_ofNat']
    omega
  refine ⟨hpc.trans (advance_pc_toNat s), ?_⟩
  -- Both stacks are proper, so equal lists and limits make them equal.
  have hu : u.Sound limit dialect := act_sound hs (act_step hcall)
  have hv : v.Sound limit dialect := run_induction act_sound hu hbetween
  have hlimit : t.stack.limit = s.stack.limit :=
    hlimitV.trans (hv.limit_eq.trans hs.limit_eq.symm)
  exact (hv.proper.pop hpop).eq_of_toList hs.proper hlimit hlist.symm

/-- The outer one of two calls, with the inner call and its return in between. -/
theorem return_matches_call_nested : ∃ s u v t : State 1 1,
    create 1 1 ⟨0, 0⟩ [0x22, 0x04, 0x00, 0x00, 0x22, 0x08, 0x00, 0xEE, 0x00, 0xEE] {} 2 = .ok s ∧
    s.step = .ok (u, ⟨0x2204⟩) ∧ u.run [.step, .step] = .ok v ∧ v.step = .ok (t, ⟨0x00EE⟩) ∧
    t.pc.toNat = (s.pc.toNat + 2) % 4096 ∧ t.stack = s.stack := by
  have hrun : (do
      let s ← (create 1 1 ⟨0, 0⟩ [0x22, 0x04, 0x00, 0x00, 0x22, 0x08, 0x00, 0xEE, 0x00, 0xEE] {}
        2).mapError Failure.fault
      let (u, op) ← s.step.mapError Failure.fault
      let v ← u.run [.step, .step]
      let (t, op') ← v.step.mapError Failure.fault
      return decide (op = ⟨0x2204⟩ ∧ op' = ⟨0x00EE⟩ ∧ t.stack.depth = s.stack.depth ∧
        ∀ done ∈ [Action.step, .step].inits,
          (u.run done).toOption.map (·.stack.depth) ≠ some s.stack.depth)) = Except.ok true := by
    decide +kernel
  obtain ⟨s, hcreate, hrun⟩ := bind_mapError_eq_ok_iff.mp hrun
  obtain ⟨⟨u, op⟩, hcall, hrun⟩ := bind_mapError_eq_ok_iff.mp hrun
  obtain ⟨v, hbetween, hrun⟩ := bind_eq_ok_iff.mp hrun
  obtain ⟨⟨t, op'⟩, hret, hrun⟩ := bind_mapError_eq_ok_iff.mp hrun
  obtain ⟨rfl, rfl, hdepth, hfirst⟩ := of_decide_eq_true (Except.ok.inj hrun)
  have hbefore : s.run [] = .ok s := rfl
  refine ⟨s, u, v, t, hcreate, hcall, hbetween, hret, ?_⟩
  refine return_matches_call hcreate hbefore hcall (by decide) hbetween ?_ hret hdepth
  intro done hdone x hx hsame
  refine hfirst done ((List.mem_inits _ _).mpr hdone) ?_
  rw [hx]
  exact congrArg some hsame

end ChipEight.State
