import ChipEight.Proofs.WatchedWork

/-!
# Work and the machine alone

Without a progress bar an operation in the sight of watchers does what the machine does alone, and
when it is over the watchers have seen the events of the machine in their order.

* `Work.Faithful`: what this says of any piece of work. `Faithful.bind` is the rule for two pieces
  done one after the other.
* `Work.step_faithful`, `Work.update_faithful`, `Work.runFor_faithful`, `Work.reset_faithful` and,
  for all operations, `Work.perform_faithful`.
-/

namespace ChipEight

variable {σ τ β α γ : Type}

/-! ## The machine alone -/

theorem Outcome.bind_done (o : Outcome τ α) (f : α → γ) :
    (o.bind fun m a => .done m (f a)) = o.map f := by
  obtain ⟨m, events, result⟩ := o
  cases result with
  | error failure => rfl
  | ok a => simp [bind, done, map, Except.map]

theorem Outcome.map_map {δ : Type} (o : Outcome τ α) (f : α → γ) (g : γ → δ) :
    (o.map f).map g = o.map fun a => g (f a) := by
  obtain ⟨m, events, result⟩ := o
  cases result with
  | error failure => rfl
  | ok a => rfl

theorem Outcome.map_id (o : Outcome τ α) : o.map (fun a => a) = o := by
  obtain ⟨m, events, result⟩ := o
  cases result with
  | error failure => rfl
  | ok a => rfl

theorem Outcome.map_eq_bind_map {δ : Type} (o : Outcome τ α) (next : Machine τ → α → Outcome τ γ)
    (f : γ → δ) : (o.bind next).map f = o.bind fun m a => (next m a).map f := by
  obtain ⟨m, events, result⟩ := o
  cases result with
  | error failure => rfl
  | ok a => rfl

namespace Watched

/-- What becomes of a watched machine when the machine alone does something and the watchers are
shown what has happened. -/
def record (s : Watched τ β) (o : Outcome τ α) : Except Trouble α × Watched τ β :=
  (o.result.mapError .failure, (s.put o.machine).see o.events)

theorem record_of_ok (s : Watched τ β) {o : Outcome τ α} {a : α} (hresult : o.result = .ok a) :
    s.record o = (.ok a, (s.put o.machine).see o.events) := by
  rw [record, hresult]
  rfl

theorem record_of_error (s : Watched τ β) {o : Outcome τ α} {failure : Failure}
    (hresult : o.result = .error failure) :
    s.record o = (.error (.failure failure), (s.put o.machine).see o.events) := by
  rw [record, hresult]
  rfl

theorem record_refused (s : Watched τ β) (m : Machine τ) (failure : Failure) :
    s.record (.refused m failure : Outcome τ α) = (.error (.failure failure), s.put m) := by
  unfold record Outcome.refused
  rw [see_nil]
  rfl

theorem record_done (s : Watched τ β) (m : Machine τ) (a : α) :
    s.record (.done m a) = (.ok a, s.put m) := by
  unfold record Outcome.done
  rw [see_nil]
  rfl

end Watched

namespace Work

/-- Work that does what the machine alone does, and shows the watchers what has happened. -/
def Faithful (work : Work τ β α) (operation : Machine τ → Outcome τ α) : Prop :=
  ∀ s, work s = s.record (operation s.machine)

theorem return_faithful (a : α) : Faithful (return a : Work τ β α) fun m => .done m a := by
  intro s
  rw [Watched.record_done]
  rfl

theorem Faithful.bind {work : Work τ β α} {operation : Machine τ → Outcome τ α}
    {next : α → Work τ β γ} {rest : Machine τ → α → Outcome τ γ} (hwork : Faithful work operation)
    (hnext : ∀ a, Faithful (next a) fun m => rest m a) :
    Faithful (work >>= next) fun m => (operation m).bind rest := by
  intro s
  change _ = s.record ((operation s.machine).bind rest)
  rw [bind_apply, hwork s]
  cases hresult : (operation s.machine).result with
  | error failure =>
    rw [Outcome.bind_of_error hresult, s.record_of_error hresult, s.record_of_error rfl]
  | ok a =>
    rw [Outcome.bind_of_ok hresult, s.record_of_ok hresult]
    dsimp only
    rw [hnext a]
    simp only [Watched.record, Watched.machine_see, Watched.machine_put, Watched.put_see,
      Watched.put_put, Watched.see_see]

theorem Faithful.map {work : Work τ β α} {operation : Machine τ → Outcome τ α}
    (hwork : Faithful work operation) (f : α → γ) :
    Faithful (do return f (← work)) fun m => (operation m).map f := by
  simp only [← Outcome.bind_done]
  exact hwork.bind fun a => return_faithful (f a)

theorem step_faithful : Faithful (step : Work τ β Opcode) Machine.step := by
  intro s
  unfold step
  rw [machine_bind_apply]
  cases hhalted : s.machine.halted with
  | true =>
    rw [Machine.step_of_halted hhalted, Watched.record_refused]
    rfl
  | false =>
    rw [if_neg (by decide), setMachine_then_apply]
    rcases Machine.step_cases hhalted with ⟨cause, hfault, hm⟩ | ⟨t, op, hstep, hm⟩
    · rw [hfault, hm]
      dsimp only
      rw [setMachine_then_apply, (tells_stopped cause).then_apply]
      rfl
    · obtain ⟨-, hexecute⟩ := State.step_eq_ok_iff.mp hstep
      obtain ⟨i, hop, -⟩ := State.execute_eq_ok_iff.mp hexecute
      rw [hstep, hm, hop]
      dsimp only
      rw [setMachine_then_apply, (tells_executed _ _).then_apply,
        (tells_effects _ _ hop).then_apply, Watched.see_see]
      rfl

theorem steps_faithful (count : Nat) :
    Faithful (steps count : Work τ β Unit) fun m => m.runSteps count := by
  induction count with
  | zero => exact return_faithful ()
  | succ count ih => exact step_faithful.bind fun _ => ih

variable [ClockNumber τ]

theorem reset_faithful (rom : Option (List Byte)) :
    Faithful (reset rom : Work τ β Unit) fun m => m.reset rom := by
  intro s
  change _ = s.record (s.machine.reset rom)
  unfold reset
  rw [machine_bind_apply, setMachine_then_apply]
  cases hstate : Machine.initialState s.machine.seed (rom.getD s.machine.rom) s.machine.dialect
    s.machine.stackLimit with
  | error cause =>
    rw [Machine.reset_of_error hstate, Watched.record_refused]
    rfl
  | ok state =>
    rw [Machine.reset_of_ok hstate]
    dsimp only
    rw [setMachine_then_apply, tells_cleared.then_apply, setMachine_then_apply, tells_started]
    simp only [Watched.put_see, Watched.put_put, Watched.see_see]
    rfl

variable [HostAmount σ τ]

theorem update_faithful (delta : σ) :
    Faithful (update delta : Work τ β Int) fun m => m.update delta := by
  intro s
  change _ = s.record (s.machine.update delta)
  unfold update
  rw [machine_bind_apply]
  rcases s.machine.update_cases delta with hhalted | ⟨hrunning, cause, hrejects⟩ |
      ⟨hrunning, timers, due, decrements, htime, hcount⟩
  · rw [(Machine.update_of_halted hhalted delta).1, Watched.record_refused, if_pos hhalted]
    rfl
  · rw [(Machine.update_of_error hrunning hrejects).1, Watched.record_refused,
      if_neg (by rw [hrunning]; decide), setMachine_then_apply]
    rcases hrejects with hclock | ⟨due, decrements, hclock, hlarge, rfl⟩
    · rw [hclock]
      rfl
    · rw [hclock, number_ok_bind]
      dsimp only
      rw [State.tick_eq_error_iff.mpr ⟨hlarge, rfl⟩]
      rfl
  · rw [(Machine.update_of_ok hrunning htime hcount).1, if_neg (by rw [hrunning]; decide),
      setMachine_then_apply, htime, number_ok_bind]
    dsimp only
    rw [State.tick_eq_ok_iff.mpr ⟨hcount, rfl⟩]
    exact ((steps_faithful due.toNat).map fun _ => due) _

/-! ### Without a progress bar -/

theorem frames_faithful {rate delta : σ} (hdelta : HostAmount.frameSpan rate = .ok delta)
    (count : Nat) (executed : Int) :
    Faithful (frames none rate count executed : Work τ β Int)
      fun m => (m.runFrames delta count).map (executed + ·) := by
  induction count generalizing executed with
  | zero =>
    have hnone (m : Machine τ) : (m.runFrames delta 0).map (executed + ·) = .done m executed := by
      rw [Machine.runFrames]
      exact congrArg (Outcome.done m) (Int.add_zero executed)
    simp only [hnone]
    exact return_faithful executed
  | succ count ih =>
    have hframe (m : Machine τ) : (m.runFrames delta (count + 1)).map (executed + ·) =
        (m.update delta).bind fun m due => (m.runFrames delta count).map (executed + due + ·) := by
      rw [Machine.runFrames, Outcome.map_eq_bind_map]
      simp only [Outcome.map_map, Int.add_assoc]
    simp only [hframe]
    rw [frames, hdelta]
    exact (update_faithful delta).bind fun due => ih (executed + due)

theorem runFor_faithful (seconds rate : σ) :
    Faithful (runFor none seconds rate : Work τ β Int) fun m => m.runFor seconds rate := by
  intro s
  change _ = s.record (s.machine.runFor seconds rate)
  unfold runFor Machine.runFor
  cases HostAmount.frameCount seconds rate with
  | error cause =>
    rw [Watched.record_refused]
    rfl
  | ok total =>
    change frames none rate total.toNat 0 s = _
    by_cases htotal : total ≤ 0
    · rw [Int.toNat_of_nonpos htotal]
      dsimp only
      rw [if_pos htotal, Watched.record_done]
      rfl
    · obtain ⟨count, hcount⟩ : ∃ count, total.toNat = count + 1 := ⟨total.toNat - 1, by omega⟩
      dsimp only
      rw [if_neg htotal, hcount]
      cases hdelta : HostAmount.frameSpan rate with
      | error cause =>
        rw [Watched.record_refused, frames, hdelta]
        rfl
      | ok delta =>
        have hframes := frames_faithful (β := β) hdelta (count + 1) 0
        simp only [Int.zero_add, Outcome.map_id] at hframes
        exact hframes s

omit [ClockNumber τ] [HostAmount σ τ] in
theorem withKey_faithful (key : Int) (change : Keypad → Nibble → Keypad) :
    Faithful (withKey key change : Work τ β Answer) fun m => m.withKey key change := by
  intro s
  unfold withKey Machine.withKey
  cases checkKey key with
  | error cause =>
    dsimp only
    rw [Watched.record_refused]
    rfl
  | ok key =>
    dsimp only
    rw [Watched.record_done]
    rfl

theorem perform_faithful (op : Operation σ) :
    Faithful (perform none op : Work τ β Answer) fun m => m.perform op := by
  cases op with
  | step => exact step_faithful.map Answer.opcode
  | update delta => exact (update_faithful delta).map Answer.count
  | runFor seconds rate => exact (runFor_faithful seconds rate).map Answer.count
  | press key => exact withKey_faithful key _
  | release key => exact withKey_faithful key _
  | releaseAll => exact fun s => (s.record_done _ Answer.done).symm
  | poll => exact fun s => (s.record_done _ Answer.done).symm
  | reset rom => exact (reset_faithful rom).map fun _ => Answer.done

end Work

end ChipEight
