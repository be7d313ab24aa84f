import ChipEight.Proofs.Operations

/-!
# Machines that see the same keys

A machine learns of the keys through the answers to its polls and in no other way. Two machines
that differ in their keypads alone, and whose polls are answered alike, do the same: they give the
same results, report the same events and stay equal but for the keypads, whatever is done to the
keypads between the operations.

The reason is that an answer tells all that a keypad holds. As long as an operation has not polled,
the keypad has had no part in it (`perform_of_no_polls`); and when it polls for the first time, the
keypads turn out to be equal, so that the machines are.

* `Machine.polls`: the answers that a machine gets in an operation.
* `Machine.perform_blind_eq`: one operation on two such machines.
* `Machine.follow_blind_eq`: a whole sequence of operations on them.
-/

namespace ChipEight

namespace Machine

variable {σ τ : Type}

/-! ## Other keypads -/

/-- The machine with nothing told of its keypad. -/
def blind (m : Machine τ) : Machine τ := m.setKeypad Keypad.idle

/-- What the keypad would answer to a poll. -/
def keyAnswer (m : Machine τ) : Keys × Keys := m.keypad.poll.1

/-- Two machines whose keypads answer alike have the same keypad. -/
theorem keypad_eq_of_keyAnswer {m m' : Machine τ} (hanswer : m.keyAnswer = m'.keyAnswer) :
    m.keypad = m'.keypad := by
  obtain ⟨hheld, hfresh⟩ := Prod.ext_iff.mp hanswer
  exact Keypad.ext hheld hfresh

theorem eq_setKeypad_of_blind {m m' : Machine τ} (hsame : m.blind = m'.blind) :
    m' = m.setKeypad m'.keypad := by
  have hset : m.blind.setKeypad m'.keypad = m'.blind.setKeypad m'.keypad := by rw [hsame]
  exact hset.symm

end Machine

namespace Outcome

variable {τ α : Type}

/-- The outcome with another keypad in the machine. -/
def setKeypad (o : Outcome τ α) (keypad : Keypad) : Outcome τ α :=
  { o with machine := o.machine.setKeypad keypad }

/-- The outcome with nothing told of the keypad. -/
def blind (o : Outcome τ α) : Outcome τ α := o.setKeypad Keypad.idle

end Outcome

namespace Machine

variable {σ τ : Type}

/-! ## Work that does not poll -/

/-- Steps that set out to execute nothing do not look at the keypad. -/
theorem runSteps_setKeypad {m : Machine τ} {count : Nat} (hnone : m.stepAttempts count = [])
    (keypad : Keypad) :
    (m.setKeypad keypad).runSteps count = (m.runSteps count).setKeypad keypad ∧
      (m.setKeypad keypad).stepAttempts count = [] := by
  cases count with
  | zero => exact ⟨rfl, rfl⟩
  | succ count =>
    rcases m.step_result_cases with hhalted | ⟨hrunning, failure, hresult⟩ |
        ⟨hrunning, op, hresult⟩
    · have hhalted' : (m.setKeypad keypad).halted = true := hhalted
      obtain ⟨hrun, -⟩ := runSteps_of_halted hhalted count
      obtain ⟨hrun', hattempts'⟩ := runSteps_of_halted hhalted' count
      rw [hrun, hrun']
      exact ⟨rfl, hattempts'⟩
    · rw [(runSteps_of_error hrunning hresult count).2] at hnone
      cases hnone
    · rw [(runSteps_of_ok hrunning hresult count).2] at hnone
      cases hnone

variable [ClockNumber τ] [HostAmount σ τ]

theorem update_setKeypad {m : Machine τ} {delta : σ} (hnone : m.updateAttempts delta = [])
    (keypad : Keypad) :
    (m.setKeypad keypad).update delta = (m.update delta).setKeypad keypad ∧
      (m.setKeypad keypad).updateAttempts delta = [] := by
  rcases m.update_cases delta with hhalted | ⟨hrunning, cause, hrejects⟩ |
      ⟨hrunning, timers, due, decrements, htime, hcount⟩
  · have hhalted' : (m.setKeypad keypad).halted = true := hhalted
    obtain ⟨hupdate, -⟩ := update_of_halted hhalted delta
    obtain ⟨hupdate', hattempts'⟩ := update_of_halted hhalted' delta
    rw [hupdate, hupdate']
    exact ⟨rfl, hattempts'⟩
  · have hrunning' : (m.setKeypad keypad).halted = false := hrunning
    obtain ⟨hupdate, -⟩ := update_of_error hrunning hrejects
    obtain ⟨hupdate', hattempts'⟩ := update_of_error hrunning' hrejects
    rw [hupdate, hupdate']
    exact ⟨rfl, hattempts'⟩
  · have hrunning' : (m.setKeypad keypad).halted = false := hrunning
    obtain ⟨hupdate, hattempts⟩ := update_of_ok hrunning htime hcount
    obtain ⟨hupdate', hattempts'⟩ := update_of_ok hrunning' htime hcount
    rw [hattempts] at hnone
    obtain ⟨hrun, hnone'⟩ := runSteps_setKeypad hnone keypad
    rw [hupdate, hupdate', hattempts']
    exact ⟨congrArg (Outcome.map fun _ => due) hrun, hnone'⟩

theorem runFrames_setKeypad {delta : σ} {count : Nat} {m : Machine τ}
    (hnone : m.frameAttempts delta count = []) (keypad : Keypad) :
    (m.setKeypad keypad).runFrames delta count = (m.runFrames delta count).setKeypad keypad ∧
      (m.setKeypad keypad).frameAttempts delta count = [] := by
  induction count generalizing m with
  | zero => exact ⟨rfl, rfl⟩
  | succ count ih =>
    cases hresult : (m.update delta).result with
    | error failure =>
      obtain ⟨hrun, hattempts⟩ := runFrames_of_error hresult count
      rw [hattempts] at hnone
      obtain ⟨hupdate, hnone'⟩ := update_setKeypad hnone keypad
      have hresult' : ((m.setKeypad keypad).update delta).result = .error failure := by
        rw [hupdate]
        exact hresult
      obtain ⟨hrun', hattempts'⟩ := runFrames_of_error hresult' count
      rw [hrun, hrun', hattempts', hupdate]
      exact ⟨rfl, hnone'⟩
    | ok due =>
      obtain ⟨hrun, hattempts⟩ := runFrames_of_ok hresult count
      rw [hattempts] at hnone
      obtain ⟨hfirst, hrest⟩ := List.append_eq_nil_iff.mp hnone
      obtain ⟨hupdate, hfirst'⟩ := update_setKeypad hfirst keypad
      have hresult' : ((m.setKeypad keypad).update delta).result = .ok due := by
        rw [hupdate]
        exact hresult
      obtain ⟨hrun', hattempts'⟩ := runFrames_of_ok hresult' count
      obtain ⟨hlater, hlater'⟩ := ih hrest
      have hmachine : ((m.setKeypad keypad).update delta).machine =
          (m.update delta).machine.setKeypad keypad := by
        rw [hupdate]
        rfl
      rw [hrun, hrun', hattempts', hmachine, hlater, hlater', hupdate, hfirst']
      exact ⟨rfl, rfl⟩

theorem runFor_setKeypad {m : Machine τ} {seconds rate : σ}
    (hnone : m.durationAttempts seconds rate = []) (keypad : Keypad) :
    (m.setKeypad keypad).runFor seconds rate = (m.runFor seconds rate).setKeypad keypad ∧
      (m.setKeypad keypad).durationAttempts seconds rate = [] := by
  rcases runFor_cases seconds rate with ⟨result, hnothing⟩ | ⟨delta, count, hframes⟩
  · obtain ⟨hrun, -⟩ := hnothing m
    obtain ⟨hrun', hattempts'⟩ := hnothing (m.setKeypad keypad)
    rw [hrun, hrun']
    exact ⟨rfl, hattempts'⟩
  · obtain ⟨hrun, hattempts⟩ := hframes m
    obtain ⟨hrun', hattempts'⟩ := hframes (m.setKeypad keypad)
    rw [hattempts] at hnone
    rw [hrun, hrun', hattempts']
    exact runFrames_setKeypad hnone keypad

/-- Up to the first attempt nothing happens to the keypad. -/
def KeepsKeypad (m : Machine τ) (attempts : List (Machine τ)) (m' : Machine τ) : Prop :=
  (∀ x, attempts.head? = some x → x.keypad = m.keypad) ∧ (attempts = [] → m'.keypad = m.keypad)

/-- The keypad is the same until the first instruction is set out on. -/
theorem keepsKeypad_law : Law σ (KeepsKeypad (τ := τ)) where
  refl m := ⟨by simp, fun _ => rfl⟩
  trans := by
    intro m₁ m₂ m₃ xs ys hfirst hsecond
    cases xs with
    | nil =>
      have hkeypad := hfirst.2 rfl
      exact ⟨fun x hx => (hsecond.1 x hx).trans hkeypad,
        fun hnone => (hsecond.2 hnone).trans hkeypad⟩
    | cons x xs => exact ⟨fun y hy => hfirst.1 y hy, by simp⟩
  advance m delta := ⟨by simp, fun _ => rfl⟩
  countDown m ticks := ⟨by simp, fun _ => rfl⟩
  step m _ := ⟨by simp, by simp⟩

/-! ## One operation -/

/-- The answers to the polls of an operation, one for each instruction that it sets out to execute,
unless it is itself a poll. -/
def polls (m : Machine τ) : Operation σ → List (Keys × Keys)
  | .poll => [m.keyAnswer]
  | op => (m.attempts op).map keyAnswer

theorem head?_attempts {m : Machine τ} {op : Operation σ} {x : Machine τ}
    (hx : (m.attempts op).head? = some x) : x.keypad = m.keypad := by
  have law : Law σ (KeepsKeypad (τ := τ)) := keepsKeypad_law
  cases op with
  | step => exact (law.oneStep m).1 x hx
  | update delta => exact (law.update m delta).1 x hx
  | runFor seconds rate => exact (law.runFor m seconds rate).1 x hx
  | _ => cases hx

/-- The first answer is what the keypad tells at the start. -/
theorem head?_polls {m : Machine τ} {op : Operation σ} {answer : Keys × Keys}
    (hanswer : (m.polls op).head? = some answer) : answer = m.keyAnswer := by
  have hattempt (hmap : ((m.attempts op).map keyAnswer).head? = some answer) :
      answer = m.keyAnswer := by
    rw [List.head?_map, Option.map_eq_some_iff] at hmap
    obtain ⟨x, hx, rfl⟩ := hmap
    rw [keyAnswer, head?_attempts hx, keyAnswer]
  cases op with
  | poll => exact (Option.some.inj hanswer).symm
  | _ => exact hattempt hanswer

omit [ClockNumber τ] [HostAmount σ τ] in
/-- What else a key press leads to does not depend on the keypad. -/
theorem withKey_blind (m : Machine τ) (keypad : Keypad) (key : Int)
    (change : Keypad → Nibble → Keypad) :
    ((m.setKeypad keypad).withKey key change).blind = (m.withKey key change).blind := by
  unfold withKey
  split
  · rfl
  · rfl

/-- What an operation that does not poll does is not for the keypad to decide. -/
theorem perform_of_no_polls {m : Machine τ} {op : Operation σ} (hnone : m.polls op = [])
    (keypad : Keypad) :
    ((m.setKeypad keypad).perform op).blind = (m.perform op).blind ∧
      (m.setKeypad keypad).polls op = [] := by
  cases op with
  | step =>
    have hattempts := List.map_eq_nil_iff.mp hnone
    rw [attempts, stepAttempts_one] at hattempts
    have hhalted : m.halted = true := by
      cases hhalted : m.halted with
      | true => rfl
      | false =>
        rw [hhalted] at hattempts
        cases hattempts
    have hhalted' : (m.setKeypad keypad).halted = true := hhalted
    constructor
    · simp only [perform, step_of_halted hhalted, step_of_halted hhalted']
      rfl
    · refine List.map_eq_nil_iff.mpr ?_
      rw [attempts, stepAttempts_one, if_pos hhalted']
  | update delta =>
    obtain ⟨hupdate, hattempts⟩ := update_setKeypad (List.map_eq_nil_iff.mp hnone) keypad
    constructor
    · simp only [perform, hupdate]
      rfl
    · exact List.map_eq_nil_iff.mpr hattempts
  | runFor seconds rate =>
    obtain ⟨hrun, hattempts⟩ := runFor_setKeypad (List.map_eq_nil_iff.mp hnone) keypad
    constructor
    · simp only [perform, hrun]
      rfl
    · exact List.map_eq_nil_iff.mpr hattempts
  | press key => exact ⟨withKey_blind m keypad key _, rfl⟩
  | release key => exact ⟨withKey_blind m keypad key _, rfl⟩
  | releaseAll => exact ⟨rfl, rfl⟩
  | poll => cases hnone
  | reset rom =>
    refine ⟨?_, rfl⟩
    cases hstate : initialState m.seed (rom.getD m.rom) m.dialect m.stackLimit with
    | error cause =>
      have hstate' : initialState (m.setKeypad keypad).seed (rom.getD (m.setKeypad keypad).rom)
          (m.setKeypad keypad).dialect (m.setKeypad keypad).stackLimit = .error cause := hstate
      simp only [perform, reset_of_error hstate, reset_of_error hstate']
      rfl
    | ok s =>
      have hstate' : initialState (m.setKeypad keypad).seed (rom.getD (m.setKeypad keypad).rom)
          (m.setKeypad keypad).dialect (m.setKeypad keypad).stackLimit = .ok s := hstate
      simp only [perform, reset_of_ok hstate, reset_of_ok hstate']
      rfl

/-- Two machines that are equal but for the keypads do the same in an operation in which their
polls are answered in turn from one list of answers. -/
theorem perform_blind_eq {m m' : Machine τ} (hsame : m.blind = m'.blind) {op : Operation σ}
    {answers : List (Keys × Keys)} (hpolls : m.polls op <+: answers)
    (hpolls' : m'.polls op <+: answers) :
    (m.perform op).blind = (m'.perform op).blind ∧ m.polls op = m'.polls op := by
  have hset := eq_setKeypad_of_blind hsame
  have hset' := eq_setKeypad_of_blind hsame.symm
  cases hfirst : m.polls op with
  | nil =>
    obtain ⟨hblind, hnone⟩ := perform_of_no_polls hfirst m'.keypad
    rw [← hset] at hblind hnone
    exact ⟨hblind.symm, hnone.symm⟩
  | cons answer rest =>
    cases hfirst' : m'.polls op with
    | nil =>
      obtain ⟨-, hnone⟩ := perform_of_no_polls hfirst' m.keypad
      rw [← hset', hfirst] at hnone
      cases hnone
    | cons answer' rest' =>
      -- Both were told the same at first, so their keypads are the same.
      have hanswer : answer = m.keyAnswer := head?_polls (by rw [hfirst]; rfl)
      have hanswer' : answer' = m'.keyAnswer := head?_polls (by rw [hfirst']; rfl)
      obtain ⟨later, rfl⟩ := hpolls
      rw [hfirst, hfirst'] at hpolls'
      obtain ⟨hhead, -⟩ := List.cons_prefix_cons.mp hpolls'
      have hkeypad : m.keypad = m'.keypad := by
        refine keypad_eq_of_keyAnswer ?_
        rw [← hanswer, ← hanswer', hhead]
      have hm : m' = m := by
        rw [hset, ← hkeypad]
        rfl
      subst hm
      exact ⟨rfl, hfirst.symm.trans hfirst'⟩

/-! ## Many operations -/

/-- The outcomes of the operations of a script. -/
def follow (m : Machine τ) : Script σ → List (Outcome τ Answer)
  | [] => []
  | (change, op) :: rest =>
    (m.withKeys change).perform op :: ((m.withKeys change).perform op).machine.follow rest

/-- The answers to the polls in the operations of a script. -/
def pollsAlong (m : Machine τ) : Script σ → List (Keys × Keys)
  | [] => []
  | (change, op) :: rest =>
    (m.withKeys change).polls op ++ ((m.withKeys change).perform op).machine.pollsAlong rest

/-- Two machines that are equal but for the keypads have equal outcomes but for the keypads in
every sequence of operations in which their polls are answered in turn from one list. -/
theorem follow_blind_eq {m m' : Machine τ} (hsame : m.blind = m'.blind)
    {script script' : Script σ}
    (hops : script.map Prod.snd = script'.map Prod.snd) {answers : List (Keys × Keys)}
    (hpolls : m.pollsAlong script <+: answers) (hpolls' : m'.pollsAlong script' <+: answers) :
    (m.follow script).map Outcome.blind = (m'.follow script').map Outcome.blind := by
  induction script generalizing m m' script' answers with
  | nil =>
    cases script' with
    | nil => rfl
    | cons first' rest' => cases hops
  | cons first rest ih =>
    cases script' with
    | nil => cases hops
    | cons first' rest' =>
      obtain ⟨change, op⟩ := first
      obtain ⟨change', op'⟩ := first'
      obtain ⟨hop, hrest⟩ := List.cons.inj hops
      change op = op' at hop
      subst hop
      have hstart : (m.withKeys change).blind = (m'.withKeys change').blind := hsame
      rw [pollsAlong] at hpolls hpolls'
      obtain ⟨hblind, hequal⟩ := perform_blind_eq hstart
        ((List.prefix_append _ _).trans hpolls) ((List.prefix_append _ _).trans hpolls')
      -- Both runs have used up the same answers, so those that are left serve both for the rest.
      rw [← hequal] at hpolls'
      obtain ⟨later, rfl⟩ := hpolls
      rw [List.append_assoc] at hpolls'
      have hlater' := (List.prefix_append_right_inj _).mp hpolls'
      have hmachine := congrArg Outcome.machine hblind
      have hfollow := ih hmachine hrest (List.prefix_append _ later) hlater'
      rw [follow, follow, List.map_cons, List.map_cons, hblind, hfollow]

end Machine

end ChipEight
