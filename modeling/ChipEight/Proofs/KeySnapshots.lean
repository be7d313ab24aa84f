import ChipEight.Proofs.KeyAnswers
import ChipEight.Proofs.KeyHistory

/-!
# Every press is shown once

A machine whose keypad follows a keyboard polls it before each instruction, however the instructions
are asked for, and a poll takes away the presses that it reports. So a poll shows what has happened
since the poll before it: the keys that have gone down meanwhile, those that are up again included,
and the keys that are down now.

`Machine.timeline` is a run as seen from the keypad, the events of the keyboard and the polls of the
machine in the order in which they happen.

* `Machine.keepsTrack_law`: whatever work is done on a machine, its keypad knows the past of every
  key at each poll and at the end.
* `Machine.tracks_of_polled`: so does the keypad of each poll of a timeline.
* `Machine.every_press_shown_once`: the polls of a machine, each of them and all together.
-/

namespace ChipEight

/-! ## Timelines -/

/-- What happens to a keypad between a keyboard and a machine. -/
inductive Moment (τ : Type) where
  | keyboard (event : WindowEvent)
  /-- The machine polls the keypad; it is given as it was before. -/
  | polled (machine : Machine τ)

/-- What a moment is to a key. -/
def Moment.ofKey {τ : Type} (key : Nibble) : Moment τ → List KeyMoment
  | keyboard event => event.moments key
  | polled _ => [.asked]

/-- The past of a key at the end of a timeline. -/
def keyPast {τ : Type} (timeline : List (Moment τ)) (key : Nibble) : List KeyMoment :=
  timeline.flatMap (Moment.ofKey key)

/-- Operations in their order, each with what the keyboard reports before it. -/
abbrev KeyboardScript (σ : Type) := List (List WindowEvent × Operation σ)

/-- The script in which the keypad follows the keyboard. -/
def KeyboardScript.followed {σ : Type} (script : KeyboardScript σ) : Script σ :=
  script.map fun turn => ((·.handleAll turn.1), turn.2)

/-- The operation moves keys by hand. -/
def Operation.MovesKeys {σ : Type} (op : Operation σ) : Prop :=
  (∃ key, op = .press key) ∨ (∃ key, op = .release key) ∨ op = .releaseAll

namespace Machine

variable {σ τ : Type}

/-- The machine after events of the keyboard that its keypad follows. -/
def withEvents (m : Machine τ) (events : List WindowEvent) : Machine τ :=
  m.withKeys (·.handleAll events)

variable [ClockNumber τ] [HostAmount σ τ]

/-- The step of the machine works on this state: it executes the instruction that comes next there,
or fails as that instruction does. -/
def StepsIn (m : Machine τ) (s : State screenWidth screenHeight) : Prop :=
  match s.step with
  | .ok (t, op) => m.step.result = .ok op ∧ m.step.machine.state = t
  | .error cause => m.step.result = .error (.fault cause) ∧ m.step.machine.state = s

/-- The machines that poll in an operation, each as it is before. -/
def pollers (m : Machine τ) : Operation σ → List (Machine τ)
  | .poll => [m]
  | op => m.attempts op

/-- A run as seen from the keypad: what the keyboard reports and the polls of the machine, in their
order. -/
def timeline (m : Machine τ) : KeyboardScript σ → List (Moment τ)
  | [] => []
  | (events, op) :: rest =>
    events.map .keyboard ++ (((m.withEvents events).pollers op).map .polled ++
      ((m.withEvents events).perform op).machine.timeline rest)

/-- The timeline of a script in two parts. -/
theorem timeline_append (m : Machine τ) (first second : KeyboardScript σ) :
    m.timeline (first ++ second) =
      m.timeline first ++ (m.after first.followed).timeline second := by
  induction first generalizing m with
  | nil => rfl
  | cons turn rest ih =>
    obtain ⟨events, op⟩ := turn
    have hrest := ih ((m.withEvents events).perform op).machine
    simp only [List.cons_append, timeline, hrest, List.append_assoc]
    rfl

end Machine

/-! ## Work on a machine -/

theorem keyPast_append {τ : Type} (first second : List (Moment τ)) (key : Nibble) :
    keyPast (first ++ second) key = keyPast first key ++ keyPast second key := by
  simp [keyPast]

theorem keyPast_keyboard {τ : Type} (events : List WindowEvent) (key : Nibble) :
    keyPast (events.map (Moment.keyboard (τ := τ))) key =
      events.flatMap (WindowEvent.moments key) := by
  simp [keyPast, List.flatMap_map, Moment.ofKey]

/-- A place in two lists one after the other is in the first or in the second. -/
theorem eq_append_cons_cases {α : Type} {xs ys before after : List α} {a : α}
    (h : xs ++ ys = before ++ a :: after) :
    (∃ between, xs = before ++ a :: between ∧ after = between ++ ys) ∨
      ∃ between, before = xs ++ between ∧ ys = between ++ a :: after := by
  rcases List.append_eq_append_iff.mp h with ⟨between, hbefore, hys⟩ | ⟨between, hxs, hafter⟩
  · exact Or.inr ⟨between, hbefore, hys⟩
  · cases between with
    | nil =>
      refine Or.inr ⟨[], ?_, hafter.symm⟩
      rw [hxs, List.append_nil, List.append_nil]
    | cons b between =>
      obtain ⟨rfl, hrest⟩ := List.cons.inj hafter
      exact Or.inl ⟨between, hxs, hrest⟩

namespace Machine

variable {σ τ : Type}

/-- The keypad of the machine knows what has become of every key. -/
def KnowsPast (m : Machine τ) (past : List (Moment τ)) : Prop :=
  m.keypad.Tracks WentDown (keyPast past)

/-- A keypad that follows the keyboard goes on knowing the past. -/
theorem knowsPast_withEvents {m : Machine τ} {past : List (Moment τ)} (h : m.KnowsPast past)
    (events : List WindowEvent) :
    (m.withEvents events).KnowsPast (past ++ events.map .keyboard) := by
  have hevents := Keypad.Tracks.handleAll h events
  unfold KnowsPast
  have hpast : keyPast (past ++ events.map Moment.keyboard) =
      fun key => keyPast past key ++ events.flatMap (WindowEvent.moments key) := by
    funext key
    rw [keyPast_append, keyPast_keyboard]
  rw [hpast]
  exact hevents

/-- A poll is part of the past that the keypad knows afterwards. -/
theorem knowsPast_poll {m m' : Machine τ} {past : List (Moment τ)} (h : m.KnowsPast past)
    (hkeypad : m'.keypad = m.keypad.poll.2) : m'.KnowsPast (past ++ [.polled m]) := by
  have hpast : keyPast (past ++ [Moment.polled m]) = fun key => keyPast past key ++ [.asked] := by
    funext key
    rw [keyPast_append]
    rfl
  unfold KnowsPast
  rw [hpast, hkeypad]
  exact Keypad.Tracks.poll not_wentDown_append_asked h

/-- Work on a machine that polls in between, and whose polls and end know the past. -/
def KeepsTrack (m : Machine τ) (polls : List (Machine τ)) (m' : Machine τ) : Prop :=
  ∀ past, m.KnowsPast past →
    (∀ before x after, polls = before ++ x :: after →
      x.KnowsPast (past ++ before.map .polled)) ∧
    m'.KnowsPast (past ++ polls.map .polled)

/-- Work that leaves the keypad alone keeps track of the past. -/
theorem keepsTrack_of_keypad {m m' : Machine τ} (hkeypad : m'.keypad = m.keypad) :
    KeepsTrack m [] m' := by
  intro past h
  refine ⟨?_, ?_⟩
  · intro before x after hnone
    cases before <;> cases hnone
  · rw [List.map_nil, List.append_nil]
    unfold KnowsPast
    rw [hkeypad]
    exact h

theorem keepsTrack_of_poll {m m' : Machine τ} (hkeypad : m'.keypad = m.keypad.poll.2) :
    KeepsTrack m [m] m' := by
  intro past h
  refine ⟨?_, knowsPast_poll h hkeypad⟩
  intro before x after hone
  cases before with
  | nil =>
    obtain ⟨rfl, -⟩ := List.cons.inj hone
    rw [List.map_nil, List.append_nil]
    exact h
  | cons first rest =>
    obtain ⟨-, hnone⟩ := List.cons.inj hone
    cases rest <;> cases hnone

theorem KeepsTrack.trans {m₁ m₂ m₃ : Machine τ} {xs ys : List (Machine τ)}
    (hfirst : KeepsTrack m₁ xs m₂) (hsecond : KeepsTrack m₂ ys m₃) :
    KeepsTrack m₁ (xs ++ ys) m₃ := by
  intro past h
  obtain ⟨hxs, hmiddle⟩ := hfirst past h
  obtain ⟨hys, hend⟩ := hsecond _ hmiddle
  refine ⟨?_, ?_⟩
  · intro before x after hsplit
    rcases eq_append_cons_cases hsplit with ⟨between, hin, -⟩ | ⟨between, rfl, hin⟩
    · exact hxs before x between hin
    · rw [List.map_append, ← List.append_assoc]
      exact hys between x after hin
  · rw [List.map_append, ← List.append_assoc]
    exact hend

variable [ClockNumber τ] [HostAmount σ τ]

/-- Every kind of work keeps track of the past. -/
theorem keepsTrack_law : Law σ (KeepsTrack (τ := τ)) where
  refl m := keepsTrack_of_keypad rfl
  trans hfirst hsecond := hfirst.trans hsecond
  advance m delta := keepsTrack_of_keypad rfl
  countDown m ticks := keepsTrack_of_keypad rfl
  step m hrunning := by
    refine keepsTrack_of_poll ?_
    rcases step_cases hrunning with ⟨cause, -, hm⟩ | ⟨t, op, -, hm⟩
    · rw [hm]
      rfl
    · rw [hm]
      rfl

/-- Every operation keeps track of the past, unless it moves keys by hand. -/
theorem perform_keepsTrack (m : Machine τ) {op : Operation σ} (hop : ¬ op.MovesKeys) :
    KeepsTrack m (m.pollers op) (m.perform op).machine := by
  have law : Law σ (KeepsTrack (τ := τ)) := keepsTrack_law
  cases op with
  | step => exact law.oneStep m
  | update delta => exact law.update m delta
  | runFor seconds rate => exact law.runFor m seconds rate
  | press key => exact absurd (Or.inl ⟨key, rfl⟩) hop
  | release key => exact absurd (Or.inr (Or.inl ⟨key, rfl⟩)) hop
  | releaseAll => exact absurd (Or.inr (Or.inr rfl)) hop
  | poll => exact keepsTrack_of_poll rfl
  | reset rom =>
    refine keepsTrack_of_keypad ?_
    cases hstate : initialState m.seed (rom.getD m.rom) m.dialect m.stackLimit with
    | error cause =>
      rw [perform, reset_of_error hstate]
      rfl
    | ok s =>
      rw [perform, reset_of_ok hstate]
      rfl

/-- The keypad of each poll in a timeline knows the past at that poll. -/
theorem tracks_of_polled {m : Machine τ} {script : KeyboardScript σ}
    (hscript : ∀ turn ∈ script, ¬ turn.2.MovesKeys) {past : List (Moment τ)}
    (h : m.KnowsPast past) {before after : List (Moment τ)} {x : Machine τ}
    (hsplit : m.timeline script = before ++ .polled x :: after) :
    x.KnowsPast (past ++ before) := by
  induction script generalizing m past before with
  | nil => cases before <;> cases hsplit
  | cons turn rest ih =>
    obtain ⟨events, op⟩ := turn
    have hop := hscript (events, op) List.mem_cons_self
    obtain ⟨hpolls, hend⟩ := perform_keepsTrack (m.withEvents events) hop _
      (knowsPast_withEvents h events)
    rcases eq_append_cons_cases hsplit with ⟨between, hin, -⟩ | ⟨between, rfl, hin⟩
    · -- No event of the keyboard is a poll.
      have hmem : Moment.polled x ∈ events.map Moment.keyboard := by
        rw [hin]
        exact List.mem_append_right _ List.mem_cons_self
      obtain ⟨event, -, hevent⟩ := List.mem_map.mp hmem
      cases hevent
    · rw [← List.append_assoc]
      rcases eq_append_cons_cases hin with ⟨later, hhere, -⟩ | ⟨later, rfl, hlater⟩
      · obtain ⟨earlier, rest', hpollers, rfl, hrest⟩ := List.map_eq_append_iff.mp hhere
        obtain ⟨y, rest'', rfl, hy, -⟩ := List.map_eq_cons_iff.mp hrest
        cases hy
        exact hpolls earlier x rest'' hpollers
      · rw [← List.append_assoc]
        exact ih (fun turn hturn => hscript turn (List.mem_cons_of_mem _ hturn)) hend hlater

end Machine

/-! ## Presses and polls -/

theorem WindowEvent.asked_notMem_moments (e : WindowEvent) (key : Nibble) :
    .asked ∉ e.moments key := by
  unfold moments
  split
  · split <;> simp
  · split <;> simp
  · simp

theorem WindowEvent.eq_down_of_mem_moments {e : WindowEvent} {key : Nibble}
    (h : .down ∈ e.moments key) : e = .down (.pad key) := by
  unfold moments at h
  split at h
  · split at h
    · rename_i hkey
      rw [hkey]
    · cases h
  · split at h
    · simp at h
    · cases h
  · cases h

/-- A key is asked about in polls only. -/
theorem asked_notMem_keyPast {τ : Type} {timeline : List (Moment τ)}
    (hquiet : ∀ x, Moment.polled x ∉ timeline) (key : Nibble) : .asked ∉ keyPast timeline key := by
  intro hasked
  obtain ⟨moment, hmem, hkey⟩ := List.mem_flatMap.mp hasked
  cases moment with
  | polled x => exact hquiet x hmem
  | keyboard event => exact event.asked_notMem_moments key hkey

/-- Where the past of a key has a movement down, the timeline has the event. -/
theorem exists_down_of_keyPast {τ : Type} {timeline : List (Moment τ)} {key : Nibble}
    {before after : List KeyMoment} (h : keyPast timeline key = before ++ .down :: after) :
    ∃ earlier later, timeline = earlier ++ .keyboard (.down (.pad key)) :: later ∧
      keyPast earlier key = before := by
  induction timeline generalizing before with
  | nil => cases before <;> cases h
  | cons moment rest ih =>
    have hcons : keyPast (moment :: rest) key = moment.ofKey key ++ keyPast rest key := rfl
    rw [hcons] at h
    rcases eq_append_cons_cases h with ⟨between, hhere, -⟩ | ⟨between, rfl, hrest⟩
    · have hmem : KeyMoment.down ∈ moment.ofKey key := by
        rw [hhere]
        exact List.mem_append_right _ List.mem_cons_self
      cases moment with
      | polled x => cases List.mem_singleton.mp hmem
      | keyboard event =>
        have hevent := WindowEvent.eq_down_of_mem_moments hmem
        subst hevent
        have hnil : before = [] := by
          rw [Moment.ofKey, WindowEvent.moments, if_pos rfl] at hhere
          cases before with
          | nil => rfl
          | cons first others => cases others <;> cases hhere
        subst hnil
        exact ⟨[], rest, rfl, rfl⟩
    · obtain ⟨earlier, later, rfl, hearlier⟩ := ih hrest
      refine ⟨moment :: earlier, later, rfl, ?_⟩
      rw [← hearlier]
      rfl

/-- A timeline in which a poll shows the presses since the poll before it, and the keys that are
down. So a press is shown by the first poll after it, and what a later one shows is another. -/
structure ShowsPresses {τ : Type} (timeline : List (Moment τ)) : Prop where
  shows : ∀ before x after, timeline = before ++ .polled x :: after → ∀ key : Nibble,
    (x.pollKeys.state.pressed.get key = true ↔ WentDown (keyPast before key)) ∧
      (x.pollKeys.state.held.get key = true ↔ IsDown (keyPast before key))
  first : ∀ before key between x after,
    timeline = before ++ .keyboard (.down (.pad key)) :: (between ++ .polled x :: after) →
    ¬ IsDown (keyPast before key) → (∀ y, .polled y ∉ between) →
    x.pollKeys.state.pressed.get key = true
  another : ∀ before x between y after (key : Nibble),
    timeline = before ++ .polled x :: (between ++ .polled y :: after) →
    y.pollKeys.state.pressed.get key = true →
    ∃ quiet later, between = quiet ++ .keyboard (.down (.pad key)) :: later ∧
      ¬ IsDown (keyPast (before ++ .polled x :: quiet) key)

/-- If each poll shows the presses since the one before, then none is lost and none is shown
twice. -/
theorem showsPresses_of_shows {τ : Type} {timeline : List (Moment τ)}
    (hshows : ∀ before x after, timeline = before ++ .polled x :: after → ∀ key : Nibble,
      (x.pollKeys.state.pressed.get key = true ↔ WentDown (keyPast before key)) ∧
        (x.pollKeys.state.held.get key = true ↔ IsDown (keyPast before key))) :
    ShowsPresses timeline where
  shows := hshows
  first before key between x after htimeline hup hquiet := by
    have hsplit : timeline =
        (before ++ .keyboard (.down (.pad key)) :: between) ++ .polled x :: after := by
      rw [htimeline]
      simp
    refine ((hshows _ x after hsplit key).1).mpr ?_
    refine ⟨keyPast before key, keyPast between key, ?_, hup, asked_notMem_keyPast hquiet key⟩
    rw [keyPast_append]
    simp [keyPast, Moment.ofKey, WindowEvent.moments]
  another before x between y after key htimeline hpressed := by
    have hsplit : timeline = (before ++ .polled x :: between) ++ .polled y :: after := by
      rw [htimeline]
      simp
    obtain ⟨early, late, hpast, hup, hanswered⟩ :=
      ((hshows _ y after hsplit key).1).mp hpressed
    -- The first of the two polls lies before the press, for no question follows it.
    have hcut : keyPast (before ++ .polled x :: between) key =
        (keyPast before key ++ [.asked]) ++ keyPast between key := by
      rw [keyPast_append]
      simp [keyPast, Moment.ofKey]
    rw [hcut] at hpast
    rcases eq_append_cons_cases hpast with ⟨rest, hhere, rfl⟩ | ⟨rest, rfl, hbetween⟩
    · have hquiet : KeyMoment.asked ∉ rest :=
        fun hmem => hanswered (List.mem_append_left _ hmem)
      exact absurd ⟨early, rest, hhere, hup, hquiet⟩ (not_wentDown_append_asked _)
    · obtain ⟨quiet, later, rfl, hquiet⟩ := exists_down_of_keyPast hbetween
      refine ⟨quiet, later, rfl, ?_⟩
      have hquietPast : keyPast (before ++ .polled x :: quiet) key =
          keyPast before key ++ [.asked] ++ keyPast quiet key := by
        rw [keyPast_append]
        simp [keyPast, Moment.ofKey]
      rw [hquietPast, hquiet]
      exact hup

/-! ## Runs -/

namespace Machine

variable {σ τ : Type} [ClockNumber τ] [HostAmount σ τ]

/-- The keypad of a new machine knows a past without moments. -/
theorem boot_knowsPast {setup : Setup σ} {m : Machine τ} {started : List Event}
    (hboot : boot setup = .ok (m, started)) : m.KnowsPast [] := by
  obtain ⟨timers, seed, state, -, -, -, rfl, -⟩ := boot_eq_ok_iff.mp hboot
  exact Keypad.Tracks.idle not_wentDown_nil

omit [ClockNumber τ] [HostAmount σ τ] in
/-- A step works on the snapshot of its own poll. -/
theorem stepsIn_pollKeys {m : Machine τ} (hrunning : m.halted = false) :
    m.StepsIn m.pollKeys.state := by
  unfold StepsIn
  rcases step_cases hrunning with ⟨cause, hfault, hm⟩ | ⟨t, op, hstep, hm⟩
  · rw [hfault, hm]
    exact ⟨rfl, rfl⟩
  · rw [hstep, hm]
    exact ⟨rfl, rfl⟩

/-- A step on a machine that runs polls once. -/
theorem pollers_of_step {m : Machine τ} (hrunning : m.halted = false) :
    m.pollers (.step : Operation σ) = [m] := by
  have hattempts : m.stepAttempts 1 = if m.halted then [] else [m] := m.stepAttempts_one
  rw [hrunning] at hattempts
  exact hattempts

theorem mem_attempts_of_mem_pollers {m x : Machine τ} {op : Operation σ} (hpoll : op ≠ .poll)
    (hx : x ∈ m.pollers op) : x ∈ m.attempts op := by
  cases op with
  | poll => exact absurd rfl hpoll
  | _ => exact hx

theorem events_of_pollers (m : Machine τ) {op : Operation σ} (hreset : ∀ rom, op ≠ .reset rom)
    (hpoll : op ≠ .poll) :
    (m.perform op).events = (m.pollers op).flatMap fun x => x.step.events := by
  rw [m.perform_events hreset]
  cases op with
  | poll => exact absurd rfl hpoll
  | _ => rfl

/-- Let the keypad of a machine follow a keyboard, whatever is typed and whatever is asked of the
machine in between. Then each poll shows the keys that have gone down since the poll before it, or
since the machine was built, and the keys that are down. The polls are those of the instructions
that the operations execute or fail to execute, each of which works on the snapshot of its own poll;
and every step is one unless the machine is halted. -/
theorem every_press_shown_once {setup : Setup σ} {m₀ : Machine τ} {started : List Event}
    (hboot : boot setup = .ok (m₀, started)) {script : KeyboardScript σ}
    (hscript : ∀ turn ∈ script, ¬ turn.2.MovesKeys) :
    ShowsPresses (m₀.timeline script) ∧
      ∀ past events op rest, script = past ++ (events, op) :: rest →
        ∃ m later, m = (m₀.after past.followed).withEvents events ∧
          m₀.timeline script = m₀.timeline past ++
            (events.map .keyboard ++ ((m.pollers op).map .polled ++ later)) ∧
          (op = .step → m.halted = false → m.pollers op = [m]) ∧
          ((∀ rom, op ≠ .reset rom) → op ≠ .poll →
            (m.perform op).events = ((m.pollers op).flatMap fun x => x.step.events) ∧
              ∀ x ∈ m.pollers op, x.StepsIn x.pollKeys.state) := by
  constructor
  · refine showsPresses_of_shows ?_
    intro before x after hsplit key
    have hknows : x.KnowsPast before := tracks_of_polled hscript (boot_knowsPast hboot) hsplit
    rw [x.pollKeys_eq]
    exact ⟨hknows.owed key, hknows.held key⟩
  · rintro past events op rest rfl
    refine ⟨_, _, rfl, m₀.timeline_append past ((events, op) :: rest), ?_, ?_⟩
    · rintro rfl hrunning
      exact pollers_of_step hrunning
    · intro hreset hpoll
      refine ⟨events_of_pollers _ hreset hpoll, fun x hx => ?_⟩
      exact stepsIn_pollKeys (running_of_mem_attempts (mem_attempts_of_mem_pollers hpoll hx))

/-- A program that waits for a key, and a key that is up again before the first instruction. The
poll of that instruction shows it, though the key is not held, and no other does. -/
theorem every_press_shown_once_of_short : ∃ (m₀ : Machine Float) (started : List Event),
    ∃ script : KeyboardScript Amount,
    boot { Setup.standard with rom := [0xF5, 0x0A, 0x12, 0x02] } = .ok (m₀, started) ∧
    script = [([.down (.pad 5), .down .pause, .up (.pad 5)], .step),
      ([], .update (.whole 1)), ([.up (.pad 7)], .poll)] ∧
    ShowsPresses (m₀.timeline script) ∧
    ∃ x later, m₀.timeline script = [.keyboard (.down (.pad 5)), .keyboard (.down .pause),
        .keyboard (.up (.pad 5))] ++ .polled x :: later ∧
      x.pollKeys.state.pressed.get 5 = true ∧
      ¬ x.pollKeys.state.held.get 5 = true ∧ x.StepsIn x.pollKeys.state := by
  have hok : ∃ started : Machine Float × List Event,
      boot { Setup.standard with rom := [0xF5, 0x0A, 0x12, 0x02] } = .ok started :=
    exists_eq_ok (by decide +kernel)
  obtain ⟨⟨m₀, started⟩, hboot⟩ := hok
  have hscript : ∀ turn ∈ ([([.down (.pad 5), .down .pause, .up (.pad 5)], .step),
      ([], .update (.whole 1)), ([.up (.pad 7)], .poll)] : KeyboardScript Amount),
      ¬ turn.2.MovesKeys := by
    simp [Operation.MovesKeys]
  obtain ⟨hshows, hturns⟩ := every_press_shown_once hboot hscript
  obtain ⟨x, later, hx, htimeline, hstep, hwork⟩ := hturns [] _ _ _ rfl
  have hrunning : x.halted = false := by
    obtain ⟨timers, seed, state, -, -, -, rfl, -⟩ := boot_eq_ok_iff.mp hboot
    rw [hx]
    rfl
  obtain ⟨-, hsnapshot⟩ := hwork (fun rom hop => by cases hop) (fun hop => by cases hop)
  rw [hstep rfl hrunning] at htimeline hsnapshot
  have hpoll := hshows.shows _ x _ htimeline 5
  refine ⟨m₀, started, _, hboot, rfl, hshows, x, later, htimeline, ?_, ?_,
    hsnapshot x (List.mem_singleton_self x)⟩
  · refine hpoll.1.mpr ⟨[], [.up], rfl, not_isDown_nil, by decide⟩
  · rw [hpoll.2]
    exact fun hdown => by cases hdown

end Machine

end ChipEight
