import Mathlib.Data.List.Basic
import ChipEight.Keyboard

/-!
# What a keypad knows of the past

To one key three things happen: it goes down, it goes up, and somebody asks whether it has gone
down since the last time. `IsDown` and `WentDown` are what a history of these moments says about the
key now, and `Keypad.Tracks` is the invariant of a keypad that holds the keys that are down and owes
an answer for the keys of whose history `due` says so.

There are two ways of letting a key go, and they keep different things. A keypad that lifts its keys
owes an answer for every press. One that releases them owes it only while the key is still down, so
a short press between two questions is lost.

* `wentDown_append`: how the last moment of a history decides.
* `Keypad.Tracks.press`, `Keypad.Tracks.lift`, `Keypad.Tracks.release`, `Keypad.Tracks.ask`,
  `Keypad.Tracks.poll`: the operations keep the invariant.
* `Keypad.newlyPressed_after_calls`: what both kinds of keypad answer after any calls.
* `Keypad.short_press_lost`: a press and a release between two questions.
-/

namespace ChipEight

/-! ## One key -/

/-- What can happen to a key: it goes down, goes up, or is asked about. -/
inductive KeyMoment where
  | down
  | up
  | asked
deriving DecidableEq, Repr

/-- The last movement of the key was downwards. -/
def IsDown (past : List KeyMoment) : Prop := (past.filter (· ≠ .asked)).getLast? = some .down

/-- The key has gone from up to down since it was last asked about. -/
def WentDown (past : List KeyMoment) : Prop :=
  ∃ before after, past = before ++ .down :: after ∧ ¬ IsDown before ∧ .asked ∉ after

theorem not_isDown_nil : ¬ IsDown [] := by
  intro h
  cases h

theorem not_wentDown_nil : ¬ WentDown [] := by
  rintro ⟨before, after, hpast, -⟩
  cases before <;> cases hpast

/-- Whether a key is down is settled by its last movement. -/
theorem isDown_append (past : List KeyMoment) (last : KeyMoment) :
    IsDown (past ++ [last]) ↔ last = .down ∨ (last = .asked ∧ IsDown past) := by
  cases last <;> simp [IsDown]

/-- An answer that was owed stays owed until the question comes, and a moment that puts down a key
that was up makes one due. -/
theorem wentDown_append (past : List KeyMoment) (last : KeyMoment) :
    WentDown (past ++ [last]) ↔
      (last ≠ .asked ∧ WentDown past) ∨ (last = .down ∧ ¬ IsDown past) := by
  constructor
  · rintro ⟨before, after, hpast, hup, hquiet⟩
    -- The press is the last moment itself, or one of those before it.
    rcases List.eq_nil_or_concat after with rfl | ⟨after, moment, rfl⟩
    · obtain ⟨hbefore, hlast⟩ := List.append_inj' hpast rfl
      rw [hbefore]
      exact Or.inr ⟨List.singleton_inj.mp hlast, hup⟩
    · rw [List.concat_eq_append, ← List.cons_append, ← List.append_assoc] at hpast
      obtain ⟨hbefore, hlast⟩ := List.append_inj' hpast rfl
      have hmoment := List.singleton_inj.mp hlast
      simp only [List.concat_eq_append, List.mem_append, List.mem_singleton, not_or] at hquiet
      have hanswered : last ≠ .asked := by
        rw [hmoment]
        exact Ne.symm hquiet.2
      exact Or.inl ⟨hanswered, before, after, hbefore, hup, hquiet.1⟩
  · rintro (⟨hlast, before, after, rfl, hup, hquiet⟩ | ⟨rfl, hup⟩)
    · refine ⟨before, after ++ [last], by simp, hup, ?_⟩
      simp only [List.mem_append, List.mem_singleton, not_or]
      exact ⟨hquiet, Ne.symm hlast⟩
    · exact ⟨past, [], rfl, hup, List.not_mem_nil⟩

/-! ## All keys -/

namespace Keypad

/-- The keypad knows the past of every key: which are down, and which owe a press, `due` saying when
one is owed. -/
structure Tracks (due : List KeyMoment → Prop) (k : Keypad) (past : Nibble → List KeyMoment) :
    Prop where
  held : ∀ key, k.isHeld key = true ↔ IsDown (past key)
  owed : ∀ key, (k.newlyPressed key).1 = true ↔ due (past key)

namespace Tracks

variable {due : List KeyMoment → Prop} {k : Keypad} {past : Nibble → List KeyMoment}

/-- A keypad that nobody has touched tracks a past without moments. -/
theorem idle (hdue : ¬ due []) : Keypad.idle.Tracks due fun _ => [] where
  held key := by simp [Keypad.idle, isHeld, Keys.none, not_isDown_nil]
  owed key := by simp [Keypad.idle, newlyPressed, Keys.none, hdue]

/-- A keypad that differs from one before at a single key, to which a moment has come. -/
theorem move {k' : Keypad} {key : Nibble} {moment : KeyMoment} (h : k.Tracks due past)
    (hothers : ∀ other, key ≠ other → k'.isHeld other = k.isHeld other ∧
      (k'.newlyPressed other).1 = (k.newlyPressed other).1)
    (hheld : k'.isHeld key = true ↔ IsDown (past key ++ [moment]))
    (howed : (k'.newlyPressed key).1 = true ↔ due (past key ++ [moment])) :
    k'.Tracks due fun other => past other ++ if key = other then [moment] else [] where
  held other := by
    by_cases hkey : key = other
    · rw [← hkey, if_pos rfl]
      exact hheld
    · rw [if_neg hkey, List.append_nil, (hothers other hkey).1]
      exact h.held other
  owed other := by
    by_cases hkey : key = other
    · rw [← hkey, if_pos rfl]
      exact howed
    · rw [if_neg hkey, List.append_nil, (hothers other hkey).2]
      exact h.owed other

/-- A press of a key that is up is owed an answer. -/
theorem press (hdue : ∀ past, due (past ++ [.down]) ↔ due past ∨ ¬ IsDown past)
    (h : k.Tracks due past) (key : Nibble) :
    (k.press key).Tracks due fun other =>
      past other ++ if key = other then [.down] else [] := by
  refine h.move ?_ ?_ ?_
  · intro other hkey
    simp [isHeld_press, newlyPressed_press, hkey]
  · simp [isHeld_press, isDown_append]
  · rw [newlyPressed_press, hdue, ← h.owed key, ← h.held key]
    cases k.isHeld key <;> simp

theorem lift (hdue : ∀ past, due (past ++ [.up]) ↔ due past) (h : k.Tracks due past)
    (key : Nibble) :
    (k.lift key).Tracks due fun other => past other ++ if key = other then [.up] else [] := by
  have howed (other : Nibble) : ((k.lift key).newlyPressed other).1 = (k.newlyPressed other).1 :=
    rfl
  refine h.move ?_ ?_ ?_
  · intro other hkey
    simp [isHeld_lift, isHeld_release, howed, hkey]
  · simp [isHeld_lift, isHeld_release, isDown_append]
  · rw [howed, hdue]
    exact h.owed key

/-- Releasing a key that owes nothing afterwards is one movement upwards. -/
theorem release (hdue : ∀ past, ¬ due (past ++ [.up])) (h : k.Tracks due past) (key : Nibble) :
    (k.release key).Tracks due fun other => past other ++ if key = other then [.up] else [] := by
  refine h.move ?_ ?_ ?_
  · intro other hkey
    simp [isHeld_release, newlyPressed_release, hkey]
  · simp [isHeld_release, isDown_append]
  · simp [newlyPressed_release, hdue]

theorem releaseAll (hdue : ∀ past, ¬ due (past ++ [.up])) :
    k.releaseAll.Tracks due fun other => past other ++ [.up] where
  held other := by simp [Keypad.releaseAll, Keypad.idle, isHeld, Keys.none, isDown_append]
  owed other := by simp [Keypad.releaseAll, Keypad.idle, newlyPressed, Keys.none, hdue]

theorem ask (hdue : ∀ past, ¬ due (past ++ [.asked])) (h : k.Tracks due past) (key : Nibble) :
    (k.newlyPressed key).2.Tracks due fun other =>
      past other ++ if key = other then [.asked] else [] := by
  have hheld (other : Nibble) : (k.newlyPressed key).2.isHeld other = k.isHeld other := rfl
  refine h.move ?_ ?_ ?_
  · intro other hkey
    simp [hheld, newlyPressed_newlyPressed, newlyPressed_release, hkey]
  · simp [hheld, isDown_append, h.held key]
  · simp [newlyPressed_newlyPressed, newlyPressed_release, hdue]

/-- A poll asks about every key. -/
theorem poll (hdue : ∀ past, ¬ due (past ++ [.asked])) (h : k.Tracks due past) :
    k.poll.2.Tracks due fun key => past key ++ [.asked] where
  held key := by
    have hheld : k.poll.2.isHeld key = true ↔ IsDown (past key) := h.held key
    simp [isDown_append, hheld]
  owed key := by simp [newlyPressed_poll, hdue]

end Tracks

end Keypad

/-! ## Following a keyboard -/

theorem wentDown_append_down (past : List KeyMoment) :
    WentDown (past ++ [.down]) ↔ WentDown past ∨ ¬ IsDown past := by
  simp [wentDown_append]

theorem wentDown_append_up (past : List KeyMoment) : WentDown (past ++ [.up]) ↔ WentDown past := by
  simp [wentDown_append]

theorem not_wentDown_append_asked (past : List KeyMoment) : ¬ WentDown (past ++ [.asked]) := by
  simp [wentDown_append]

/-- What an event does to a key. -/
def WindowEvent.moments (key : Nibble) : WindowEvent → List KeyMoment
  | down (.pad moved) => if moved = key then [.down] else []
  | up (.pad moved) => if moved = key then [.up] else []
  | _ => []

namespace Keypad

/-- The keypad after the events of a keyboard. -/
def handleAll (k : Keypad) (events : List WindowEvent) : Keypad := events.foldl handle k

@[simp] theorem handleAll_nil (k : Keypad) : k.handleAll [] = k := rfl

namespace Tracks

variable {k : Keypad} {past : Nibble → List KeyMoment}

theorem handle (h : k.Tracks WentDown past) (e : WindowEvent) :
    (k.handle e).Tracks WentDown fun key => past key ++ e.moments key := by
  have hother (hnone : ∀ key, e.moments key = []) :
      k.Tracks WentDown fun key => past key ++ e.moments key := by
    simpa [hnone] using h
  cases e with
  | down pressed =>
    cases pressed with
    | pad moved => exact h.press wentDown_append_down moved
    | _ => exact hother fun key => rfl
  | up released =>
    cases released with
    | pad moved => exact h.lift wentDown_append_up moved
    | _ => exact hother fun key => rfl
  | _ => exact hother fun key => rfl

/-- A keypad that follows the keyboard tracks what the keyboard reports. -/
theorem handleAll (h : k.Tracks WentDown past) (events : List WindowEvent) :
    (k.handleAll events).Tracks WentDown fun key =>
      past key ++ events.flatMap (WindowEvent.moments key) := by
  induction events generalizing k past with
  | nil => simpa using h
  | cons e rest ih =>
    have hrest := ih (h.handle e)
    simp only [List.append_assoc] at hrest
    exact hrest

end Tracks

end Keypad

/-! ## Two kinds of keypad -/

/-- What is asked of a keypad. -/
inductive KeypadCall where
  | press (key : Nibble)
  | release (key : Nibble)
  | releaseAll
  | isHeld (key : Nibble)
  | newlyPressed (key : Nibble)
deriving DecidableEq, Repr

namespace KeypadCall

/-- What a call does to a key. -/
def moments (key : Nibble) : KeypadCall → List KeyMoment
  | press moved => if moved = key then [.down] else []
  | release moved => if moved = key then [.up] else []
  | releaseAll => [.up]
  | isHeld _ => []
  | newlyPressed asked => if asked = key then [.asked] else []

/-- What a keyboard reports whose keys are moved as in the call. -/
def events : KeypadCall → List WindowEvent
  | press key => [.down (.pad key)]
  | release key => [.up (.pad key)]
  | releaseAll => (List.finRange 16).map fun key => .up (.pad key)
  | _ => []

theorem moments_events_releaseAll (key : Nibble) :
    releaseAll.events.flatMap (WindowEvent.moments key) = [.up] := by
  revert key
  decide

end KeypadCall

/-- The moments of a key in a sequence of calls. -/
def keyHistory (calls : List KeypadCall) (key : Nibble) : List KeyMoment :=
  calls.flatMap (KeypadCall.moments key)

namespace Keypad

/-- The keypad after a call that moves its keys by hand. -/
def call (k : Keypad) : KeypadCall → Keypad
  | .press key => k.press key
  | .release key => k.release key
  | .releaseAll => k.releaseAll
  | .isHeld _ => k
  | .newlyPressed key => (k.newlyPressed key).2

/-- The keypad after a call when it follows a keyboard whose keys are moved instead. -/
def callByKeyboard (k : Keypad) : KeypadCall → Keypad
  | .newlyPressed key => (k.newlyPressed key).2
  | other => k.handleAll other.events

/-- Went down since the last question, and has not been let go. -/
def StillOwed (past : List KeyMoment) : Prop := WentDown past ∧ IsDown past

/-- Each call to a keypad adds to the past of the keys what it does to them. -/
theorem call_tracks {k : Keypad} {past : Nibble → List KeyMoment} (h : k.Tracks StillOwed past)
    (c : KeypadCall) :
    (k.call c).Tracks StillOwed fun key => past key ++ c.moments key := by
  have hdown (past : List KeyMoment) :
      StillOwed (past ++ [.down]) ↔ StillOwed past ∨ ¬ IsDown past := by
    simp only [StillOwed, wentDown_append_down, isDown_append]
    tauto
  have hup (past : List KeyMoment) : ¬ StillOwed (past ++ [.up]) := by
    simp [StillOwed, isDown_append]
  have hasked (past : List KeyMoment) : ¬ StillOwed (past ++ [.asked]) := by
    simp [StillOwed, not_wentDown_append_asked]
  cases c with
  | press key => exact h.press hdown key
  | release key => exact h.release hup key
  | releaseAll => exact Tracks.releaseAll (k := k) hup
  | isHeld key => simpa [call, KeypadCall.moments] using h
  | newlyPressed key => exact h.ask hasked key

/-- So does each call that reaches the keypad through the keyboard. -/
theorem callByKeyboard_tracks {k : Keypad} {past : Nibble → List KeyMoment}
    (h : k.Tracks WentDown past) (c : KeypadCall) :
    (k.callByKeyboard c).Tracks WentDown fun key => past key ++ c.moments key := by
  cases c with
  | press key => exact h.press wentDown_append_down key
  | release key => exact h.lift wentDown_append_up key
  | releaseAll =>
    have hall := h.handleAll KeypadCall.releaseAll.events
    simp only [KeypadCall.moments_events_releaseAll] at hall
    exact hall
  | isHeld key => simpa [callByKeyboard, KeypadCall.moments, KeypadCall.events] using h
  | newlyPressed key => exact h.ask not_wentDown_append_asked key

/-- What each call keeps up is kept up through all calls. -/
theorem foldl_tracks {due : List KeyMoment → Prop} {next : Keypad → KeypadCall → Keypad}
    (hkeep : ∀ {k past} (c : KeypadCall), k.Tracks due past →
      (next k c).Tracks due fun key => past key ++ c.moments key)
    (hdue : ¬ due []) (calls : List KeypadCall) :
    (calls.foldl next idle).Tracks due (keyHistory calls) := by
  have hall : ∀ {k past}, k.Tracks due past →
      (calls.foldl next k).Tracks due fun key => past key ++ keyHistory calls key := by
    induction calls with
    | nil =>
      intro k past h
      simpa [keyHistory] using h
    | cons c rest ih =>
      intro k past h
      have hrest := ih (hkeep c h)
      simp only [List.append_assoc] at hrest
      exact hrest
  exact hall (Tracks.idle hdue)

/-- After any calls both keypads know which keys are down, and the one that follows a keyboard
answers for every key that has gone down since the last question. The one whose keys are released by
hand does so only if the key is down still; this is where they differ, and nowhere else. -/
theorem newlyPressed_after_calls (calls : List KeypadCall) (key : Nibble) :
    let byHand := calls.foldl call idle
    let byKeyboard := calls.foldl callByKeyboard idle
    ((byHand.newlyPressed key).1 = true ↔
        WentDown (keyHistory calls key) ∧ IsDown (keyHistory calls key)) ∧
      ((byKeyboard.newlyPressed key).1 = true ↔ WentDown (keyHistory calls key)) ∧
      (byHand.isHeld key = true ↔ IsDown (keyHistory calls key)) ∧
      byKeyboard.isHeld key = byHand.isHeld key ∧
      ((byHand.newlyPressed key).1 = (byKeyboard.newlyPressed key).1 ↔
        (WentDown (keyHistory calls key) → IsDown (keyHistory calls key))) := by
  intro byHand byKeyboard
  have hhand : byHand.Tracks StillOwed (keyHistory calls) :=
    foldl_tracks (fun c h => call_tracks h c) (fun h => not_wentDown_nil h.1) calls
  have hkeyboard : byKeyboard.Tracks WentDown (keyHistory calls) :=
    foldl_tracks (fun c h => callByKeyboard_tracks h c) not_wentDown_nil calls
  have howed := hhand.owed key
  have howed' := hkeyboard.owed key
  refine ⟨howed, howed', hhand.held key, ?_, ?_⟩
  · rw [Bool.eq_iff_iff, hhand.held, hkeyboard.held]
  · rw [Bool.eq_iff_iff, howed, howed', StillOwed]
    tauto

/-- A key is pressed and released, and the next question is answered with no. -/
theorem short_press_lost :
    let calls := [KeypadCall.press 5, .release 5]
    WentDown (keyHistory calls 5) ∧ ((calls.foldl call idle).newlyPressed 5).1 = false ∧
      ((calls.foldl callByKeyboard idle).newlyPressed 5).1 = true := by
  refine ⟨⟨[], [.up], rfl, not_isDown_nil, by decide⟩, by decide, by decide⟩

end Keypad

end ChipEight
