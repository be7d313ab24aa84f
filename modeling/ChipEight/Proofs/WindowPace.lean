import Mathlib.Algebra.Ring.Parity
import ChipEight.Proofs.WindowPicture

/-!
# The pace of the window loop

The loop of a window asks four things of its machine: to note a key that goes down or up, to start
over, and to go on by a span of time. `hostCalls` lists what the frames of a script ask for, told
without the window: in each frame the keys and restarts in the order of the events, and then an
update by the time since the previous frame, unless the pause key has gone down an odd number of
times or the machine has halted. The loop does to its machine exactly this, up to the first span of
time that the timer subsystem of the machine rejects.

* `hostCalls_paced`: the calls of the frames one by one.
* `hostCalls_ready`, `Machine.reset_mem_of_halted`: a machine that has halted is not updated before
  it is started over.
* `Turn.Serves`: what a step of the loop does to the machine, to the pause and to the window being
  open; `handleAll_serves` and `frame_serves` say it of the events and of a frame.
* `ShowsScreen.frame_breaks`: a frame whose span of time is rejected ends the loop.
* `Window.loop_is_headless_run`: the whole loop.
-/

namespace ChipEight

/-! ## Calls -/

/-- What a window asks of its machine. -/
inductive HostCall where
  | press (key : Nibble)
  | lift (key : Nibble)
  | reset
  | update (delta : Float)
deriving DecidableEq

/-- What an event of a window asks of the machine, if anything. -/
def WindowEvent.call? : WindowEvent → Option HostCall
  | .down (.pad key) => some (.press key)
  | .up (.pad key) => some (.lift key)
  | .down .restart => some .reset
  | _ => none

namespace Machine

/-- What a machine does when the window asks for something. -/
def answer (m : Machine Float) : HostCall → Outcome Float Unit
  | .press key => .done { m with keypad := m.keypad.press key } ()
  | .lift key => .done { m with keypad := m.keypad.lift key } ()
  | .reset => m.reset none
  | .update delta => (m.update (Amount.real delta)).map fun _ => ()

/-- The machine after all calls, those that fail included. -/
def afterCalls (m : Machine Float) (calls : List HostCall) : Machine Float :=
  calls.foldl (fun m call => (m.answer call).machine) m

/-- What happens in the course of the calls. -/
def callEvents (m : Machine Float) : List HostCall → List Event
  | [] => []
  | call :: calls => (m.answer call).events ++ (m.answer call).machine.callEvents calls

/-- Something holds at every call, of the machine that it comes to. -/
def allAlong (p : Machine Float → HostCall → Bool) (m : Machine Float) : List HostCall → Bool
  | [] => true
  | call :: calls => p m call && (m.answer call).machine.allAlong p calls

/-- The timer subsystem takes in the span that the call hands over: its clocks advance by it, and
the delay and sound timers are decremented by the ticks that fall due. -/
def accepts (m : Machine Float) : HostCall → Bool
  | .update delta => (m.passTime (Amount.real delta)).2.isOk
  | _ => true

/-- The machine has not halted where the call is an update. -/
def readyFor (m : Machine Float) : HostCall → Bool
  | .update _ => !m.halted
  | _ => true

theorem afterCalls_append (m : Machine Float) (first second : List HostCall) :
    m.afterCalls (first ++ second) = (m.afterCalls first).afterCalls second :=
  List.foldl_append

theorem callEvents_append (m : Machine Float) (first second : List HostCall) :
    m.callEvents (first ++ second) =
      m.callEvents first ++ (m.afterCalls first).callEvents second := by
  induction first generalizing m with
  | nil => rfl
  | cons call calls ih =>
    show (m.answer call).events ++ (m.answer call).machine.callEvents (calls ++ second) = _
    rw [ih, ← List.append_assoc]
    rfl

theorem allAlong_append (p : Machine Float → HostCall → Bool) (m : Machine Float)
    (first second : List HostCall) :
    m.allAlong p (first ++ second) =
      (m.allAlong p first && (m.afterCalls first).allAlong p second) := by
  induction first generalizing m with
  | nil => rfl
  | cons call calls ih =>
    show (p m call && (m.answer call).machine.allAlong p (calls ++ second)) = _
    rw [ih, ← Bool.and_assoc]
    rfl

end Machine

/-! ## The calls of a script -/

namespace Frame

/-- What the events of a frame ask for. -/
def dealt (f : Frame) : List HostCall := f.events.filterMap WindowEvent.call?

/-- How often the pause key goes down in a frame. -/
def pauses (f : Frame) : Nat := f.events.count (.down .pause)

/-- What a frame asks of a machine, when the frame before was at the instant `last` and the pause
key has gone down `past` times before. -/
def calls (f : Frame) (m : Machine Float) (last : Float) (past : Nat) : List HostCall :=
  f.dealt ++
    if Even (past + f.pauses) ∧ (m.afterCalls f.dealt).halted = false then [.update (f.now - last)]
    else []

end Frame

/-- What the frames of a script ask of a machine, each in its turn. -/
def hostCalls (m : Machine Float) (last : Float) (past : Nat) : List Frame → List (List HostCall)
  | [] => []
  | f :: fs =>
    f.calls m last past ::
      hostCalls (m.afterCalls (f.calls m last past)) f.now (past + f.pauses) fs

/-- How often the pause key goes down in some frames. -/
def pausesIn (frames : List Frame) : Nat :=
  (frames.flatMap Frame.events).count (.down .pause)

/-- For each frame of a script these are its calls: the machine is the one after the calls of the
frames before, and the time is that since the frame before. -/
structure Paced (m : Machine Float) (start : Float) (past : Nat) (script : List Frame)
    (calls : List (List HostCall)) : Prop where
  length : calls.length = script.length
  each : ∀ before f later, script = before ++ f :: later → ∃ earlier rest,
    calls = earlier ++ f.calls (m.afterCalls earlier.flatten) (lastInstant start before)
      (past + pausesIn before) :: rest ∧ earlier.length = before.length

/-- The calls of a script have the pace that its frames give them. -/
theorem hostCalls_paced (m : Machine Float) (start : Float) (past : Nat) (script : List Frame) :
    Paced m start past script (hostCalls m start past script) := by
  induction script generalizing m start past with
  | nil =>
    refine ⟨rfl, fun before f later hscript => ?_⟩
    cases before <;> cases hscript
  | cons f fs ih =>
    obtain ⟨hlength, heach⟩ := ih (m.afterCalls (f.calls m start past)) f.now (past + f.pauses)
    refine ⟨congrArg (· + 1) hlength, fun before f' later hscript => ?_⟩
    cases before with
    | nil =>
      cases hscript
      exact ⟨[], _, rfl, rfl⟩
    | cons g before =>
      cases hscript
      obtain ⟨earlier, rest, hcalls, hearlier⟩ := heach before f' later rfl
      refine ⟨f.calls m start past :: earlier, rest, ?_, congrArg (· + 1) hearlier⟩
      have hpauses : past + pausesIn (f :: before) = past + f.pauses + pausesIn before := by
        rw [pausesIn, List.flatMap_cons, List.count_append, ← Nat.add_assoc]
        rfl
      rw [hostCalls, hcalls, lastInstant_cons, hpauses, List.flatten_cons,
        Machine.afterCalls_append]
      rfl

/-! ## Machines that have halted -/

namespace Machine

/-- A machine that has halted stays so until a call to start over. -/
theorem afterCalls_halted {m : Machine Float} {calls : List HostCall} (hhalted : m.halted = true)
    (hno : .reset ∉ calls) : (m.afterCalls calls).halted = true := by
  induction calls generalizing m with
  | nil => exact hhalted
  | cons call calls ih =>
    rw [List.mem_cons, not_or] at hno
    apply ih _ hno.2
    cases call with
    | press key => exact hhalted
    | lift key => exact hhalted
    | reset => exact (hno.1 rfl).elim
    | update delta =>
      show (m.update (Amount.real delta)).machine.halted = true
      rw [(update_of_halted hhalted _).1]
      exact hhalted

/-- Where every update comes to a machine that has not halted, there is a restart between a halt
and the next update. -/
theorem reset_mem_of_halted {m : Machine Float} {before between later : List HostCall}
    {delta : Float}
    (hready : m.allAlong readyFor (before ++ between ++ .update delta :: later) = true)
    (hhalted : (m.afterCalls before).halted = true) : .reset ∈ between := by
  by_contra hno
  have hstill := afterCalls_halted hhalted hno
  rw [← afterCalls_append] at hstill
  rw [allAlong_append, Bool.and_eq_true] at hready
  obtain ⟨hnow, -⟩ := (Bool.and_eq_true _ _).mp hready.2
  rw [readyFor, hstill] at hnow
  cases hnow

theorem allAlong_of_forall {p : Machine Float → HostCall → Bool} {calls : List HostCall}
    (hp : ∀ call ∈ calls, ∀ m, p m call = true) (m : Machine Float) :
    m.allAlong p calls = true := by
  induction calls generalizing m with
  | nil => rfl
  | cons call calls ih =>
    obtain ⟨hfirst, hrest⟩ := List.forall_mem_cons.mp hp
    rw [allAlong, hfirst m, ih hrest]
    rfl

end Machine

/-- No event asks for time to pass. -/
theorem Frame.not_update_mem_dealt (f : Frame) (delta : Float) : .update delta ∉ f.dealt := by
  intro hmem
  obtain ⟨e, -, he⟩ := List.mem_filterMap.mp hmem
  unfold WindowEvent.call? at he
  split at he <;> cases he

/-- A frame does not ask for time to pass on a machine that has halted. -/
theorem Frame.calls_ready (f : Frame) (m : Machine Float) (last : Float) (past : Nat) :
    m.allAlong Machine.readyFor (f.calls m last past) = true := by
  have hdealt : m.allAlong Machine.readyFor f.dealt = true := by
    refine Machine.allAlong_of_forall (fun call hcall m' => ?_) m
    cases call with
    | update delta => exact (f.not_update_mem_dealt delta hcall).elim
    | _ => rfl
  rw [calls, Machine.allAlong_append, hdealt, Bool.true_and]
  split
  case isTrue htimed =>
    show (!(m.afterCalls f.dealt).halted && true) = true
    rw [htimed.2]
    rfl
  case isFalse => rfl

/-- Nor do the frames of a script. -/
theorem hostCalls_ready (m : Machine Float) (last : Float) (past : Nat) (script : List Frame) :
    m.allAlong Machine.readyFor (hostCalls m last past script).flatten = true := by
  induction script generalizing m last past with
  | nil => rfl
  | cons f fs ih =>
    rw [hostCalls, List.flatten_cons, Machine.allAlong_append, f.calls_ready, ih]
    rfl

/-! ## Rejected spans -/

namespace Machine

/-- What cannot be taken in is rejected. -/
theorem accepts_update_eq_false_iff {m : Machine Float} {delta : Float} :
    m.accepts (.update delta) = false ↔ ∃ cause, m.timers.Rejects (Amount.real delta) cause := by
  show (m.passTime (Amount.real delta)).2.isOk = false ↔ _
  rcases hpass : m.passTime (Amount.real delta) with ⟨n, cause | due⟩
  · exact iff_of_true rfl ⟨cause, (passTime_eq_error_iff.mp hpass).2⟩
  · refine iff_of_false Bool.noConfusion ?_
    rintro ⟨cause, hrejects⟩
    rw [passTime_eq_error_iff.mpr ⟨rfl, hrejects⟩] at hpass
    cases hpass

/-- An update whose span is taken in fails by a fault of the program only. -/
theorem fault_of_accepts {m : Machine Float} {delta : Float} {failure : Failure}
    (haccepts : m.accepts (.update delta) = true)
    (hresult : (m.update (Amount.real delta)).result = .error failure) :
    ∃ cause, failure = .fault cause := by
  rcases update_failure hresult with hfault | ⟨cause, -, -, hrejects⟩
  · exact hfault
  · rw [accepts_update_eq_false_iff.mpr ⟨cause, hrejects⟩] at haccepts
    cases haccepts

end Machine

/-- The keys and restarts of a frame hand over no span of time. -/
theorem Frame.accepts_dealt (f : Frame) (m : Machine Float) :
    m.allAlong Machine.accepts f.dealt = true := by
  refine Machine.allAlong_of_forall (fun call hcall m' => ?_) m
  cases call with
  | update delta => exact (f.not_update_mem_dealt delta hcall).elim
  | _ => rfl

/-! ## Steps of the loop -/

namespace Window

variable {scale : Nat} {scheme : Scheme} {w : Window scale}

/-- The step does to the machine what the calls do, opens and ends the pause and closes the window
as the events say, and ends without a fault. -/
structure Turn.Serves (t : Turn scale) (w : Window scale) (events : List WindowEvent)
    (calls : List HostCall) : Prop where
  fault : t.fault = none
  machine : t.window.machine = w.machine.afterCalls calls
  plays : t.plays = (w.machine.callEvents calls).filterMap playOf?
  last : t.window.last = w.last
  paused : ∀ past, (w.paused = true ↔ Odd past) →
    (t.window.paused = true ↔ Odd (past + events.count (.down .pause)))
  running : t.window.running = true ↔ w.running = true ∧ ∀ e ∈ events, ¬ e.Closes

/-- Two steps of the loop in a row serve the calls of both. -/
theorem Turn.Serves.andThen {t : Turn scale} {next : Window scale → Turn scale}
    {events events' : List WindowEvent} {calls calls' : List HostCall}
    (ht : t.Serves w events calls) (hnext : (next t.window).Serves t.window events' calls') :
    (t.andThen next).Serves w (events ++ events') (calls ++ calls') := by
  rw [Turn.andThen_of_none ht.fault]
  constructor
  · exact hnext.fault
  · rw [Machine.afterCalls_append, ← ht.machine]
    exact hnext.machine
  · rw [Machine.callEvents_append, List.filterMap_append, ← ht.machine, ← ht.plays, ← hnext.plays]
  · exact hnext.last.trans ht.last
  · intro past hpast
    rw [List.count_append, ← Nat.add_assoc]
    exact hnext.paused _ (ht.paused past hpast)
  · rw [List.forall_mem_append, ← and_assoc, ← ht.running]
    exact hnext.running

theorem quiet_serves (w : Window scale) : (Turn.quiet w).Serves w [] [] where
  fault := rfl
  machine := rfl
  plays := rfl
  last := rfl
  paused past hpast := hpast
  running := by simp [Turn.quiet]

theorem say_serves (w : Window scale) (level : Level) (message : String) :
    (w.say level message).Serves w [] [] where
  fault := rfl
  machine := rfl
  plays := rfl
  last := rfl
  paused past hpast := hpast
  running := by simp [say]

/-- The window follows the machine through a call. -/
theorem follow_serves (w : Window scale) (call : HostCall) :
    (w.follow (w.machine.answer call).machine (w.machine.answer call).events).Serves w []
      [call] where
  fault := rfl
  machine := rfl
  plays := by
    rw [Machine.callEvents, Machine.callEvents, List.append_nil]
    rfl
  last := rfl
  paused past hpast := hpast
  running := by simp [follow]

theorem ShowsScreen.redraw_serves (hw : w.ShowsScreen scheme) (hscale : 1 ≤ scale) :
    w.redraw.Serves w [] [] := by
  unfold Window.redraw
  rw [hw.shows.redraw hscale]
  exact w.quiet_serves

/-- Starting over does not fail, for the program fits; nor does painting the surface anew. -/
theorem ShowsScreen.restart_serves (hw : w.ShowsScreen scheme) (hscale : 1 ≤ scale) :
    w.restart.Serves w [] [.reset] := by
  obtain ⟨state, hstate⟩ := Machine.exists_initialState w.machine.seed w.machine.dialect
    w.machine.stackLimit hw.fits
  have hreset : w.machine.reset none = _ := Machine.reset_of_ok hstate
  have hfollow := (hw.follow hscale (fun r hr => Machine.reset_mirrors none hr)
    (by rw [hreset]; rfl)).window
  unfold Window.restart
  refine Turn.Serves.andThen (w.follow_serves .reset) ?_
  have hresult : (w.machine.reset none).result = .ok () := by rw [hreset]
  rw [hresult]
  exact hfollow.redraw_serves hscale

/-- An event that neither pauses the machine nor closes the window leaves the window as it is. -/
theorem Turn.Serves.of_other {t : Turn scale} {calls : List HostCall} (ht : t.Serves w [] calls)
    {e : WindowEvent} (hpause : e ≠ .down .pause) (hopen : ¬ e.Closes) :
    t.Serves w [e] calls where
  fault := ht.fault
  machine := ht.machine
  plays := ht.plays
  last := ht.last
  paused := by
    rw [List.count_singleton, beq_eq_false_iff_ne.mpr hpause]
    exact ht.paused
  running := by
    rw [List.forall_mem_singleton, ht.running]
    simp [hopen]

theorem keys_serves (w : Window scale) (call : HostCall) {keypad : Keypad}
    (hcall : w.machine.answer call = .done { w.machine with keypad } ()) :
    (Turn.quiet { w with machine := { w.machine with keypad } }).Serves w [] [call] where
  fault := rfl
  machine := by
    show _ = (w.machine.answer call).machine
    rw [hcall]
    rfl
  plays := by
    rw [Machine.callEvents, hcall]
    rfl
  last := rfl
  paused past hpast := hpast
  running := by simp [Turn.quiet]

theorem close_serves (w : Window scale) {e : WindowEvent} (hpause : e ≠ .down .pause)
    (hcloses : e.Closes) : (Turn.quiet { w with running := false }).Serves w [e] [] where
  fault := rfl
  machine := rfl
  plays := rfl
  last := rfl
  paused past hpast := by
    rw [List.count_singleton, beq_eq_false_iff_ne.mpr hpause]
    exact hpast
  running := by simp [Turn.quiet, hcloses]

theorem togglePause_serves (w : Window scale) : w.togglePause.Serves w [.down .pause] [] where
  fault := rfl
  machine := rfl
  plays := rfl
  last := rfl
  paused past hpast := by
    show (!w.paused) = true ↔ Odd (past + 1)
    rw [Nat.odd_add_one, ← hpast]
    simp
  running := by
    rw [List.forall_mem_singleton]
    simp [togglePause, say, WindowEvent.Closes]

/-- Each event is served by the call that it stands for. -/
theorem ShowsScreen.handle_serves (hw : w.ShowsScreen scheme) (hscale : 1 ≤ scale)
    (e : WindowEvent) : (w.handle e).Serves w [e] e.call?.toList := by
  have hopen {e : WindowEvent} (hquit : e ≠ .quit) (hescape : e ≠ .down .escape) : ¬ e.Closes := by
    rintro (hcloses | hcloses)
    · exact hquit hcloses
    · exact hescape hcloses
  cases e with
  | quit => exact w.close_serves (by decide) (Or.inl rfl)
  | pointer => exact w.quiet_serves.of_other (by decide) (hopen (by decide) (by decide))
  | up key =>
    cases key with
    | pad key =>
      have hlift := w.keys_serves (.lift key) rfl
      exact hlift.of_other (by simp) (hopen (by simp) (by simp))
    | _ => exact w.quiet_serves.of_other (by decide) (hopen (by decide) (by decide))
  | down key =>
    cases key with
    | pad key =>
      have hpress := w.keys_serves (.press key) rfl
      exact hpress.of_other (by simp) (hopen (by simp) (by simp))
    | escape => exact w.close_serves (by decide) (Or.inr rfl)
    | pause => exact w.togglePause_serves
    | restart =>
      exact (hw.restart_serves hscale).of_other (by decide) (hopen (by decide) (by decide))
    | other => exact w.quiet_serves.of_other (by decide) (hopen (by decide) (by decide))

/-- The events of a frame are served in their order. -/
theorem ShowsScreen.handleAll_serves (hw : w.ShowsScreen scheme) (hscale : 1 ≤ scale)
    (events : List WindowEvent) :
    (w.handleAll events).Serves w events (events.filterMap WindowEvent.call?) := by
  induction events generalizing w with
  | nil => exact w.quiet_serves
  | cons e es ih =>
    have hcalls : (e :: es).filterMap WindowEvent.call? =
        e.call?.toList ++ es.filterMap WindowEvent.call? := by
      rw [List.filterMap_cons]
      cases e.call? <;> rfl
    rw [hcalls]
    show ((w.handle e).andThen fun w => w.handleAll es).Serves w ([e] ++ es) _
    exact (hw.handle_serves hscale e).andThen (ih (hw.handle hscale e).window)

/-- A span that is taken in is served, also if a fault halts the machine in it. -/
theorem advance_serves (w : Window scale) {delta : Float}
    (haccepts : w.machine.accepts (.update delta) = true) :
    (w.advance delta).Serves w [] [.update delta] := by
  unfold Window.advance
  refine Turn.Serves.andThen (w.follow_serves (.update delta)) ?_
  cases hresult : (w.machine.update (Amount.real delta)).result with
  | ok due => exact quiet_serves _
  | error failure =>
    obtain ⟨cause, rfl⟩ := Machine.fault_of_accepts haccepts hresult
    exact say_serves _ _ _

/-- An update whose span is rejected ends the loop. -/
theorem advance_breaks (w : Window scale) {delta : Float} {cause : NumberFault}
    (hrunning : w.machine.halted = false)
    (hrejects : w.machine.timers.Rejects (Amount.real delta) cause) :
    (w.advance delta).fault = some (.failure (.number cause)) ∧
      (w.advance delta).window.machine = (w.machine.answer (.update delta)).machine := by
  have hupdate : w.machine.update (Amount.real delta) = _ :=
    (Machine.update_of_error hrunning hrejects).1
  have hresult : (w.machine.update (Amount.real delta)).result = .error (.number cause) := by
    rw [hupdate]
    rfl
  unfold Window.advance
  dsimp only
  rw [Turn.andThen_of_none rfl, hresult]
  exact ⟨rfl, rfl⟩

/-- A frame serves its events and then, where the window is not paused and the machine has not
halted, turns to the time since the frame before. -/
theorem ShowsScreen.frame_eq (hw : w.ShowsScreen scheme) (hscale : 1 ≤ scale) {past : Nat}
    (hpaused : w.paused = true ↔ Odd past) (f : Frame) :
    ∃ t : Turn scale, t.Serves { w with last := f.now } f.events f.dealt ∧
      w.frame f = t.andThen fun v =>
        if Even (past + f.pauses) ∧ (w.machine.afterCalls f.dealt).halted = false then
          v.advance (f.now - w.last)
        else .quiet v := by
  have hlater : ShowsScreen { w with last := f.now } scheme := ⟨hw.shows, hw.fits⟩
  have hevents := hlater.handleAll_serves hscale f.events
  have hodd := hevents.paused past hpaused
  refine ⟨_, hevents, ?_⟩
  unfold Window.frame
  dsimp only
  generalize Window.handleAll _ _ = t at hevents hodd ⊢
  have hmachine : t.window.machine = w.machine.afterCalls f.dealt := hevents.machine
  rw [Turn.andThen_of_none hevents.fault, Turn.andThen_of_none hevents.fault]
  have hcondition : (!t.window.paused && !t.window.machine.halted) = true ↔
      Even (past + f.pauses) ∧ (w.machine.afterCalls f.dealt).halted = false := by
    rw [Bool.and_eq_true, Bool.not_eq_true', Bool.not_eq_true', ← Bool.not_eq_true, hodd,
      hmachine, Nat.not_odd_iff_even]
    rfl
  simp only [hcondition]

/-- A frame whose calls are all taken in serves them. -/
theorem ShowsScreen.frame_serves (hw : w.ShowsScreen scheme) (hscale : 1 ≤ scale) {past : Nat}
    (hpaused : w.paused = true ↔ Odd past) (f : Frame)
    (haccepts : w.machine.allAlong Machine.accepts (f.calls w.machine w.last past) = true) :
    (w.frame f).Serves { w with last := f.now } f.events (f.calls w.machine w.last past) := by
  obtain ⟨t, hevents, hframe⟩ := hw.frame_eq hscale hpaused f
  have hmachine : t.window.machine = w.machine.afterCalls f.dealt := hevents.machine
  rw [Frame.calls, Machine.allAlong_append, Bool.and_eq_true] at haccepts
  rw [hframe, ← List.append_nil f.events, Frame.calls]
  refine hevents.andThen ?_
  split
  case isTrue hgoes =>
    have htimed := haccepts.2
    rw [if_pos hgoes, ← hmachine] at htimed
    exact t.window.advance_serves ((Bool.and_eq_true _ _).mp htimed).1
  case isFalse => exact t.window.quiet_serves

/-- A frame whose calls are not all taken in ends the loop over its update. -/
theorem ShowsScreen.frame_breaks (hw : w.ShowsScreen scheme) (hscale : 1 ≤ scale) {past : Nat}
    (hpaused : w.paused = true ↔ Odd past) (f : Frame)
    (hrejects : w.machine.allAlong Machine.accepts (f.calls w.machine w.last past) = false) :
    ∃ delta cause, f.calls w.machine w.last past = f.dealt ++ [.update delta] ∧
      (w.machine.afterCalls f.dealt).timers.Rejects (Amount.real delta) cause ∧
      (w.frame f).fault = some (.failure (.number cause)) ∧
      (w.frame f).window.machine = w.machine.afterCalls (f.calls w.machine w.last past) := by
  obtain ⟨t, hevents, hframe⟩ := hw.frame_eq hscale hpaused f
  have hmachine : t.window.machine = w.machine.afterCalls f.dealt := hevents.machine
  rw [hframe, Turn.andThen_of_none hevents.fault]
  unfold Frame.calls at hrejects ⊢
  rw [Machine.allAlong_append, f.accepts_dealt, Bool.true_and] at hrejects
  split at hrejects
  case isTrue hgoes =>
    rw [Machine.allAlong, Machine.allAlong, Bool.and_true] at hrejects
    obtain ⟨cause, hcause⟩ := Machine.accepts_update_eq_false_iff.mp hrejects
    have hrunning := hgoes.2
    rw [← hmachine] at hrunning
    have hbreaks := t.window.advance_breaks hrunning (hmachine ▸ hcause)
    rw [if_pos hgoes, if_pos hgoes, Machine.afterCalls_append]
    refine ⟨_, cause, rfl, hcause, hbreaks.1, ?_⟩
    rw [← hmachine]
    exact hbreaks.2
  case isFalse => cases hrejects

end Window

/-! ## Scripts -/

/-- What the machine of a window is built from. -/
def WindowSettings.setup (settings : WindowSettings) : Setup Amount :=
  { Setup.standard with
    rom := settings.rom
    dialect := settings.dialect
    instructionHz := settings.instructionHz
    stackLimit := settings.stackLimit
    seed := settings.seed }

instance : DecidablePred WindowEvent.Closes := fun e =>
  inferInstanceAs (Decidable (e = .quit ∨ e = .down .escape))

instance : DecidablePred Frame.Closes := fun f =>
  inferInstanceAs (Decidable (∃ e ∈ f.events, e.Closes))

/-- The frames of a script up to the first that closes the window, that one included. -/
def upToClosing : List Frame → List Frame
  | [] => []
  | f :: fs => f :: if f.Closes then [] else upToClosing fs

/-- What is shown frame by frame is what the calls of the frames do to this machine. -/
structure Playback.Tracks {scale : Nat} (p : Playback scale) (m : Machine Float)
    (calls : List (List HostCall)) : Prop where
  length : p.shown.length = calls.length
  each : ∀ before now later, calls = before ++ now :: later → ∃ shown,
    p.shown[before.length]? = some shown ∧
      shown.machine = m.afterCalls (before.flatten ++ now) ∧
      shown.plays = ((m.afterCalls before.flatten).callEvents now).filterMap Window.playOf?

/-- What is shown frame by frame, and the machine in the end, is what the calls of the frames do to
this machine. -/
structure Playback.Follows {scale : Nat} (p : Playback scale) (m : Machine Float)
    (calls : List (List HostCall)) : Prop extends p.Tracks m calls where
  fault : p.fault = none
  machine : p.machine = m.afterCalls calls.flatten

/-- The earlier frames are shown. In the next one, which asks for these calls, the last call is an
update by a span that is rejected, and the loop ends with this as its fault. -/
structure Playback.BreaksOff {scale : Nat} (p : Playback scale) (m : Machine Float)
    (earlier : List (List HostCall)) (now : List HostCall) : Prop
    extends p.Tracks m earlier where
  fault : ∃ dealt delta cause, now = dealt ++ [.update delta] ∧
    (m.afterCalls (earlier.flatten ++ dealt)).timers.Rejects (Amount.real delta) cause ∧
    p.fault = some (.failure (.number cause))
  machine : p.machine = m.afterCalls (earlier.flatten ++ now)

namespace Window

variable {scale : Nat} {scheme : Scheme} {w : Window scale}

theorem tracks_nil (p : Playback scale) (hshown : p.shown = []) (m : Machine Float) :
    p.Tracks m [] := by
  refine ⟨congrArg List.length hshown, ?_⟩
  intro before now later hcalls
  cases before <;> cases hcalls

/-- One more frame in front of those that are tracked. -/
theorem tracks_cons {m : Machine Float} {shown : Shown scale} {now : List HostCall}
    {p : Playback scale} {later : List (List HostCall)}
    (hmachine : shown.machine = m.afterCalls now)
    (hplays : shown.plays = (m.callEvents now).filterMap playOf?)
    (hp : p.Tracks shown.machine later) :
    ({ p with shown := shown :: p.shown } : Playback scale).Tracks m (now :: later) := by
  obtain ⟨hlength, heach⟩ := hp
  refine ⟨congrArg (· + 1) hlength, ?_⟩
  intro before now' later' hcalls
  cases before with
  | nil =>
    cases hcalls
    exact ⟨shown, rfl, hmachine, hplays⟩
  | cons first before =>
    cases hcalls
    obtain ⟨shown', hshown', hmachine', hplays'⟩ := heach before now' later' rfl
    refine ⟨shown', hshown', ?_, ?_⟩
    · rw [hmachine', hmachine, ← Machine.afterCalls_append, List.flatten_cons, List.append_assoc]
    · rw [hplays', hmachine, ← Machine.afterCalls_append, List.flatten_cons]

theorem follows_nil (m : Machine Float) (text : String) :
    (⟨[], text, m, none⟩ : Playback scale).Follows m [] :=
  ⟨tracks_nil _ rfl m, rfl, rfl⟩

theorem follows_cons {m : Machine Float} {shown : Shown scale} {now : List HostCall}
    {p : Playback scale} {later : List (List HostCall)}
    (hmachine : shown.machine = m.afterCalls now)
    (hplays : shown.plays = (m.callEvents now).filterMap playOf?)
    (hp : p.Follows shown.machine later) :
    ({ p with shown := shown :: p.shown } : Playback scale).Follows m (now :: later) := by
  obtain ⟨htracks, hfault, hend⟩ := hp
  refine ⟨tracks_cons hmachine hplays htracks, hfault, ?_⟩
  rw [List.flatten_cons, Machine.afterCalls_append, ← hmachine]
  exact hend

/-- An open window stays open after a frame exactly if no event of the frame closes it. -/
theorem Turn.Serves.running_iff {t : Turn scale} {f : Frame} {calls : List HostCall}
    (ht : t.Serves { w with last := f.now } f.events calls) (hrunning : w.running = true) :
    t.window.running = true ↔ ¬ f.Closes := by
  rw [ht.running, Frame.Closes]
  simp [hrunning]

/-- A script whose calls are all taken in is followed to its end. -/
theorem run_follows (hw : w.ShowsScreen scheme) (hscale : 1 ≤ scale) (hrunning : w.running = true)
    {past : Nat} (hpaused : w.paused = true ↔ Odd past) (pending : String) {script : List Frame}
    (haccepts : w.machine.allAlong Machine.accepts
      (hostCalls w.machine w.last past (upToClosing script)).flatten = true) :
    (w.run pending script).Follows w.machine
      (hostCalls w.machine w.last past (upToClosing script)) := by
  induction script generalizing w past pending with
  | nil => exact follows_nil _ _
  | cons f fs ih =>
    rw [upToClosing, hostCalls, List.flatten_cons, Machine.allAlong_append,
      Bool.and_eq_true] at haccepts
    obtain ⟨hnow, hlater⟩ := haccepts
    have hserves := hw.frame_serves hscale hpaused f hnow
    have hopen := hserves.running_iff hrunning
    rw [upToClosing, hostCalls]
    unfold Window.run
    dsimp only
    rw [hserves.fault]
    by_cases hcloses : f.Closes
    · rw [if_pos hcloses, eq_false_of_ne_true (mt hopen.mp (not_not_intro hcloses))]
      exact follows_cons hserves.machine hserves.plays (follows_nil _ _)
    · rw [if_neg hcloses] at hlater ⊢
      rw [hopen.mpr hcloses]
      have hlast : (w.frame f).window.last = f.now := hserves.last
      rw [← hserves.machine, ← hlast] at hlater ⊢
      exact follows_cons hserves.machine hserves.plays (ih (frame_faithful hw hscale f).window
        (hopen.mpr hcloses) (hserves.paused past hpaused) "" hlater)

/-- The first frame whose span is rejected is not shown, and ends the loop. -/
theorem run_breaksOff (hw : w.ShowsScreen scheme) (hscale : 1 ≤ scale)
    (hrunning : w.running = true) {past : Nat} (hpaused : w.paused = true ↔ Odd past)
    (pending : String) {script : List Frame} {earlier : List (List HostCall)} {now : List HostCall}
    {later : List (List HostCall)}
    (hcalls : hostCalls w.machine w.last past (upToClosing script) = earlier ++ now :: later)
    (haccepts : w.machine.allAlong Machine.accepts earlier.flatten = true)
    (hrejects : (w.machine.afterCalls earlier.flatten).allAlong Machine.accepts now = false) :
    (w.run pending script).BreaksOff w.machine earlier now := by
  induction script generalizing w past pending earlier with
  | nil => cases earlier <;> cases hcalls
  | cons f fs ih =>
    rw [upToClosing, hostCalls] at hcalls
    unfold Window.run
    dsimp only
    cases earlier with
    | nil =>
      obtain ⟨rfl, -⟩ := List.cons.inj hcalls
      obtain ⟨delta, cause, hlast, hcause, hfault, hmachine⟩ :=
        hw.frame_breaks hscale hpaused f hrejects
      rw [hfault]
      exact ⟨tracks_nil _ rfl _, ⟨_, delta, cause, hlast, hcause, rfl⟩, hmachine⟩
    | cons first earlier =>
      obtain ⟨rfl, hrest⟩ := List.cons.inj hcalls
      rw [List.flatten_cons, Machine.allAlong_append, Bool.and_eq_true] at haccepts
      obtain ⟨hnow, hlater⟩ := haccepts
      have hserves := hw.frame_serves hscale hpaused f hnow
      have hopen := hserves.running_iff hrunning
      have hstays : ¬ f.Closes := by
        intro hcloses
        rw [if_pos hcloses] at hrest
        cases earlier <;> cases hrest
      rw [if_neg hstays] at hrest
      rw [hserves.fault, hopen.mpr hstays]
      have hlast : (w.frame f).window.last = f.now := hserves.last
      rw [List.flatten_cons, Machine.afterCalls_append] at hrejects
      rw [← hserves.machine] at hrest hlater hrejects
      rw [← hlast] at hrest
      obtain ⟨htracks, ⟨dealt, delta, cause, hdelta, hcause, hfault⟩, hend⟩ :=
        ih (frame_faithful hw hscale f).window (hopen.mpr hstays) (hserves.paused past hpaused) ""
          hrest hlater hrejects
      refine ⟨tracks_cons hserves.machine hserves.plays htracks,
        ⟨dealt, delta, cause, hdelta, ?_, hfault⟩, ?_⟩
      · rw [List.flatten_cons, List.append_assoc, Machine.afterCalls_append, ← hserves.machine]
        exact hcause
      · rw [List.flatten_cons, List.append_assoc, Machine.afterCalls_append, ← hserves.machine]
        exact hend

/-- A window comes up with a machine that has just been built. -/
theorem launch_starts {settings : WindowSettings} {m : Machine Float} {events : List Event}
    (hboot : Machine.boot settings.setup = .ok (m, events)) {console : Console} {now : Float}
    {turn : Turn scale} (hlaunch : launch scale settings console now = .ok turn) :
    turn.window.machine = m ∧ turn.window.paused = false := by
  unfold launch at hlaunch
  split at hlaunch
  · cases hlaunch
  · unfold WindowSettings.setup at hboot
    dsimp only at hlaunch
    rw [hboot] at hlaunch
    cases hlaunch
    exact ⟨rfl, rfl⟩

/-- The machine of a window can be built if its settings are accepted and the program fits. -/
theorem boot_of_fits {settings : WindowSettings} {timers : Timers Float} {seed : Seed}
    (hclocks : Timers.ofFrequencies settings.instructionHz Setup.standard.timerHz = .ok timers)
    (hseed : Seed.ofInt settings.seed = .ok seed)
    (hfits : settings.rom.length ≤ Memory.programCapacity) :
    ∃ m started, Machine.boot settings.setup = .ok (m, started) := by
  obtain ⟨state, hstate⟩ :=
    Machine.exists_initialState seed settings.dialect settings.stackLimit hfits
  exact ⟨_, _, Machine.boot_eq_ok_iff.mpr ⟨timers, seed, state, hclocks, hseed, hstate, rfl, rfl⟩⟩

/-- The loop does to its machine what the calls of the frames do to one that nobody watches, frame
by frame up to the first that closes the window. In each frame these are the keys and restarts of
its events and, if the pause key has gone down an even number of times by then and the machine has
not halted, one update by the time since the frame before; so once the machine has halted it is
started over before the next update. The loop ends without a fault as long as the spans of these
updates are taken in, and breaks off in the first frame in which one is rejected. -/
theorem loop_is_headless_run {scale : Nat} (hscale : 1 ≤ scale) {settings : WindowSettings}
    {scheme : Scheme} (hscheme : Scheme.ofName settings.scheme = .ok scheme)
    {timers : Timers Float}
    (hclocks : Timers.ofFrequencies settings.instructionHz Setup.standard.timerHz = .ok timers)
    {seed : Seed} (hseed : Seed.ofInt settings.seed = .ok seed)
    (hfits : settings.rom.length ≤ Memory.programCapacity) (console : Console) (start : Float)
    (script : List Frame) :
    ∃ (m : Machine Float) (started : List Event) (turn : Turn scale)
      (calls : List (List HostCall)),
      Machine.boot settings.setup = .ok (m, started) ∧
      launch scale settings console start = .ok turn ∧
      calls = hostCalls m start 0 (upToClosing script) ∧
      Paced m start 0 (upToClosing script) calls ∧
      (∀ before between delta later, calls.flatten = before ++ between ++ .update delta :: later →
        (m.afterCalls before).halted = true → .reset ∈ between) ∧
      (m.allAlong Machine.accepts calls.flatten = true →
        (turn.window.run turn.text script).Follows m calls) ∧
      (∀ earlier now later, calls = earlier ++ now :: later →
        m.allAlong Machine.accepts earlier.flatten = true →
        (m.afterCalls earlier.flatten).allAlong Machine.accepts now = false →
        (turn.window.run turn.text script).BreaksOff m earlier now) := by
  obtain ⟨m, started, hboot⟩ := boot_of_fits hclocks hseed hfits
  have hup : ∃ turn : Turn scale, launch scale settings console start = .ok turn ∧
      turn.window.ShowsScreen scheme ∧ turn.window.running = true ∧ turn.window.last = start :=
    launch_faithful hscheme hclocks hseed hfits console start
  obtain ⟨turn, hlaunch, hwindow, hrunning, rfl⟩ := hup
  obtain ⟨rfl, hpaused⟩ := launch_starts hboot hlaunch
  have heven : turn.window.paused = true ↔ Odd 0 := by simp [hpaused]
  refine ⟨_, started, turn, _, hboot, hlaunch, rfl, hostCalls_paced _ _ _ _, ?_, ?_, ?_⟩
  · intro before between delta later hcalls hhalted
    have hready := hostCalls_ready turn.window.machine turn.window.last 0 (upToClosing script)
    rw [hcalls] at hready
    exact Machine.reset_mem_of_halted hready hhalted
  · intro haccepts
    exact run_follows hwindow hscale hrunning heven turn.text haccepts
  · intro earlier now later hcalls haccepts hrejects
    exact run_breaksOff hwindow hscale hrunning heven turn.text hcalls haccepts hrejects

/-- A return without a call halts the machine in the first frame, so the second has no update; it is
started over while the window is paused, and goes on in the frame in which the pause ends and the
window is closed. The frame after that is left over. -/
theorem loop_is_headless_run_of_pause :
    ∃ (settings : WindowSettings) (script : List Frame) (console : Console) (m : Machine Float)
      (started : List Event) (turn : Turn 2),
      settings.rom = [0x60, 0x01, 0x00, 0xEE] ∧
      script = [⟨0.01, [.down (.pad 5)]⟩, ⟨0.02, []⟩, ⟨0.03, [.down .pause, .down .restart]⟩,
        ⟨5.0, [.down .pause, .down .escape, .up (.pad 5)]⟩, ⟨9.0, []⟩] ∧
      Machine.boot settings.setup = .ok (m, started) ∧
      launch 2 settings console 0.0 = .ok turn ∧
      (m.afterCalls [.press 5, .update (0.01 - 0.0)]).halted = true ∧
      (turn.window.run turn.text script).Follows m
        [[.press 5, .update (0.01 - 0.0)], [], [.reset], [.lift 5, .update (5.0 - 0.03)]] := by
  let settings : WindowSettings :=
    ⟨[0x60, 0x01, 0x00, 0xEE], "return", {}, .whole 500, 16, 0, "amber"⟩
  let console : Console := .ofLogger ⟨"chipvm", .critical, false, false, false⟩ []
  let script : List Frame := [⟨0.01, [.down (.pad 5)]⟩, ⟨0.02, []⟩,
    ⟨0.03, [.down .pause, .down .restart]⟩, ⟨5.0, [.down .pause, .down .escape, .up (.pad 5)]⟩,
    ⟨9.0, []⟩]
  have hclocks : ∃ timers : Timers Float,
      Timers.ofFrequencies settings.instructionHz Setup.standard.timerHz = .ok timers :=
    exists_eq_ok (by decide +kernel)
  have hvalues : (do
      let booted ← (Machine.boot settings.setup : Except Failure (Machine Float × List Event))
      let calls := hostCalls booted.1 0.0 0 (upToClosing script)
      return (booted.1.allAlong Machine.accepts calls.flatten, calls,
        (booted.1.afterCalls [.press 5, .update (0.01 - 0.0)]).halted)) =
      Except.ok (true,
        [[.press 5, .update (0.01 - 0.0)], [], [.reset], [.lift 5, .update (5.0 - 0.03)]],
        true) := by
    decide +kernel
  obtain ⟨timers, hclocks⟩ := hclocks
  have hscheme : Scheme.ofName settings.scheme = .ok Scheme.amber := by decide
  have hseed : ∃ seed, Seed.ofInt settings.seed = .ok seed := exists_eq_ok (by decide)
  obtain ⟨seed, hseed⟩ := hseed
  obtain ⟨m, started, turn, calls, hboot, hlaunch, hcalls, -, -, hfollows, -⟩ :=
    loop_is_headless_run (by decide : 1 ≤ 2) hscheme hclocks hseed (by decide) console 0.0 script
  obtain ⟨⟨m', started'⟩, hboot', hvalues⟩ := bind_eq_ok_iff.mp hvalues
  obtain rfl : m = m' := (Prod.mk.inj (Except.ok.inj (hboot.symm.trans hboot'))).1
  obtain ⟨haccepts, hrest⟩ := Prod.mk.inj (Except.ok.inj hvalues)
  obtain ⟨hlist, hhalted⟩ := Prod.mk.inj hrest
  rw [← hcalls] at haccepts hlist
  have hfollows := hfollows haccepts
  rw [hlist] at hfollows
  exact ⟨settings, script, console, m, started, turn, rfl, rfl, hboot, hlaunch, hhalted, hfollows⟩

end Window

end ChipEight
