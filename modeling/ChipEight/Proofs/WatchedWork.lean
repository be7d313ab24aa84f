import ChipEight.Proofs.Halting
import ChipEight.Proofs.WordPatterns

/-!
# Work in the sight of watchers

A `Session` lets its machine work and shows the events to the watchers afterwards. Here the watchers
are called while the machine works: a `Work` reads and changes a machine together with those who
watch it, calls the console, the display and the loudspeaker where an operation has reason to, and
ends early when one of them fails. A progress bar belongs to the host and may fail at any time.

* `Work.step`, `Work.update`, `Work.runFor`, `Work.reset`, `Work.perform`: the operations of a
  machine, with every call in its place.
* `Work.Tells`: work that shows events to the watchers and does nothing else. `tells_remark`,
  `tells_executed`, `tells_cleared` and `tells_effects` say so of the calls that operations make.
-/

namespace ChipEight

/-- Why work ends early: the machine fails, or the console, or the progress bar. -/
inductive Trouble where
  | failure (cause : Failure)
  | log (cause : LogFault)
  | bar (text : String)
deriving DecidableEq, Repr

/-- The progress bar of a host: how one is opened for a number of frames, how it advances by one
frame and how it is closed. -/
structure ProgressBar (β : Type) where
  start : Int → Except String β
  advance : β → Except String β
  close : β → Except String Unit

/-- A session in the midst of an operation. -/
structure Watched (τ β : Type) extends Session τ where
  /-- What the console has printed. -/
  text : String
  /-- The progress bar that was opened last, unless it has been closed. -/
  bar : Option β

/-- Work on a watched machine. What was done before an early end stays done. -/
abbrev Work (τ β α : Type) := ExceptT Trouble (StateM (Watched τ β)) α

variable {σ τ β α γ : Type}

/-! ## Seeing events -/

namespace Watched

def put (s : Watched τ β) (m : Machine τ) : Watched τ β := { s with machine := m }

/-- Shows events to everyone who watches. -/
def see (s : Watched τ β) (events : List Event) : Watched τ β :=
  { s with
    toSession := (s.observe events).1
    text := s.text ++ (s.observe events).2 }

@[simp] theorem machine_put (s : Watched τ β) (m : Machine τ) : (s.put m).machine = m := rfl

@[simp] theorem put_put (s : Watched τ β) (m m' : Machine τ) : (s.put m).put m' = s.put m' := rfl

@[simp] theorem put_see (s : Watched τ β) (events : List Event) (m : Machine τ) :
    (s.see events).put m = (s.put m).see events := rfl

@[simp] theorem machine_see (s : Watched τ β) (events : List Event) :
    (s.see events).machine = s.machine := rfl

@[simp] theorem see_nil (s : Watched τ β) : s.see [] = s := by
  rw [see, Session.observe_nil, String.append_empty]

theorem see_see (s : Watched τ β) (es fs : List Event) : (s.see es).see fs = s.see (es ++ fs) := by
  simp only [see, Session.observe, Console.logEvents_append, Recording.observeAll_append,
    List.filterMap_append, Option.map_map, String.append_assoc]
  congr 3
  funext played
  exact List.append_assoc _ _ _

theorem see_singleton (s : Watched τ β) (e : Event) : s.see [e] = { s with
    console := (s.console.logRemark (s.console.logger.remark? e)).1
    display := s.display.map fun r => r.observe e
    tones := s.tones.map fun played => played ++ (Session.toneOf? e).toList
    text := s.text ++ (s.console.logRemark (s.console.logger.remark? e)).2 } := by
  cases htone : Session.toneOf? e <;>
    simp [see, Session.observe, Console.logEvents, Recording.observeAll, htone]

/-- An event that only the console has something to say about. -/
theorem see_remark {e : Event} (hdisplay : ∀ r : Recording, r.observe e = r)
    (htone : Session.toneOf? e = none) (s : Watched τ β) : s.see [e] = { s with
      console := (s.console.logRemark (s.console.logger.remark? e)).1
      text := s.text ++ (s.console.logRemark (s.console.logger.remark? e)).2 } := by
  rw [see_singleton]
  simp [hdisplay, htone]

/-- An event that the console has nothing to say about. -/
theorem see_unremarked {e : Event} (hremark : ∀ l : Logger, l.remark? e = none)
    (s : Watched τ β) : s.see [e] = { s with
      display := s.display.map fun r => r.observe e
      tones := s.tones.map fun played => played ++ (Session.toneOf? e).toList } := by
  rw [see_singleton]
  simp [hremark, Console.logRemark]

end Watched

namespace Work

theorem bind_apply (work : Work τ β α) (next : α → Work τ β γ) (s : Watched τ β) :
    (work >>= next) s = match work s with
      | (.ok a, t) => next a t
      | (.error trouble, t) => (.error trouble, t) := by
  rcases hwork : work s with ⟨result, t⟩
  simp only [bind, ExceptT.bind, ExceptT.mk, StateT.bind, hwork]
  cases result with
  | ok a => rfl
  | error trouble => rfl

/-! ## Calls -/

def machine : Work τ β (Machine τ) := return (← get).machine

def setMachine (m : Machine τ) : Work τ β Unit := modify fun s => s.put m

def fail (failure : Failure) : Work τ β α := throw (.failure failure)

theorem machine_bind_apply (next : Machine τ → Work τ β α) (s : Watched τ β) :
    (machine >>= next) s = next s.machine s := rfl

theorem setMachine_then_apply (m : Machine τ) (next : Work τ β α) (s : Watched τ β) :
    (do setMachine m; next) s = next (s.put m) := rfl

/-- A number that had to be reckoned out. -/
def number : Except NumberFault α → Work τ β α
  | .ok a => return a
  | .error cause => fail (.number cause)

theorem number_ok_bind (a : α) (next : α → Work τ β γ) :
    (number (.ok a) >>= next) = next a := rfl

/-- Tells the display, if there is one, about a pixel. -/
def setPixel (x : Fin screenWidth) (y : Fin screenHeight) (lit : Bool) : Work τ β Unit :=
  modify fun s => { s with display := s.display.map fun r => r.setPixel x.val y.val lit }

/-- Tells the display, if there is one, to clear. -/
def clearDisplay : Work τ β Unit :=
  modify fun s => { s with display := s.display.map Recording.clear }

/-- Lets the loudspeaker, if there is one, play a tone. -/
def playTone (ticks : Byte) : Work τ β Unit :=
  modify fun s => { s with tones := s.tones.map fun played => played ++ [ticks] }

/-- Whether the console shows the level with this name. -/
def showsLevel (level : String) : Work τ β Bool := do
  match (← get).console.logger.showsNamed level with
  | .ok shown => return shown
  | .error cause => throw (.log cause)

/-- Hands a message to the console. A level that there is not ends the work. -/
def log (level message : String) : Work τ β Unit := do
  let s ← get
  match s.console.logNamed level message with
  | .ok (console, text) => set { s with console, text := s.text ++ text }
  | .error cause => throw (.log cause)

/-- Hands a message with its level to the console. -/
def logRemark (remark : Level × String) : Work τ β Unit := log remark.1.name remark.2

/-- Traces an executed instruction. Whether its level is shown is asked first. -/
def logInstruction (address : Word) (op : Opcode) : Work τ β Unit := do
  match (← get).console.logger.trace? address.toNat op with
  | some remark => if ← showsLevel remark.1.name then logRemark remark
  | none => return ()

/-- Tells the display of a change of the screen, as the word of the instruction has it. -/
def notifyDisplay (op : Opcode) (before after : Screen screenWidth screenHeight) :
    Work τ β Unit :=
  if op.word.toNat = 0x00E0 then clearDisplay
  else if op.family.val = 0xD then
    (before.changes after).forM fun p => setPixel p.1 p.2 (after.get p.1 p.2)
  else return ()

/-- Lets a tone be played if the instruction has set the sound timer. -/
def notifyLoudspeaker (op : Opcode) (after : State screenWidth screenHeight) : Work τ β Unit :=
  if op.family.val = 0xF ∧ op.nn.toNat = 0x18 then playTone (after.v op.x) else return ()

/-- Tells the display and then the loudspeaker about an executed instruction. -/
def notify (op : Opcode) (before after : State screenWidth screenHeight) : Work τ β Unit := do
  notifyDisplay op before.screen after.screen
  notifyLoudspeaker op after

/-! ## Operations -/

/-- One step, in the course of which the watchers are told what happens. -/
def step : Work τ β Opcode := do
  let m ← machine
  if m.halted then fail (.fault Fault.machineHalted)
  else
    setMachine m.pollKeys
    match m.pollKeys.state.step with
    | .error cause =>
      setMachine { m.pollKeys with halted := true }
      logRemark (Logger.faultRemark cause)
      fail (.fault cause)
    | .ok (state, op) =>
      setMachine { m.pollKeys with state, steps := m.steps + 1 }
      logInstruction m.state.pc op
      notify op m.pollKeys.state state
      return op

def steps : Nat → Work τ β Unit
  | 0 => return ()
  | count + 1 => do
    let _ ← step
    steps count

variable [ClockNumber τ]

/-- Starts over. The display is cleared when the state and the clocks are new, and the message comes
last. -/
def reset (rom : Option (List Byte)) : Work τ β Unit := do
  let m ← machine
  let m := { m with rom := rom.getD m.rom }
  setMachine m
  match Machine.initialState m.seed m.rom m.dialect m.stackLimit with
  | .error cause => fail (.fault cause)
  | .ok state =>
    setMachine { m with state, timers := m.timers.reset }
    clearDisplay
    setMachine { m with state, timers := m.timers.reset, halted := false, steps := 0 }
    logRemark (Logger.startRemark m.rom.length m.dialect)

variable [HostAmount σ τ]

/-- Lets a span of time pass and makes the steps that are due. -/
def update (delta : σ) : Work τ β Int := do
  let m ← machine
  if m.halted then fail (.fault Fault.machineHalted)
  else
    setMachine { m with timers := (m.timers.advance delta).1 }
    let (due, decrements) ← number (m.timers.advance delta).2
    let state ← number (m.state.tick decrements)
    setMachine { m with timers := (m.timers.advance delta).1, state }
    steps due.toNat
    return due

/-- Does something with the progress bar, if there is one open. -/
def withBar (use : β → Except String (Option β)) : Work τ β Unit := do
  let s ← get
  match s.bar with
  | none => return ()
  | some shown =>
    match use shown with
    | .ok bar => set { s with bar }
    | .error text => throw (.bar text)

/-- Opens the progress bar that is wanted, for a number of frames. -/
def openBar : Option (ProgressBar β) → Int → Work τ β Unit
  | none, _ => return ()
  | some bar, total => do
    match bar.start total with
    | .ok shown => modify fun s => { s with bar := some shown }
    | .error text => throw (.bar text)

def advanceBar : Option (ProgressBar β) → Work τ β Unit
  | none => return ()
  | some bar => withBar fun shown => (bar.advance shown).map some

def closeBar : Option (ProgressBar β) → Work τ β Unit
  | none => return ()
  | some bar => withBar fun shown => (bar.close shown).map fun _ => none

/-- Does the last piece of work even if the first ends early. If it ends early itself, that is what
counts. -/
def andFinally (work : Work τ β α) (last : Work τ β Unit) : Work τ β α := fun s =>
  match last (work s).2 with
  | (.ok (), t) => ((work s).1, t)
  | (.error trouble, t) => (.error trouble, t)

/-- Frames in a row, with the number of the instructions that were due before. -/
def frames (bar : Option (ProgressBar β)) (rate : σ) : Nat → Int → Work τ β Int
  | 0, executed => return executed
  | count + 1, executed => do
    let delta ← number (HostAmount.frameSpan rate)
    let due ← update delta
    advanceBar bar
    frames bar rate count (executed + due)

/-- Runs for a duration in frames. The progress bar is closed however the frames end. -/
def runFor (bar : Option (ProgressBar β)) (seconds rate : σ) : Work τ β Int := do
  let count ← number (HostAmount.frameCount seconds rate)
  openBar bar count
  (frames bar rate count.toNat 0).andFinally (closeBar bar)

omit [ClockNumber τ] [HostAmount σ τ] in
/-- Changes the keypad at a key, if there is one with this number. -/
def withKey (key : Int) (change : Keypad → Nibble → Keypad) : Work τ β Answer := do
  match checkKey key with
  | .error cause => fail (.key cause)
  | .ok key =>
    let m ← machine
    setMachine { m with keypad := change m.keypad key }
    return .done

/-- Does what a host asks for, the watchers being told on the way. -/
def perform (bar : Option (ProgressBar β)) : Operation σ → Work τ β Answer
  | .step => return .opcode (← step)
  | .update delta => return .count (← update delta)
  | .runFor seconds rate => return .count (← runFor bar seconds rate)
  | .press key => withKey key Keypad.press
  | .release key => withKey key Keypad.release
  | .releaseAll => do
    let m ← machine
    setMachine { m with keypad := m.keypad.releaseAll }
    return .done
  | .poll => do
    let m ← machine
    setMachine m.pollKeys
    return .done
  | .reset rom => do
    reset rom
    return .done

end Work

/-! ## Telling the watchers -/

theorem Level.ofName?_name (level : Level) : ofName? level.name = some level := by
  cases level <;> rfl

theorem Opcode.instruction?_eq_setSound_iff (op : Opcode) (x : Nibble) :
    op.instruction? = some (.setSound x) ↔
      op.family.val = 0xF ∧ op.nn.toNat = 0x18 ∧ op.x = x := by
  rw [instruction?_eq_some_iff, word_eq_word_iff, Fin.ext_iff, val_x, toNat_nn]
  simp only [Instruction.family, Instruction.operands]
  omega

namespace Work

/-- Work that shows events to the watchers and does nothing else. -/
def Tells (work : Work τ β Unit) (events : List Event) : Prop :=
  ∀ s, work s = (.ok (), s.see events)

theorem tells_nothing : Tells (return () : Work τ β Unit) [] := by
  intro s
  rw [s.see_nil]
  rfl

theorem Tells.then_apply {work : Work τ β Unit} {events : List Event} (hwork : Tells work events)
    (next : Work τ β α) (s : Watched τ β) : (do work; next) s = next (s.see events) := by
  rw [bind_apply, hwork s]

theorem Tells.andThen {first second : Work τ β Unit} {es fs : List Event}
    (hfirst : Tells first es) (hsecond : Tells second fs) :
    Tells (do first; second) (es ++ fs) := by
  intro s
  rw [hfirst.then_apply, hsecond, s.see_see]

theorem Tells.forM {α : Type} {call : α → Work τ β Unit} {event : α → Event}
    (hcall : ∀ a, Tells (call a) [event a]) (as : List α) :
    Tells (as.forM call) (as.map event) := by
  induction as with
  | nil => exact tells_nothing
  | cons a as ih => exact (hcall a).andThen ih

/-! ### The console -/

theorem logRemark_apply (remark : Level × String) (s : Watched τ β) :
    logRemark remark s = (.ok (), { s with
      console := (s.console.logRemark (some remark)).1
      text := s.text ++ (s.console.logRemark (some remark)).2 }) := by
  obtain ⟨level, message⟩ := remark
  have hnamed : s.console.logNamed level.name message = .ok (s.console.log level message) := by
    rw [Console.logNamed, level.ofName?_name]
  change (match s.console.logNamed level.name message with
    | .ok (console, text) => set { s with console, text := s.text ++ text }
    | .error cause => throw (.log cause) : Work τ β Unit) s = _
  rw [hnamed]
  rfl

theorem tells_remark {e : Event} {remark : Level × String}
    (hremark : ∀ l : Logger, l.remark? e = some remark)
    (hdisplay : ∀ r : Recording, r.observe e = r) (htone : Session.toneOf? e = none) :
    Tells (logRemark remark : Work τ β Unit) [e] := by
  intro s
  rw [logRemark_apply, Watched.see_remark hdisplay htone, hremark]

theorem tells_stopped (cause : Fault) :
    Tells (logRemark (Logger.faultRemark cause) : Work τ β Unit) [.stopped cause] :=
  tells_remark (fun _ => rfl) (fun _ => rfl) rfl

theorem tells_started (size : Nat) (dialect : Dialect) :
    Tells (logRemark (Logger.startRemark size dialect) : Work τ β Unit) [.started size dialect] :=
  tells_remark (fun _ => rfl) (fun _ => rfl) rfl

theorem showsLevel_apply (level : Level) (s : Watched τ β) :
    showsLevel level.name s = (.ok (s.console.logger.shows level), s) := by
  have hnamed : s.console.logger.showsNamed level.name = .ok (s.console.logger.shows level) := by
    rw [Logger.showsNamed, level.ofName?_name]
  change (match s.console.logger.showsNamed level.name with
    | .ok shown => return shown
    | .error cause => throw (.log cause) : Work τ β Bool) s = _
  rw [hnamed]
  rfl

/-- An executed instruction is a line where instructions are traced and their level is shown. -/
theorem tells_executed (address : Word) (op : Opcode) :
    Tells (logInstruction address op : Work τ β Unit) [.executed address op] := by
  intro s
  rw [Watched.see_remark (fun r => rfl) rfl]
  change (match s.console.logger.trace? address.toNat op with
    | some remark => showsLevel remark.1.name >>= fun shown =>
        if shown then logRemark remark else return ()
    | none => return () : Work τ β Unit) s = _
  cases htrace : s.console.logger.trace? address.toNat op with
  | none =>
    simp only [Logger.remark?, htrace, Console.logRemark, String.append_empty]
    rfl
  | some remark =>
    obtain ⟨level, message⟩ := remark
    simp only [Logger.remark?, htrace, bind_apply, showsLevel_apply]
    cases hshown : s.console.logger.shows level with
    | true => exact logRemark_apply (level, message) s
    | false =>
      simp only [Console.logRemark, Console.log, hshown, Bool.not_false, if_true,
        String.append_empty]
      rfl

/-! ### The display and the loudspeaker -/

theorem tells_modify {e : Event} (hremark : ∀ l : Logger, l.remark? e = none)
    {change : Watched τ β → Watched τ β} (hchange : ∀ s : Watched τ β, change s = { s with
      display := s.display.map fun r => r.observe e
      tones := s.tones.map fun played => played ++ (Session.toneOf? e).toList }) :
    Tells (modify change) [e] := by
  intro s
  rw [Watched.see_unremarked hremark, ← hchange]
  rfl

theorem tells_cleared : Tells (clearDisplay : Work τ β Unit) [.cleared] :=
  tells_modify (fun _ => rfl) fun _ => by simp [Session.toneOf?, Recording.observe]

theorem tells_pixel (x : Fin screenWidth) (y : Fin screenHeight) (lit : Bool) :
    Tells (setPixel x y lit : Work τ β Unit) [.pixel x y lit] :=
  tells_modify (fun _ => rfl) fun _ => by simp [Session.toneOf?, Recording.observe]

theorem tells_tone (ticks : Byte) : Tells (playTone ticks : Work τ β Unit) [.tone ticks] :=
  tells_modify (fun _ => rfl) fun _ => by simp [Session.toneOf?, Recording.observe]

/-- What an executed instruction does to screen and sound can be told from its word. -/
theorem tells_effects (before after : State screenWidth screenHeight) {op : Opcode}
    {i : Instruction} (hop : op.instruction? = some i) :
    Tells (notify op before after : Work τ β Unit) (Machine.effects before after (some i)) := by
  have hclear := op.instruction?_eq_clear_iff
  have hdraw := op.instruction?_eq_draw_iff
  have hsound := op.instruction?_eq_setSound_iff
  simp only [hop, Option.some.injEq] at hclear hdraw hsound
  have hsilent (hother : ∀ x, i ≠ .setSound x) :
      ¬ (op.family.val = 0xF ∧ op.nn.toNat = 0x18) := by
    rintro ⟨hfamily, hlow⟩
    exact hother op.x ((hsound op.x).mpr ⟨hfamily, hlow, rfl⟩)
  -- The calls are chosen by word and digits, the events by instruction: three tell anything.
  unfold notify notifyDisplay notifyLoudspeaker
  cases i with
  | clear =>
    rw [if_pos (hclear.mp rfl), if_neg (hsilent (by simp))]
    exact tells_cleared.andThen tells_nothing
  | draw x y rows =>
    rw [if_neg (mt hclear.mpr (by simp)), if_pos (hdraw.mp ⟨x, y, rows, rfl⟩),
      if_neg (hsilent (by simp))]
    have hpixels := Tells.forM (fun p : Fin screenWidth × Fin screenHeight =>
      tells_pixel (τ := τ) (β := β) p.1 p.2 (after.screen.get p.1 p.2))
      (before.screen.changes after.screen)
    have hboth := hpixels.andThen tells_nothing
    rw [List.append_nil] at hboth
    exact hboth
  | setSound x =>
    obtain ⟨hfamily, hlow, hx⟩ := (hsound x).mp rfl
    rw [if_neg (mt hclear.mpr (by simp)), if_neg (mt hdraw.mpr (by simp)),
      if_pos ⟨hfamily, hlow⟩, hx]
    exact tells_nothing.andThen (tells_tone (after.v x))
  | _ =>
    rw [if_neg (mt hclear.mpr (by simp)), if_neg (mt hdraw.mpr (by simp)),
      if_neg (hsilent (by simp))]
    exact tells_nothing.andThen tells_nothing

end Work

end ChipEight
