import ChipEight.Proofs.FaithfulWork

/-!
# Watchers have no say

Two runs of one history are compared, watched by different consoles, displays and loudspeakers. They
go side by side: whatever a piece of work asks of a machine it asks of both, and neither sees what
the watchers make of it.

* `Work.Twin`: two pieces of work that go alike on related machines. `Twin.bind` and
  `Twin.andFinally` are the rules for work done one after the other, and `Faithful.twin` says that
  what a machine does alone is a twin of itself under each relation that ignores the watchers.
* `Work.perform_twin`: operations are twins if their progress bars are, which may fail or not be
  there at all.
* `Watched.history_ignores_watchers`: what a host gets from its demands, and the machine after each
  of them, do not depend on the watchers, nor on a progress bar that works.
-/

namespace ChipEight

variable {σ τ β α γ : Type}

/-! ## Two runs -/

namespace Watched

/-- A relation of watched machines that watchers have no part in: related are only those with the
same machine, and they stay related when both machines do the same and the watchers see it. -/
structure IgnoresWatchers (R : Watched τ β → Watched τ β → Prop) : Prop where
  machine : ∀ {s t}, R s t → s.machine = t.machine
  see : ∀ {s t}, R s t → ∀ m events, R ((s.put m).see events) ((t.put m).see events)

/-- The machine is the same, and so is the progress bar. -/
def Alike (s t : Watched τ β) : Prop := s.machine = t.machine ∧ s.bar = t.bar

/-- Two watched machines are the same but for their watchers. -/
def SameMachine (s t : Watched τ β) : Prop := s.machine = t.machine

theorem alike_ignoresWatchers : IgnoresWatchers (Alike (τ := τ) (β := β)) where
  machine hst := hst.1
  see hst _ _ := ⟨rfl, hst.2⟩

theorem sameMachine_ignoresWatchers : IgnoresWatchers (SameMachine (τ := τ) (β := β)) where
  machine hst := hst
  see _ _ _ := rfl

end Watched

namespace Work

variable {R : Watched τ β → Watched τ β → Prop}

/-- Both times the same answer or the same trouble, which is not one of the console, and related
machines afterwards. -/
inductive Matches (R : Watched τ β → Watched τ β → Prop) :
    Except Trouble α × Watched τ β → Except Trouble α × Watched τ β → Prop where
  | ok {s t} (a : α) (hst : R s t) : Matches R (.ok a, s) (.ok a, t)
  | error {s t} (trouble : Trouble) (htrouble : ∀ cause, trouble ≠ .log cause) (hst : R s t) :
      Matches R (.error trouble, s) (.error trouble, t)

theorem Matches.result {x y : Except Trouble α × Watched τ β} (h : Matches R x y) :
    x.1 = y.1 := by
  cases h with
  | ok a hst => rfl
  | error trouble htrouble hst => rfl

theorem Matches.after {x y : Except Trouble α × Watched τ β} (h : Matches R x y) :
    R x.2 y.2 := by
  cases h with
  | ok a hst => exact hst
  | error trouble htrouble hst => exact hst

theorem Matches.not_log {x y : Except Trouble α × Watched τ β} (h : Matches R x y)
    (cause : LogFault) : x.1 ≠ .error (.log cause) := by
  cases h with
  | ok a hst => simp
  | error trouble htrouble hst => simpa using htrouble cause

/-- Two pieces of work that go alike on related machines. -/
def Twin (R : Watched τ β → Watched τ β → Prop) (work work' : Work τ β α) : Prop :=
  ∀ ⦃s t⦄, R s t → Matches R (work s) (work' t)

theorem twin_return (a : α) : Twin R (return a) (return a) := fun _ _ hst => .ok a hst

theorem Twin.bind {work work' : Work τ β α} {next next' : α → Work τ β γ}
    (hwork : Twin R work work') (hnext : ∀ a, Twin R (next a) (next' a)) :
    Twin R (work >>= next) (work' >>= next') := by
  intro s t hst
  have hmatch := hwork hst
  rw [bind_apply, bind_apply]
  generalize work s = x, work' t = y at hmatch ⊢
  cases hmatch with
  | ok a hst' => exact hnext a hst'
  | error trouble htrouble hst' => exact .error trouble htrouble hst'

theorem Twin.andFinally {work work' : Work τ β α} {last last' : Work τ β Unit}
    (hwork : Twin R work work') (hlast : Twin R last last') :
    Twin R (work.andFinally last) (work'.andFinally last') := by
  intro s t hst
  have hmatch := hwork hst
  unfold Work.andFinally
  generalize work s = x, work' t = y at hmatch ⊢
  have hend := hlast hmatch.after
  generalize last x.2 = x', last' y.2 = y' at hend ⊢
  cases hend with
  | ok a hst' =>
    cases hmatch with
    | ok a _ => exact .ok a hst'
    | error trouble htrouble _ => exact .error trouble htrouble hst'
  | error trouble htrouble hst' => exact .error trouble htrouble hst'

/-- Work that does what the machine alone does is its own twin. -/
theorem Faithful.twin {work : Work τ β α} {operation : Machine τ → Outcome τ α}
    (hwork : Faithful work operation) (hR : Watched.IgnoresWatchers R) : Twin R work work := by
  intro s t hst
  have hafter := hR.see hst (operation s.machine).machine (operation s.machine).events
  rw [hwork s, hwork t, ← hR.machine hst]
  unfold Watched.record
  cases (operation s.machine).result with
  | ok a => exact .ok a hafter
  | error failure => exact .error _ (fun cause h => nomatch h) hafter

theorem twin_number (x : Except NumberFault α) :
    Twin R (number x : Work τ β α) (number x) := by
  cases x with
  | ok a => exact twin_return a
  | error cause => exact fun _ _ hst => .error _ (fun cause h => nomatch h) hst

/-! ### With a progress bar -/

/-- Whether the one bar is asked for or the other, or none, is nothing that `R` can tell. -/
structure BarTwin (R : Watched τ β → Watched τ β → Prop) (bar bar' : Option (ProgressBar β)) :
    Prop where
  opened : ∀ total, Twin R (openBar bar total) (openBar bar' total)
  advanced : Twin R (advanceBar bar) (advanceBar bar')
  closed : Twin R (closeBar bar) (closeBar bar')

theorem barTwin_none : BarTwin R none none :=
  ⟨fun _ => twin_return (), twin_return (), twin_return ()⟩

theorem withBar_apply (use : β → Except String (Option β)) (s : Watched τ β) :
    withBar use s = match s.bar with
      | none => (.ok (), s)
      | some shown => match use shown with
        | .ok bar => (.ok (), { s with bar })
        | .error text => (.error (.bar text), s) := by
  change (match s.bar with
    | none => return ()
    | some shown => match use shown with
      | .ok bar => set { s with bar }
      | .error text => throw (.bar text) : Work τ β Unit) s = _
  cases s.bar with
  | none => rfl
  | some shown =>
    dsimp only
    cases use shown with
    | ok bar => rfl
    | error text => rfl

theorem withBar_twin (use : β → Except String (Option β)) :
    Twin Watched.Alike (withBar use : Work τ β Unit) (withBar use) := by
  intro s t hst
  rw [withBar_apply, withBar_apply, ← hst.2]
  cases s.bar with
  | none => exact .ok () hst
  | some shown =>
    dsimp only
    cases use shown with
    | ok bar => exact .ok () ⟨hst.1, rfl⟩
    | error text => exact .error _ (fun cause h => nomatch h) hst

theorem barTwin_alike (bar : ProgressBar β) :
    BarTwin (Watched.Alike (τ := τ)) (some bar) (some bar) where
  opened total := by
    intro s t hst
    rw [openBar]
    cases bar.start total with
    | ok shown => exact .ok () ⟨hst.1, rfl⟩
    | error text => exact .error _ (fun cause h => nomatch h) hst
  advanced := withBar_twin _
  closed := withBar_twin _

end Work

/-- A bar that never fails. -/
structure ProgressBar.Reliable (bar : ProgressBar β) : Prop where
  start : ∀ total, ∃ shown, bar.start total = .ok shown
  advance : ∀ shown, ∃ shown', bar.advance shown = .ok shown'
  close : ∀ shown, bar.close shown = .ok ()

namespace Work

theorem withBar_twin_return {use : β → Except String (Option β)}
    (huse : ∀ shown, ∃ bar, use shown = .ok bar) :
    Twin Watched.SameMachine (withBar use : Work τ β Unit) (return ()) := by
  intro s t hst
  rw [withBar_apply]
  cases s.bar with
  | none => exact .ok () hst
  | some shown =>
    obtain ⟨bar, hbar⟩ := huse shown
    dsimp only
    rw [hbar]
    exact .ok () hst

theorem barTwin_sameMachine {bar : ProgressBar β} (hbar : bar.Reliable) :
    BarTwin (Watched.SameMachine (τ := τ)) (some bar) none where
  opened total := by
    intro s t hst
    obtain ⟨shown, hstart⟩ := hbar.start total
    have hopen : openBar (some bar) total s = (.ok (), { s with bar := some shown }) := by
      rw [openBar, hstart]
      rfl
    rw [hopen]
    exact .ok () hst
  advanced := by
    refine withBar_twin_return fun shown => ?_
    obtain ⟨shown', hadvance⟩ := hbar.advance shown
    exact ⟨some shown', by rw [hadvance]; rfl⟩
  closed := withBar_twin_return fun shown => ⟨none, by rw [hbar.close shown]; rfl⟩

variable [ClockNumber τ] [HostAmount σ τ] {bar bar' : Option (ProgressBar β)}

theorem frames_twin (hR : Watched.IgnoresWatchers R) (hbar : BarTwin R bar bar') (rate : σ)
    (count : Nat) (executed : Int) :
    Twin R (frames bar rate count executed) (frames bar' rate count executed) := by
  induction count generalizing executed with
  | zero => exact twin_return executed
  | succ count ih =>
    rw [frames, frames]
    refine (twin_number _).bind fun delta => ?_
    refine ((update_faithful delta).twin hR).bind fun due => ?_
    exact hbar.advanced.bind fun _ => ih (executed + due)

theorem runFor_twin (hR : Watched.IgnoresWatchers R) (hbar : BarTwin R bar bar')
    (seconds rate : σ) : Twin R (runFor bar seconds rate) (runFor bar' seconds rate) := by
  refine (twin_number _).bind fun total => ?_
  refine (hbar.opened total).bind fun _ => ?_
  exact (frames_twin hR hbar rate total.toNat 0).andFinally hbar.closed

theorem perform_twin (hR : Watched.IgnoresWatchers R) (hbar : BarTwin R bar bar')
    (op : Operation σ) : Twin R (perform bar op) (perform bar' op) := by
  cases op with
  | runFor seconds rate =>
    exact (runFor_twin hR hbar seconds rate).bind fun executed => twin_return _
  | step => exact (perform_faithful (.step : Operation σ)).twin hR
  | update delta => exact (perform_faithful (.update delta)).twin hR
  | press key => exact (perform_faithful (.press key : Operation σ)).twin hR
  | release key => exact (perform_faithful (.release key : Operation σ)).twin hR
  | releaseAll => exact (perform_faithful (.releaseAll : Operation σ)).twin hR
  | poll => exact (perform_faithful (.poll : Operation σ)).twin hR
  | reset rom => exact (perform_faithful (.reset rom : Operation σ)).twin hR

end Work

/-! ## Histories -/

/-- One thing that a host asks for: what happens to the keypad before, the operation, and whether a
progress bar is to show how a run gets on. -/
structure Demand (σ : Type) where
  keys : Keypad → Keypad
  operation : Operation σ
  progress : Bool

/-- The demand without a progress bar. -/
def Demand.plain (d : Demand σ) : Demand σ := { d with progress := false }

namespace Work

def changeKeys (change : Keypad → Keypad) : Work τ β Unit := do
  let m ← machine
  setMachine (m.withKeys change)

theorem changeKeys_faithful (change : Keypad → Keypad) :
    Faithful (changeKeys change : Work τ β Unit) fun m => .done (m.withKeys change) () :=
  fun s => (s.record_done _ ()).symm

variable [ClockNumber τ] [HostAmount σ τ]

/-- Serves one demand: first what has happened to the keys, then the operation, with the progress
bar if it is wanted. -/
def serve (bar : ProgressBar β) (d : Demand σ) : Work τ β Answer := do
  changeKeys d.keys
  perform (if d.progress then some bar else none) d.operation

theorem serve_twin (bar : ProgressBar β) (d : Demand σ) :
    Twin (Watched.Alike (τ := τ)) (serve bar d) (serve bar d) := by
  have hbar : BarTwin (Watched.Alike (τ := τ)) (if d.progress then some bar else none)
      (if d.progress then some bar else none) := by
    cases d.progress with
    | true => exact barTwin_alike bar
    | false => exact barTwin_none
  have hkeys := (changeKeys_faithful (τ := τ) (β := β) d.keys).twin Watched.alike_ignoresWatchers
  exact hkeys.bind fun _ => perform_twin Watched.alike_ignoresWatchers hbar d.operation

theorem serve_twin_plain {bar : ProgressBar β} (hbar : bar.Reliable) (d : Demand σ) :
    Twin (Watched.SameMachine (τ := τ)) (serve bar d) (serve bar d.plain) := by
  have hbars : BarTwin (Watched.SameMachine (τ := τ)) (if d.progress then some bar else none)
      none := by
    cases d.progress with
    | true => exact barTwin_sameMachine hbar
    | false => exact barTwin_none
  have hkeys := (changeKeys_faithful (τ := τ) (β := β) d.keys).twin
    Watched.sameMachine_ignoresWatchers
  exact hkeys.bind fun _ => perform_twin Watched.sameMachine_ignoresWatchers hbars d.operation

end Work

namespace Watched

variable [ClockNumber τ] [HostAmount σ τ]

/-- What a host gets from each of its demands, with the machine after it. -/
def history (bar : ProgressBar β) (s : Watched τ β) :
    List (Demand σ) → List (Except Trouble Answer × Machine τ)
  | [] => []
  | d :: ds => ((Work.serve bar d s).1, (Work.serve bar d s).2.machine) ::
    (Work.serve bar d s).2.history bar ds

theorem history_eq_of_twin {R : Watched τ β → Watched τ β → Prop} {bar : ProgressBar β}
    {change : Demand σ → Demand σ} (hR : IgnoresWatchers R)
    (hserve : ∀ d, Work.Twin R (Work.serve bar d) (Work.serve bar (change d)))
    {s t : Watched τ β} (hst : R s t) (demands : List (Demand σ)) :
    s.history bar demands = t.history bar (demands.map change) := by
  induction demands generalizing s t with
  | nil => rfl
  | cons d ds ih =>
    have hmatch := hserve d hst
    rw [List.map_cons, history, history, hmatch.result, hR.machine hmatch.after, ih hmatch.after]

theorem not_log_of_mem_history {bar : ProgressBar β} {s : Watched τ β} {demands : List (Demand σ)}
    {entry : Except Trouble Answer × Machine τ} (hentry : entry ∈ s.history bar demands)
    (cause : LogFault) : entry.1 ≠ .error (.log cause) := by
  induction demands generalizing s with
  | nil => cases hentry
  | cons d ds ih =>
    rw [history, List.mem_cons] at hentry
    rcases hentry with rfl | hentry
    · exact (Work.serve_twin bar d ⟨rfl, rfl⟩).not_log cause
    · exact ih hentry

/-- Builds a machine with those who watch it, who are told of its start. -/
def build (setup : Setup σ) (console : Console) (display : Option Recording)
    (tones : Option (List Byte)) : Except Trouble (Watched τ β) := do
  let timers ← (Timers.ofFrequencies setup.instructionHz setup.timerHz).mapError
    fun cause => .failure (.number cause)
  let seed ← (Seed.ofInt setup.seed).mapError fun cause => .failure (.number cause)
  let state ← (Machine.initialState seed setup.rom setup.dialect setup.stackLimit).mapError
    fun cause => .failure (.fault cause)
  let machine := Machine.fresh setup seed timers state
  let told := (do
    Work.clearDisplay
    Work.logRemark (Logger.startRemark setup.rom.length setup.dialect) : Work τ β Unit)
      { machine, console, display, tones, text := "", bar := none }
  told.1.map fun _ => told.2

/-- A machine is built as it is without watchers, and these are shown its start. -/
theorem build_eq (setup : Setup σ) (console : Console) (display : Option Recording)
    (tones : Option (List Byte)) :
    (build setup console display tones : Except Trouble (Watched τ β)) =
      ((Session.start setup console display tones).map fun started =>
        { toSession := started.1, text := started.2, bar := none }).mapError .failure := by
  unfold build Session.start Machine.boot
  cases Timers.ofFrequencies setup.instructionHz setup.timerHz with
  | error cause => rfl
  | ok timers =>
    cases Seed.ofInt setup.seed with
    | error cause => rfl
    | ok seed =>
      change (do
        let state ← (Machine.initialState seed _ _ _).mapError _
        _) = _
      dsimp only
      cases Machine.initialState seed setup.rom setup.dialect setup.stackLimit with
      | error cause => rfl
      | ok state =>
        let s : Watched τ β := {
          machine := Machine.fresh setup seed timers state
          console, display, tones, text := "", bar := none }
        have htold := Work.tells_cleared.andThen
          (Work.tells_started setup.rom.length setup.dialect) s
        change (((do Work.clearDisplay; Work.logRemark _ : Work τ β Unit) s).1.map fun _ =>
          ((do Work.clearDisplay; Work.logRemark _ : Work τ β Unit) s).2) = _
        rw [htold]
        change Except.ok (s.see _) = Except.ok _
        rw [see, String.empty_append]
        rfl

/-- Whether a machine can be built and what it is like does not depend on who is to watch it. -/
theorem build_cases (setup : Setup σ) :
    (∃ trouble, ∀ console display tones,
        (build setup console display tones : Except Trouble (Watched τ β)) = .error trouble) ∨
      ∃ m : Machine τ, ∀ console display tones,
        ∃ s : Watched τ β, build setup console display tones = .ok s ∧ s.machine = m ∧
          s.bar = none := by
  simp only [build_eq, Session.start]
  cases Machine.boot setup with
  | error failure => exact Or.inl ⟨.failure failure, fun _ _ _ => rfl⟩
  | ok started => exact Or.inr ⟨started.1, fun _ _ _ => ⟨_, rfl, rfl, rfl⟩⟩

/-- What a host gets from its demands, and the machine after each of them, is the same whoever
watches, also where a progress bar fails in the midst of a run; a bar that works makes no difference
at all. The console never fails. And without a bar a demand is met as in a session, in which the
machine works first and the watchers are shown the events afterwards. -/
theorem history_ignores_watchers (bar : ProgressBar β) (setup : Setup σ)
    (demands : List (Demand σ)) (console console' : Console) (display display' : Option Recording)
    (tones tones' : Option (List Byte)) :
    ((build setup console display tones).map fun s : Watched τ β =>
        (s.machine, s.history bar demands)) =
      ((build setup console' display' tones').map fun s : Watched τ β =>
        (s.machine, s.history bar demands)) ∧
    (bar.Reliable →
      ((build setup console display tones).map fun s : Watched τ β => s.history bar demands) =
        (build setup console' display' tones').map fun s : Watched τ β =>
          s.history bar (demands.map Demand.plain)) ∧
    (∀ s : Watched τ β, ∀ entry ∈ s.history bar demands, ∀ cause,
      entry.1 ≠ .error (.log cause)) ∧
    (∀ (s : Watched τ β) (op : Operation σ), Work.perform none op s =
      ((s.toSession.perform op).2.result.mapError .failure, { s with
        toSession := (s.toSession.perform op).1
        text := s.text ++ (s.toSession.perform op).2.text })) ∧
    (build setup console display tones : Except Trouble (Watched τ β)) =
      ((Session.start setup console display tones).map fun started =>
        { toSession := started.1, text := started.2, bar := none }).mapError .failure := by
  refine ⟨?_, ?_, ?_, ?_, build_eq setup console display tones⟩
  · rcases build_cases (β := β) setup with ⟨trouble, hbuild⟩ | ⟨m, hbuild⟩
    · rw [hbuild, hbuild]
    · obtain ⟨s, hs, hmachine, hbar⟩ := hbuild console display tones
      obtain ⟨t, ht, hmachine', hbar'⟩ := hbuild console' display' tones'
      have hst : Alike s t := ⟨hmachine.trans hmachine'.symm, hbar.trans hbar'.symm⟩
      have hhistory : s.history bar demands = t.history bar (demands.map id) :=
        history_eq_of_twin alike_ignoresWatchers (Work.serve_twin bar) hst demands
      rw [List.map_id] at hhistory
      rw [hs, ht]
      exact congrArg Except.ok (Prod.ext hst.1 hhistory)
  · intro hreliable
    rcases build_cases (β := β) setup with ⟨trouble, hbuild⟩ | ⟨m, hbuild⟩
    · rw [hbuild, hbuild]
      rfl
    · obtain ⟨s, hs, hmachine, -⟩ := hbuild console display tones
      obtain ⟨t, ht, hmachine', -⟩ := hbuild console' display' tones'
      have hhistory := history_eq_of_twin sameMachine_ignoresWatchers
        (Work.serve_twin_plain hreliable) (hmachine.trans hmachine'.symm) demands
      rw [hs, ht]
      exact congrArg Except.ok hhistory
  · intro s entry hentry cause
    exact not_log_of_mem_history hentry cause
  · intro s op
    exact Work.perform_faithful op s

/-- A tone and a cleared screen, noticed by a console that traces, a recording and a list of tones,
or by nobody. The first bar fails in its second frame, and after that the program returns without a
call; the second bar does not fail. -/
theorem history_ignores_watchers_of_failing_bar :
    ∃ (setup : Setup Amount) (failing working : ProgressBar Nat) (demands : List (Demand Amount))
      (s t : Watched Float Nat),
    setup = { Setup.standard with
      rom := [0xF0, 0x18, 0x00, 0xE0, 0x60, 0x01, 0x00, 0xEE]
      instructionHz := .whole 1 } ∧
    failing = ⟨fun _ => .ok 0, fun n => if n = 1 then .error "closed" else .ok (n + 1),
      fun _ => .ok ()⟩ ∧
    working = ⟨fun _ => .ok 0, fun n => .ok (n + 1), fun _ => .ok ()⟩ ∧
    demands = [⟨id, .step, false⟩, ⟨fun k => k.press 3, .runFor (.whole 3) (.whole 1), true⟩,
      ⟨id, .update (.whole 1), false⟩, ⟨id, .reset none, false⟩] ∧
    build setup (.ofLogger ⟨"loud", .debug, false, false, true⟩ []) (some .blank) (some []) =
      .ok s ∧
    build setup (.ofLogger ⟨"quiet", .critical, false, false, false⟩ []) none none = .ok t ∧
    s.history failing demands = t.history failing demands ∧
    (s.history failing demands).map Prod.fst = [.ok (.opcode ⟨0xF018⟩), .error (.bar "closed"),
      .error (.failure (.fault (.stackUnderflow 0x206))), .ok .done] ∧
    (∃ entry ∈ s.history failing demands, ∀ cause, entry.1 ≠ .error (.log cause)) ∧
    working.Reliable ∧
    s.history working demands = t.history working (demands.map Demand.plain) := by
  obtain ⟨setup, hsetup⟩ : ∃ setup : Setup Amount, setup = { Setup.standard with
    rom := [0xF0, 0x18, 0x00, 0xE0, 0x60, 0x01, 0x00, 0xEE]
    instructionHz := .whole 1 } := ⟨_, rfl⟩
  obtain ⟨failing, hfailing⟩ : ∃ failing : ProgressBar Nat, failing = ⟨fun _ => .ok 0,
    fun n => if n = 1 then .error "closed" else .ok (n + 1), fun _ => .ok ()⟩ := ⟨_, rfl⟩
  obtain ⟨working, hworking⟩ : ∃ working : ProgressBar Nat, working = ⟨fun _ => .ok 0,
    fun n => .ok (n + 1), fun _ => .ok ()⟩ := ⟨_, rfl⟩
  obtain ⟨demands, hdemands⟩ : ∃ demands : List (Demand Amount), demands = [⟨id, .step, false⟩,
    ⟨fun k => k.press 3, .runFor (.whole 3) (.whole 1), true⟩, ⟨id, .update (.whole 1), false⟩,
    ⟨id, .reset none, false⟩] := ⟨_, rfl⟩
  have hresults : (do
      let s : Watched Float Nat ← build setup (.ofLogger ⟨"loud", .debug, false, false, true⟩ [])
        (some .blank) (some [])
      return (s.history failing demands).map Prod.fst) = Except.ok [.ok (.opcode ⟨0xF018⟩),
        .error (.bar "closed"), .error (.failure (.fault (.stackUnderflow 0x206))), .ok .done] := by
    subst hsetup hfailing hdemands
    decide +kernel
  have hquiet : ∃ t : Watched Float Nat, build setup
      (.ofLogger ⟨"quiet", .critical, false, false, false⟩ []) none none = .ok t := by
    subst hsetup
    exact exists_eq_ok (by decide +kernel)
  have hreliable : working.Reliable := by
    subst hworking
    exact ⟨fun _ => ⟨_, rfl⟩, fun _ => ⟨_, rfl⟩, fun _ => rfl⟩
  obtain ⟨s, hs, hfirst⟩ := bind_eq_ok_iff.mp hresults
  obtain ⟨t, ht⟩ := hquiet
  have hanswers := Except.ok.inj hfirst
  obtain ⟨hfailed, -, hlogged, -, -⟩ := history_ignores_watchers failing setup demands
    (.ofLogger ⟨"loud", .debug, false, false, true⟩ [])
    (.ofLogger ⟨"quiet", .critical, false, false, false⟩ []) (some .blank) none (some []) none
    (τ := Float)
  obtain ⟨-, hworked, -, -, -⟩ := history_ignores_watchers working setup demands
    (.ofLogger ⟨"loud", .debug, false, false, true⟩ [])
    (.ofLogger ⟨"quiet", .critical, false, false, false⟩ []) (some .blank) none (some []) none
    (τ := Float)
  rw [hs, ht] at hfailed
  have hworked := hworked hreliable
  rw [hs, ht] at hworked
  refine ⟨setup, failing, working, demands, s, t, hsetup, hfailing, hworking, hdemands, hs, ht,
    (Prod.ext_iff.mp (Except.ok.inj hfailed)).2, hanswers, ?_, hreliable, Except.ok.inj hworked⟩
  have hsecond : (.error (.bar "closed") : Except Trouble Answer) ∈
      (s.history failing demands).map Prod.fst := by
    rw [hanswers]
    simp
  obtain ⟨entry, hentry, -⟩ := List.mem_map.mp hsecond
  exact ⟨entry, hentry, hlogged s entry hentry⟩

end Watched

end ChipEight
