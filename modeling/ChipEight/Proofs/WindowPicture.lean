import ChipEight.Window
import ChipEight.Proofs.DisplayCalls
import ChipEight.Proofs.Reset

/-!
# The window shows the screen

A window paints its surface square by square, as the machine reports the pixels that change, and
paints it anew only when the program is started over. Both ways lead to the same image.

* `Surface.mem_square`: the points of the square of a pixel are those whose coordinates, divided by
  the scale, are the coordinates of the pixel.
* `Surface.Paints.observeAll`: a surface that is told what a recording is told goes on showing what
  the recording shows.
* `Surface.Shows.observeAll`: so events that take a picture of one screen to a picture of another
  take an image of the first to the image of the second.
* `Window.frame_faithful`: a frame of the loop leaves the image of the screen on the surface, and
  only a rejected span of time ends the loop in it.
* `Window.play_shows_screen`: after every frame of a script the surface shows the screen.
-/

namespace ChipEight

/-! ## Squares -/

namespace Surface

variable {w h : Nat}

/-- The places of a span, cut off at both ends of the surface. -/
theorem mem_span {size : Nat} {first count : Int} {i : Fin size} :
    i ∈ span size first count ↔ first ≤ i.val ∧ i.val < first + count := by
  have hi := i.isLt
  simp only [span, List.mem_filterMap, List.mem_range, Option.dite_none_right_eq_some,
    Option.some.injEq, Fin.ext_iff]
  constructor
  · rintro ⟨k, hk, -, hval⟩
    omega
  · rintro ⟨hfirst, hlast⟩
    refine ⟨i.val - (max first 0).toNat, ?_, ?_, ?_⟩ <;> omega

/-- The pixel in whose square a point of the surface lies. -/
def pixelAt (scale : Nat) (px : Fin w) (py : Fin h) : Int × Int :=
  ((px.val / scale : Nat), (py.val / scale : Nat))

/-- The points in the square of a pixel are those whose coordinates, divided by the scale, are its
coordinates. -/
theorem mem_square {scale : Nat} (hscale : 1 ≤ scale) {x y : Int} {px : Fin w} {py : Fin h} :
    (px, py) ∈ square scale x y ↔ pixelAt scale px py = (x, y) := by
  have hpos : (0 : Int) < scale := by omega
  have hdiv (n : Nat) (c : Int) : ((n / scale : Nat) : Int) = c ↔
      c * scale ≤ n ∧ (n : Int) < c * scale + scale := by
    rw [Int.natCast_ediv]
    exact Int.ediv_eq_iff_of_pos hpos
  simp only [square, List.mem_flatMap, List.mem_map, mem_span, Prod.mk.injEq, pixelAt, hdiv]
  constructor
  · rintro ⟨px', hx, py', hy, rfl, rfl⟩
    exact ⟨hx, hy⟩
  · rintro ⟨hx, hy⟩
    exact ⟨px, hx, py, hy, rfl, rfl⟩

/-! ## Surfaces and recordings -/

/-- The surface has the colour of a lit pixel in the squares of the pixels that are lit in the
recording, and the colour of a dark one elsewhere. -/
structure Paints (s : Surface w h) (scheme : Scheme) (scale : Nat) (r : Recording) : Prop where
  scheme_eq : s.scheme = scheme
  scale_eq : s.scale = scale
  color_eq : ∀ px py,
    s.image.get px py = scheme.color (decide (pixelAt scale px py ∈ r.lit))

variable {s : Surface w h} {scheme : Scheme} {scale : Nat} {r : Recording}

/-- Painting the square of a pixel keeps step with recording the pixel. -/
theorem Paints.setPixel (hs : s.Paints scheme scale r) (hscale : 1 ≤ scale) (x y : Int)
    (lit : Bool) : (s.setPixel x y lit).Paints scheme scale (r.setPixel x y lit) where
  scheme_eq := hs.scheme_eq
  scale_eq := hs.scale_eq
  color_eq px py := by
    unfold Surface.setPixel
    dsimp only
    rw [hs.scale_eq, hs.scheme_eq, Raster.get_setAll]
    simp only [mem_square hscale, Recording.mem_lit_setPixel]
    by_cases hhit : pixelAt scale px py = (x, y)
    · simp only [if_pos hhit, Bool.decide_eq_true]
    · simp only [if_neg hhit, hs.color_eq]

theorem clear_paints (hscheme : s.scheme = scheme) (hscale : s.scale = scale) (r : Recording) :
    s.clear.Paints scheme scale r.clear where
  scheme_eq := hscheme
  scale_eq := hscale
  color_eq px py := by
    unfold Surface.clear Recording.clear
    simp [Raster.get_fill, hscheme, Scheme.color]

theorem Paints.observe (hs : s.Paints scheme scale r) (hscale : 1 ≤ scale) (e : Event) :
    (s.observe e).Paints scheme scale (r.observe e) := by
  cases e with
  | pixel x y lit => exact hs.setPixel hscale x.val y.val lit
  | cleared => exact clear_paints hs.scheme_eq hs.scale_eq r
  | _ => exact hs

/-- The surface keeps step with the recording through all events. -/
theorem Paints.observeAll (hs : s.Paints scheme scale r) (hscale : 1 ≤ scale)
    (events : List Event) : (s.observeAll events).Paints scheme scale (r.observeAll events) := by
  induction events generalizing s r with
  | nil => exact hs
  | cons e es ih => exact ih (hs.observe hscale e)

end Surface

/-- Every screen has a recording that shows it. -/
theorem Recording.exists_mirrors (screen : Screen screenWidth screenHeight) :
    ∃ r : Recording, r.Mirrors screen :=
  ⟨_, (Recording.blank.mirrors_clear).changes⟩

/-! ## Surfaces and screens -/

namespace Surface

variable {v u scale : Nat} {s : Surface (v * scale) (u * scale)} {scheme : Scheme}

/-- The surface has the image of the screen on it. -/
structure Shows (s : Surface (v * scale) (u * scale)) (scheme : Scheme) (screen : Screen v u) :
    Prop where
  scheme_eq : s.scheme = scheme
  scale_eq : s.scale = scale
  image_eq : s.image = Picture.image screen scale scheme

/-- To paint a recording of a screen is to have the image of the screen. -/
theorem paints_iff_shows {r : Recording} {screen : Screen v u} (hr : r.Mirrors screen) :
    s.Paints scheme scale r ↔ s.Shows scheme screen := by
  have hcolor (px : Fin (v * scale)) (py : Fin (u * scale)) :
      scheme.color (decide (pixelAt scale px py ∈ r.lit)) =
        (Picture.image screen scale scheme).get px py := by
    have hx := Picture.div_lt_of_lt_mul px.isLt
    have hy := Picture.div_lt_of_lt_mul py.isLt
    have hlit : pixelAt scale px py ∈ r.lit ↔
        screen.get ⟨px.val / scale, hx⟩ ⟨py.val / scale, hy⟩ = true := by
      have hplace : place (⟨px.val / scale, hx⟩, ⟨py.val / scale, hy⟩) = pixelAt scale px py := rfl
      rw [hr, ← hplace]
      simp only [place_injective.eq_iff, exists_eq_left]
    simp only [Picture.image, Raster.get_ofFn, hlit, Bool.decide_eq_true]
  constructor
  · rintro ⟨hscheme, hscale, hget⟩
    exact ⟨hscheme, hscale, Raster.ext_get fun px py => (hget px py).trans (hcolor px py)⟩
  · rintro ⟨hscheme, hscale, himage⟩
    refine ⟨hscheme, hscale, fun px py => ?_⟩
    rw [himage, hcolor]

/-- Painting a screen anew gives its image, whatever was on the surface before. -/
theorem redraw_eq (hscale : 1 ≤ scale) (hs : s.scale = scale) (screen : Screen v u) :
    s.redraw screen = .ok { s with image := Picture.image screen scale s.scheme } := by
  have hside : Picture.side s.scale = scale := by
    rw [hs, Picture.side_natCast hscale]
  unfold redraw
  dsimp only
  generalize Picture.side s.scale = k at hside
  subst hside
  rw [dif_pos rfl, dif_pos rfl]

/-- Painting the surface anew leaves an image of the screen as it is. -/
theorem Shows.redraw {screen : Screen v u} (hs : s.Shows scheme screen) (hscale : 1 ≤ scale) :
    s.redraw screen = .ok s := by
  obtain ⟨hscheme, hside, himage⟩ := hs
  rw [redraw_eq hscale hside, hscheme, ← himage, ← hscheme]

/-- Events that take pictures of one screen to pictures of another take an image of the first to
the image of the second. -/
theorem Shows.observeAll {s : Surface (screenWidth * scale) (screenHeight * scale)}
    {before after : Screen screenWidth screenHeight} {events : List Event}
    (hs : s.Shows scheme before) (hscale : 1 ≤ scale)
    (hevents : ∀ r : Recording, r.Mirrors before → (r.observeAll events).Mirrors after) :
    (s.observeAll events).Shows scheme after := by
  obtain ⟨r, hr⟩ := Recording.exists_mirrors before
  have hpaints := (paints_iff_shows hr).mpr hs
  exact (paints_iff_shows (hevents r hr)).mp (hpaints.observeAll hscale events)

end Surface

/-! ## Updates -/

namespace Machine

variable {σ τ : Type} [ClockNumber τ] [HostAmount σ τ]

/-- An update fails by a fault of the program, or because the machine is running and the span is
rejected. -/
theorem update_failure {m : Machine τ} {delta : σ} {failure : Failure}
    (hresult : (m.update delta).result = .error failure) :
    (∃ cause, failure = .fault cause) ∨
      ∃ cause, failure = .number cause ∧ m.halted = false ∧ m.timers.Rejects delta cause := by
  rcases m.update_cases delta with hhalted | ⟨hrunning, cause, hrejects⟩ |
      ⟨hrunning, timers, due, decrements, htime, hcount⟩
  · rw [(update_of_halted hhalted delta).1] at hresult
    cases hresult
    exact Or.inl ⟨_, rfl⟩
  · rw [(update_of_error hrunning hrejects).1] at hresult
    cases hresult
    exact Or.inr ⟨cause, rfl, hrunning, hrejects⟩
  · rw [(update_of_ok hrunning htime hcount).1] at hresult
    exact Or.inl (runSteps_failure (Outcome.map_result_eq_error_iff.mp hresult))

/-- No work other than a reset changes the program. -/
theorem rom_law : Law σ (fun (m : Machine τ) _ m' => m'.rom = m.rom) where
  refl m := rfl
  trans hfirst hsecond := hsecond.trans hfirst
  advance m delta := rfl
  countDown m ticks := rfl
  step m hrunning := by
    rcases step_cases hrunning with ⟨cause, -, hm⟩ | ⟨t, op, -, hm⟩
    · rw [hm]
      rfl
    · rw [hm]
      rfl

end Machine

/-! ## Steps of the loop -/

namespace Window

variable {scale : Nat} {scheme : Scheme} {w : Window scale}

/-- The surface shows the screen of the machine, whose program can be started over. -/
structure ShowsScreen (w : Window scale) (scheme : Scheme) : Prop where
  shows : w.surface.Shows scheme w.machine.state.screen
  fits : w.machine.rom.length ≤ Memory.programCapacity

/-- A running machine has been updated by a span of time that it rejects. The update has left this
machine and this fault. -/
def EndsOver (delta : Float) (left : Machine Float) (fault : WindowFault) : Prop :=
  ∃ (m : Machine Float) (cause : NumberFault), m.halted = false ∧
    m.timers.Rejects (Amount.real delta) cause ∧
    left = (m.update (Amount.real delta)).machine ∧ fault = .failure (.number cause)

/-- The step leaves a window that shows the screen, at the same instant, and the loop goes on. -/
structure Turn.Faithful (t : Turn scale) (scheme : Scheme) (now : Float) : Prop where
  window : t.window.ShowsScreen scheme
  last : t.window.last = now
  fault : t.fault = none

/-- The step leaves a window that shows the screen, and ends the loop only over this span. -/
structure Turn.TimedBy (t : Turn scale) (scheme : Scheme) (now delta : Float) : Prop where
  window : t.window.ShowsScreen scheme
  last : t.window.last = now
  fault : ∀ fault, t.fault = some fault → EndsOver delta t.window.machine fault

namespace Turn

variable {t : Turn scale} {next : Window scale → Turn scale} {now delta : Float}

/-- A step that does not end the loop is followed by the next. -/
theorem andThen_of_none (hfault : t.fault = none) :
    t.andThen next = ⟨(next t.window).window, t.text ++ (next t.window).text,
      t.plays ++ (next t.window).plays, (next t.window).fault⟩ := by
  unfold Turn.andThen
  rw [hfault]

theorem Faithful.timedBy (ht : t.Faithful scheme now) (delta : Float) :
    t.TimedBy scheme now delta where
  window := ht.window
  last := ht.last
  fault fault hfault := by
    rw [ht.fault] at hfault
    cases hfault

/-- Faithful steps in a row are faithful. -/
theorem Faithful.andThen (ht : t.Faithful scheme now)
    (hnext : t.window.ShowsScreen scheme → (next t.window).Faithful scheme t.window.last) :
    (t.andThen next).Faithful scheme now := by
  obtain ⟨hwindow, hlast, hfault⟩ := ht
  obtain ⟨hwindow', hlast', hfault'⟩ := hnext hwindow
  rw [andThen_of_none hfault]
  exact ⟨hwindow', hlast'.trans hlast, hfault'⟩

theorem Faithful.andThen_timedBy (ht : t.Faithful scheme now)
    (hnext : t.window.ShowsScreen scheme → (next t.window).TimedBy scheme t.window.last delta) :
    (t.andThen next).TimedBy scheme now delta := by
  obtain ⟨hwindow, hlast, hfault⟩ := ht
  obtain ⟨hwindow', hlast', hfault'⟩ := hnext hwindow
  rw [andThen_of_none hfault]
  exact ⟨hwindow', hlast'.trans hlast, hfault'⟩

end Turn

theorem ShowsScreen.quiet (hw : w.ShowsScreen scheme) :
    (Turn.quiet w).Faithful scheme w.last where
  window := hw
  last := rfl
  fault := rfl

theorem ShowsScreen.say (hw : w.ShowsScreen scheme) (level : Level) (message : String) :
    (w.say level message).Faithful scheme w.last where
  window := ⟨hw.shows, hw.fits⟩
  last := rfl
  fault := rfl

/-- The surface follows an operation of the machine that a recording can follow. -/
theorem ShowsScreen.follow (hw : w.ShowsScreen scheme) (hscale : 1 ≤ scale)
    {machine : Machine Float} {events : List Event}
    (hevents : ∀ r : Recording, r.Mirrors w.machine.state.screen →
      (r.observeAll events).Mirrors machine.state.screen)
    (hrom : machine.rom = w.machine.rom) :
    (w.follow machine events).Faithful scheme w.last where
  window := ⟨hw.shows.observeAll hscale hevents, hrom ▸ hw.fits⟩
  last := rfl
  fault := rfl

theorem ShowsScreen.redraw (hw : w.ShowsScreen scheme) (hscale : 1 ≤ scale) :
    w.redraw.Faithful scheme w.last := by
  unfold Window.redraw
  rw [hw.shows.redraw hscale]
  exact hw.quiet

/-- Starting over does not fail, for the program fits; nor does painting the surface anew. -/
theorem ShowsScreen.restart (hw : w.ShowsScreen scheme) (hscale : 1 ≤ scale) :
    w.restart.Faithful scheme w.last := by
  obtain ⟨state, hstate⟩ := Machine.exists_initialState w.machine.seed w.machine.dialect
    w.machine.stackLimit hw.fits
  have hreset : w.machine.reset none = _ := Machine.reset_of_ok hstate
  unfold Window.restart
  dsimp only
  refine (hw.follow hscale (fun r hr => Machine.reset_mirrors none hr) ?_).andThen ?_
  · rw [hreset]
    rfl
  · intro hw'
    have hresult : (w.machine.reset none).result = .ok () := by rw [hreset]
    rw [hresult]
    exact hw'.redraw hscale

/-- No event leads the surface astray or ends the loop with a fault. -/
theorem ShowsScreen.handle (hw : w.ShowsScreen scheme) (hscale : 1 ≤ scale) (e : WindowEvent) :
    (w.handle e).Faithful scheme w.last := by
  unfold Window.handle
  cases w.machine.keypad.handle? e with
  | some keypad =>
    have hkeys : ShowsScreen { w with machine := { w.machine with keypad } } scheme :=
      ⟨hw.shows, hw.fits⟩
    exact hkeys.quiet
  | none =>
    have hclosed : ShowsScreen { w with running := false } scheme := ⟨hw.shows, hw.fits⟩
    have hpaused : ShowsScreen { w with paused := !w.paused } scheme := ⟨hw.shows, hw.fits⟩
    dsimp only
    split
    · exact hclosed.quiet
    · exact hclosed.quiet
    · exact hpaused.say _ _
    · exact hw.restart hscale
    · exact hw.quiet

theorem ShowsScreen.handleAll (hw : w.ShowsScreen scheme) (hscale : 1 ≤ scale)
    (events : List WindowEvent) : (w.handleAll events).Faithful scheme w.last := by
  induction events generalizing w with
  | nil => exact hw.quiet
  | cons e es ih => exact (hw.handle hscale e).andThen fun hw' => ih hw'

/-- The surface follows an update, and the loop goes on unless the span is rejected. -/
theorem ShowsScreen.advance (hw : w.ShowsScreen scheme) (hscale : 1 ≤ scale) (delta : Float) :
    (w.advance delta).TimedBy scheme w.last delta := by
  unfold Window.advance
  dsimp only
  refine (hw.follow hscale (fun r hr => Machine.perform_mirrors (.update (Amount.real delta)) hr)
    (Machine.rom_law.update w.machine _)).andThen_timedBy ?_
  intro hw'
  cases hresult : (w.machine.update (Amount.real delta)).result with
  | ok due => exact hw'.quiet.timedBy delta
  | error failure =>
    rcases Machine.update_failure hresult with ⟨cause, rfl⟩ | ⟨cause, rfl, hrunning, hrejects⟩
    · exact (hw'.say _ _).timedBy delta
    · refine ⟨hw', rfl, ?_⟩
      rintro fault ⟨⟩
      exact ⟨w.machine, cause, hrunning, hrejects, rfl, rfl⟩

/-- A frame leaves the image of the screen on the surface, and ends the loop only over the time
since the frame before. -/
theorem frame_faithful (hw : w.ShowsScreen scheme) (hscale : 1 ≤ scale) (f : Frame) :
    (w.frame f).TimedBy scheme f.now (f.now - w.last) := by
  have hlater : ShowsScreen { w with last := f.now } scheme := ⟨hw.shows, hw.fits⟩
  unfold Window.frame
  refine (hlater.handleAll hscale f.events).andThen_timedBy ?_
  intro hw'
  split
  · exact hw'.advance hscale _
  · exact hw'.quiet.timedBy _

/-! ## Closing the window -/

end Window

/-- The event closes the window: the button for it, or the escape key. -/
def WindowEvent.Closes (e : WindowEvent) : Prop := e = .quit ∨ e = .down .escape

/-- An event of the frame closes the window. -/
def Frame.Closes (f : Frame) : Prop := ∃ e ∈ f.events, e.Closes

namespace Window

variable {scale : Nat}

theorem andThen_window {P : Window scale → Prop} {t : Turn scale} {next : Window scale → Turn scale}
    (ht : P t.window) (hnext : ∀ w, P w → P (next w).window) : P (t.andThen next).window := by
  unfold Turn.andThen
  cases t.fault with
  | some f => exact ht
  | none => exact hnext t.window ht

theorem redraw_running (w : Window scale) : w.redraw.window.running = w.running := by
  unfold redraw
  split
  · rfl
  · rfl

theorem restart_running (w : Window scale) : w.restart.window.running = w.running := by
  unfold restart
  refine andThen_window (P := fun v => v.running = w.running) rfl ?_
  intro v hv
  split
  · exact v.redraw_running.trans hv
  · exact hv

theorem handle_running (w : Window scale) {e : WindowEvent} (hopen : ¬ e.Closes) :
    (w.handle e).window.running = w.running := by
  unfold handle
  cases w.machine.keypad.handle? e with
  | some keypad => rfl
  | none =>
    dsimp only
    split
    · exact (hopen (Or.inl rfl)).elim
    · exact (hopen (Or.inr rfl)).elim
    · rfl
    · exact w.restart_running
    · rfl

theorem handleAll_running (w : Window scale) {events : List WindowEvent}
    (hopen : ∀ e ∈ events, ¬ e.Closes) : (w.handleAll events).window.running = w.running := by
  induction events generalizing w with
  | nil => rfl
  | cons e es ih =>
    obtain ⟨hfirst, hrest⟩ := List.forall_mem_cons.mp hopen
    refine andThen_window (P := fun v => v.running = w.running) (w.handle_running hfirst) ?_
    intro v hv
    exact (ih v hrest).trans hv

theorem advance_running (w : Window scale) (delta : Float) :
    (w.advance delta).window.running = w.running := by
  unfold advance
  refine andThen_window (P := fun v => v.running = w.running) rfl ?_
  intro v hv
  split
  · exact hv
  · exact hv
  · exact hv

/-- A frame without an event that closes the window leaves it open. -/
theorem frame_running (w : Window scale) {f : Frame} (hopen : ¬ f.Closes) :
    (w.frame f).window.running = w.running := by
  have hevents : ∀ e ∈ f.events, ¬ e.Closes := fun e he hcloses => hopen ⟨e, he, hcloses⟩
  unfold frame
  refine andThen_window (P := fun v => v.running = w.running)
    (handleAll_running { w with last := f.now } hevents) ?_
  intro v hv
  split
  · exact (v.advance_running _).trans hv
  · exact hv

end Window

/-! ## Scripts -/

/-- The instant of the last of some frames, or the one before them all. -/
def lastInstant (start : Float) (frames : List Frame) : Float :=
  (frames.getLast?.map Frame.now).getD start

theorem lastInstant_cons (start : Float) (f : Frame) (frames : List Frame) :
    lastInstant start (f :: frames) = lastInstant f.now frames := by
  unfold lastInstant
  rw [List.getLast?_cons]
  cases frames.getLast? <;> rfl

/-- Every frame of the script has been shown, up to the one that closes the window. If the loop has
ended with a fault, then over the time between two instants of the script, and every frame before
the later one has been shown. -/
structure Playback.Complete {scale : Nat} (p : Playback scale) (start : Float)
    (script : List Frame) : Prop where
  fault : ∀ fault, p.fault = some fault → ∃ before f later, script = before ++ f :: later ∧
    p.shown.length = before.length ∧
    Window.EndsOver (f.now - lastInstant start before) p.machine fault
  length : p.fault = none → p.shown.length = script.length ∨ ∃ before f later,
    script = before ++ f :: later ∧ f.Closes ∧ p.shown.length = before.length + 1

namespace Window

variable {scale : Nat} {scheme : Scheme} {w : Window scale}

/-- The surface shows the screen at the end of every frame of a script. -/
theorem run_faithful (hw : w.ShowsScreen scheme) (hscale : 1 ≤ scale) (hrunning : w.running = true)
    (pending : String) (script : List Frame) :
    (w.run pending script).Complete w.last script ∧ ∀ shown ∈ (w.run pending script).shown,
      shown.image = Picture.image shown.machine.state.screen scale scheme := by
  induction script generalizing w pending with
  | nil =>
    refine ⟨⟨?_, fun _ => Or.inl rfl⟩, ?_⟩
    · intro f hf
      cases hf
    · intro shown hshown
      cases hshown
  | cons f fs ih =>
    obtain ⟨hwindow, hlast, hends⟩ := frame_faithful hw hscale f
    unfold Window.run
    dsimp only
    cases hfault : (w.frame f).fault with
    | some fault =>
      refine ⟨⟨?_, fun hnone => by cases hnone⟩, ?_⟩
      · rintro fault' ⟨⟩
        exact ⟨[], f, fs, rfl, rfl, hends fault hfault⟩
      · intro shown hshown
        cases hshown
    | none =>
      cases hopen : (w.frame f).window.running with
      | true =>
        obtain ⟨⟨hfaults, hlength⟩, hshows⟩ := ih hwindow hopen ""
        rw [hlast] at hfaults
        refine ⟨⟨?_, ?_⟩, ?_⟩
        · intro fault hfault'
          obtain ⟨before, f', later, rfl, hlength', hends'⟩ := hfaults fault hfault'
          refine ⟨f :: before, f', later, rfl, congrArg (· + 1) hlength', ?_⟩
          rw [lastInstant_cons]
          exact hends'
        · intro hnone
          rcases hlength hnone with hlength | ⟨before, f', later, rfl, hcloses, hlength⟩
          · exact Or.inl (congrArg (· + 1) hlength)
          · exact Or.inr ⟨f :: before, f', later, rfl, hcloses, congrArg (· + 1) hlength⟩
        · exact List.forall_mem_cons.mpr ⟨hwindow.shows.image_eq, hshows⟩
      | false =>
        have hcloses : f.Closes := by
          by_contra hstays
          rw [w.frame_running hstays, hrunning] at hopen
          cases hopen
        refine ⟨⟨?_, fun _ => Or.inr ⟨[], f, fs, rfl, hcloses, rfl⟩⟩, ?_⟩
        · intro f' hf'
          cases hf'
        · exact List.forall_mem_singleton.mpr hwindow.shows.image_eq

/-- A window comes up for a program that fits, on the dark screen of the machine. -/
theorem launch_faithful {settings : WindowSettings} {timers : Timers Float} {seed : Seed}
    (hscheme : Scheme.ofName settings.scheme = .ok scheme)
    (hclocks : Timers.ofFrequencies settings.instructionHz Setup.standard.timerHz = .ok timers)
    (hseed : Seed.ofInt settings.seed = .ok seed)
    (hfits : settings.rom.length ≤ Memory.programCapacity) (console : Console) (now : Float) :
    ∃ turn : Turn scale, launch scale settings console now = .ok turn ∧
      turn.window.ShowsScreen scheme ∧ turn.window.running = true ∧ turn.window.last = now := by
  obtain ⟨state, hstate⟩ :=
    Machine.exists_initialState seed settings.dialect settings.stackLimit hfits
  have hscreen : state.screen = Raster.fill false := Machine.initialState_screen hstate
  let setup : Setup Amount := { Setup.standard with
    rom := settings.rom
    dialect := settings.dialect
    instructionHz := settings.instructionHz
    stackLimit := settings.stackLimit
    seed := settings.seed }
  have hboot : Machine.boot setup = .ok (Machine.fresh setup seed timers state,
      [.cleared, .started settings.rom.length settings.dialect]) :=
    Machine.boot_eq_ok_iff.mpr ⟨timers, seed, state, hclocks, hseed, hstate, rfl, rfl⟩
  unfold launch
  rw [hscheme]
  dsimp only
  rw [hboot]
  refine ⟨_, rfl, ⟨?_, hfits⟩, rfl, rfl⟩
  -- What the surface showed before does not matter, for the first event clears it.
  let surface : Surface (screenWidth * scale) (screenHeight * scale) :=
    ⟨Raster.fill Color.black, scheme, scale⟩
  have hclear : surface.clear.Paints scheme scale Recording.blank.clear :=
    Surface.clear_paints rfl rfl _
  have hmirrors : Recording.blank.clear.Mirrors state.screen := by
    rw [hscreen]
    exact Recording.blank.mirrors_clear
  exact (Surface.paints_iff_shows hmirrors).mp hclear

/-- A window for a program that fits comes up and shows every frame of a script; and whatever the
events of the script, at the end of each frame a point of the surface has the colour of the pixel
in whose square it lies. So the surface is the one that painting the screen anew gives, whatever
was on the surface before. -/
theorem play_shows_screen {scale : Nat} (hscale : 1 ≤ scale) {settings : WindowSettings}
    {scheme : Scheme} (hscheme : Scheme.ofName settings.scheme = .ok scheme)
    {timers : Timers Float}
    (hclocks : Timers.ofFrequencies settings.instructionHz Setup.standard.timerHz = .ok timers)
    {seed : Seed} (hseed : Seed.ofInt settings.seed = .ok seed)
    (hfits : settings.rom.length ≤ Memory.programCapacity) (console : Console)
    (script : List Frame) :
    ∃ playback, play scale settings console script = .ok playback ∧
      playback.Complete 0.0 script ∧
      ∀ shown ∈ playback.shown,
        (∀ px py, shown.image.get px py =
          if shown.machine.state.screen.get ⟨px.val / scale, Picture.div_lt_of_lt_mul px.isLt⟩
            ⟨py.val / scale, Picture.div_lt_of_lt_mul py.isLt⟩ then scheme.on else scheme.off) ∧
        ∀ image, Surface.redraw ⟨image, scheme, scale⟩ shown.machine.state.screen =
          .ok ⟨shown.image, scheme, scale⟩ := by
  obtain ⟨turn, hlaunch, hwindow, hrunning, hlast⟩ :=
    launch_faithful hscheme hclocks hseed hfits console 0.0
  obtain ⟨hcomplete, hshows⟩ := run_faithful hwindow hscale hrunning turn.text script
  rw [hlast] at hcomplete
  refine ⟨_, ?_, hcomplete, ?_⟩
  · unfold play
    rw [hlaunch]
  · intro shown hshown
    rw [hshows shown hshown]
    refine ⟨?_, fun image => Surface.redraw_eq hscale rfl _⟩
    intro px py
    rw [Picture.image, Raster.get_ofFn]
    rfl

/-- A sprite is drawn and the program halts in the middle of an update; the window is paused, the
program started over, and in the end the window is closed. -/
theorem play_shows_screen_of_sprite :
    ∃ (settings : WindowSettings) (console : Console) (script : List Frame) (playback : Playback 2),
      settings.rom = [0xD0, 0x05, 0x00, 0xEE] ∧ settings.scheme = "amber" ∧
      script.map Frame.events = [[], [.down .pause, .down .restart], [.down .pause], [.quit]] ∧
      play 2 settings console script = .ok playback ∧ playback.Complete 0.0 script ∧
      ∀ shown ∈ playback.shown, ∀ px py, shown.image.get px py =
        if shown.machine.state.screen.get ⟨px.val / 2, Picture.div_lt_of_lt_mul px.isLt⟩
          ⟨py.val / 2, Picture.div_lt_of_lt_mul py.isLt⟩ then ⟨255, 176, 0⟩ else ⟨0, 0, 0⟩ := by
  let settings : WindowSettings :=
    ⟨[0xD0, 0x05, 0x00, 0xEE], "sprite", {}, .whole 500, 16, 0, "amber"⟩
  let console : Console := .ofLogger ⟨"chipvm", .critical, false, false, false⟩ []
  let script : List Frame := [⟨0.5, []⟩, ⟨1.0, [.down .pause, .down .restart]⟩,
    ⟨1.5, [.down .pause]⟩, ⟨2.0, [.quit]⟩]
  have hclocks : ∃ timers : Timers Float,
      Timers.ofFrequencies settings.instructionHz Setup.standard.timerHz = .ok timers :=
    exists_eq_ok (by decide +kernel)
  obtain ⟨timers, hclocks⟩ := hclocks
  have hscheme : Scheme.ofName settings.scheme = .ok Scheme.amber := by decide
  have hseed : ∃ seed, Seed.ofInt settings.seed = .ok seed := exists_eq_ok (by decide)
  obtain ⟨seed, hseed⟩ := hseed
  obtain ⟨playback, hplay, hcomplete, hshows⟩ := play_shows_screen (by decide : 1 ≤ 2) hscheme
    hclocks hseed (by decide) console script
  refine ⟨settings, console, script, playback, rfl, rfl, rfl, hplay, hcomplete, ?_⟩
  intro shown hshown px py
  exact (hshows shown hshown).1 px py

end Window

end ChipEight
