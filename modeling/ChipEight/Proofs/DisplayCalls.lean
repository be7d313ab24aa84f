import Mathlib.Data.List.Nodup
import ChipEight.Proofs.Bounds
import ChipEight.Proofs.Operations
import ChipEight.Proofs.WordPatterns

/-!
# The display follows the screen

A display never sees the screen of a machine. It is told which pixels change, or that all go dark,
by a comparison of the screens before and after an instruction that is made only where the
instruction is known to draw. So what it shows is the screen because the calls it gets make up
for every change of the screen, and this module says which calls those are.

* `Recording.toList_pixels_observeAll`, `Recording.clears_observeAll`: the log of a recording grows
  by the calls that the events hold.
* `Machine.step_calls`: what an executed instruction has a display do.
* `Machine.step_mirrors`: the calls of a step, a failing one included, take a picture of the screen
  before it to a picture of the screen after it.
* `Session.display_mirrors_screen`: in every run of a session the recording shows the screen.
-/

namespace ChipEight

variable {w h : Nat}

/-! ## Calls -/

/-- A pixel as displays count it. -/
def place (p : Fin w × Fin h) : Int × Int := (p.1.val, p.2.val)

/-- Different points of a screen have different coordinates. -/
theorem place_injective : Function.Injective (place : Fin w × Fin h → Int × Int) := by
  intro p q hpq
  obtain ⟨hx, hy⟩ := Prod.ext_iff.mp hpq
  exact Prod.ext (Fin.ext (Int.ofNat.inj hx)) (Fin.ext (Int.ofNat.inj hy))

/-- The call of a display that sets a pixel, if the event is one. -/
def Event.pixelCall? : Event → Option (Int × Int × Bool)
  | .pixel x y lit => some (x.val, y.val, lit)
  | _ => none

/-- The calls that set a pixel, in their order. -/
def pixelCalls (events : List Event) : List (Int × Int × Bool) :=
  events.filterMap Event.pixelCall?

/-- How often all pixels are cleared at once. -/
def clearCalls (events : List Event) : Nat := events.count .cleared

theorem pixelCalls_cons_of_none {e : Event} (he : e.pixelCall? = none) (es : List Event) :
    pixelCalls (e :: es) = pixelCalls es := List.filterMap_cons_none he

theorem clearCalls_cons_of_ne {e : Event} (he : e ≠ .cleared) (es : List Event) :
    clearCalls (e :: es) = clearCalls es := List.count_cons_of_ne he

namespace Recording

theorem observeAll_cons (r : Recording) (e : Event) (es : List Event) :
    r.observeAll (e :: es) = (r.observe e).observeAll es := rfl

/-- A recording grows by the calls for pixels, in their order. -/
theorem toList_pixels_observeAll (r : Recording) (events : List Event) :
    (r.observeAll events).pixels.toList = r.pixels.toList ++ pixelCalls events := by
  induction events generalizing r with
  | nil => exact (List.append_nil _).symm
  | cons e es ih =>
    rw [observeAll_cons, ih]
    cases e with
    | pixel x y lit => simp [observe, setPixel, pixelCalls, Event.pixelCall?]
    | _ => rfl

/-- A recording counts the calls to clear. -/
theorem clears_observeAll (r : Recording) (events : List Event) :
    (r.observeAll events).clears = r.clears + clearCalls events := by
  induction events generalizing r with
  | nil => rfl
  | cons e es ih =>
    rw [observeAll_cons, ih]
    cases e with
    | cleared => simp [observe, clear, clearCalls]; omega
    | _ => simp [observe, setPixel, clearCalls]

/-! ## Pictures of a screen -/

/-- The pixels that are lit in the recording are those of the screen that are lit. -/
def Mirrors (r : Recording) (screen : Screen w h) : Prop :=
  ∀ q, q ∈ r.lit ↔ ∃ p : Fin w × Fin h, place p = q ∧ screen.get p.1 p.2 = true

/-- A recording that is cleared shows the dark screen, whatever it has shown. -/
theorem mirrors_clear (r : Recording) : r.clear.Mirrors (Raster.fill false : Screen w h) := by
  intro q
  simp [clear]

end Recording

/-- The event that a pixel has the value which a screen gives it. -/
def pixelOf (screen : Screen screenWidth screenHeight) (p : Fin screenWidth × Fin screenHeight) :
    Event := .pixel p.1 p.2 (screen.get p.1 p.2)

namespace Recording

/-- What is lit after calls for the pixels of a screen: of the pixels called for those that are lit
on the screen, of the others those that were lit before. -/
theorem mem_lit_observeAll_pixels (r : Recording) (screen : Screen screenWidth screenHeight)
    (points : List (Fin screenWidth × Fin screenHeight)) (q : Int × Int) :
    q ∈ (r.observeAll (points.map (pixelOf screen))).lit ↔
      (∃ p ∈ points, place p = q ∧ screen.get p.1 p.2 = true) ∨
        (q ∈ r.lit ∧ ∀ p ∈ points, place p ≠ q) := by
  induction points generalizing r with
  | nil => simp [observeAll]
  | cons p ps ih =>
    have hset : q ∈ (r.observe (pixelOf screen p)).lit ↔
        if q = place p then screen.get p.1 p.2 = true else q ∈ r.lit := mem_lit_setPixel
    rw [List.map_cons, observeAll_cons, ih, hset]
    by_cases hq : q = place p
    · -- Whether the same point comes again does not matter: its value is that of the screen.
      subst hq
      simp only [place_injective.eq_iff, ne_eq, if_true]
      constructor
      · rintro (⟨p', -, rfl, hlit⟩ | ⟨hlit, -⟩)
        · exact Or.inl ⟨p', List.mem_cons_self, rfl, hlit⟩
        · exact Or.inl ⟨p, List.mem_cons_self, rfl, hlit⟩
      · rintro (⟨p', -, rfl, hlit⟩ | ⟨-, hnone⟩)
        · by_cases hmem : p' ∈ ps
          · exact Or.inl ⟨p', hmem, rfl, hlit⟩
          · exact Or.inr ⟨hlit, fun p'' hp'' hsame => hmem (hsame ▸ hp'')⟩
        · exact absurd rfl (hnone p List.mem_cons_self)
    · rw [if_neg hq]
      simp [Ne.symm hq]

/-- The changes from one screen to another take a picture of the first to one of the second. -/
theorem Mirrors.changes {r : Recording} {before after : Screen screenWidth screenHeight}
    (hr : r.Mirrors before) :
    (r.observeAll ((before.changes after).map (pixelOf after))).Mirrors after := by
  intro q
  rw [mem_lit_observeAll_pixels]
  constructor
  · rintro (⟨p, -, hplace, hlit⟩ | ⟨hq, hnone⟩)
    · exact ⟨p, hplace, hlit⟩
    · obtain ⟨p, hplace, hlit⟩ := (hr q).mp hq
      have hkept : p ∉ before.changes after := fun hmem => hnone p hmem hplace
      rw [Raster.mem_changes, not_not] at hkept
      exact ⟨p, hplace, hkept ▸ hlit⟩
  · rintro ⟨p, hplace, hlit⟩
    by_cases hmem : p ∈ before.changes after
    · exact Or.inl ⟨p, hmem, hplace, hlit⟩
    · refine Or.inr ⟨(hr q).mpr ⟨p, hplace, ?_⟩, ?_⟩
      · rw [Raster.mem_changes, not_not] at hmem
        rw [hmem, hlit]
      · intro p' hmem' hplace'
        have hsame : p' = p := place_injective (hplace'.trans hplace.symm)
        exact hmem (hsame ▸ hmem')

end Recording

/-- No point is listed twice among the changes. -/
theorem Raster.nodup_changes {α : Type} [BEq α] (r s : Raster α w h) : (r.changes s).Nodup := by
  have hpoints : (Raster.points : List (Fin w × Fin h)).Nodup :=
    (List.nodup_finRange w).product (List.nodup_finRange h)
  exact hpoints.filter _

/-! ## One instruction -/

namespace Machine

variable {τ : Type}

/-- The calls of a display while an instruction with this opcode changes the screen: a drawing sets
each pixel that changes, once and to its new value; clearing the screen is one call; and no other
instruction makes any. -/
def CallsFor (op : Opcode) (before after : Screen screenWidth screenHeight) (events : List Event) :
    Prop :=
  if op.family.val = 0xD then
    clearCalls events = 0 ∧ (pixelCalls events).Nodup ∧
      ∀ x y on, (x, y, on) ∈ pixelCalls events ↔ ∃ p, place p = (x, y) ∧
        before.get p.1 p.2 ≠ after.get p.1 p.2 ∧ on = after.get p.1 p.2
  else pixelCalls events = [] ∧ clearCalls events = if op.word.toNat = 0x00E0 then 1 else 0

/-- What an executed instruction does to the screen, and what a machine makes of it. -/
theorem effects_cases {s t : State screenWidth screenHeight} {op : Opcode}
    (hstep : s.step = .ok (t, op)) :
    (op.word.toNat = 0x00E0 ∧ t.screen = Raster.fill false ∧
        effects s t op.instruction? = [.cleared]) ∨
      (op.family.val = 0xD ∧ effects s t op.instruction? =
        (s.screen.changes t.screen).map (pixelOf t.screen)) ∨
      (op.word.toNat ≠ 0x00E0 ∧ op.family.val ≠ 0xD ∧ t.screen = s.screen ∧
        (effects s t op.instruction? = [] ∨ ∃ b, effects s t op.instruction? = [.tone b])) := by
  obtain ⟨-, hexecute⟩ := State.step_eq_ok_iff.mp hstep
  obtain ⟨i, hi, hperform⟩ := State.execute_eq_ok_iff.mp hexecute
  have hclear := op.instruction?_eq_clear_iff
  have hdraw := op.instruction?_eq_draw_iff
  rw [hi] at hclear hdraw ⊢
  rcases State.perform_screen hperform with ⟨rfl, hscreen⟩ | ⟨x, y, rows, rfl⟩ | hscreen
  · exact Or.inl ⟨hclear.mp rfl, hscreen, rfl⟩
  · exact Or.inr (Or.inl ⟨hdraw.mp ⟨x, y, rows, rfl⟩, rfl⟩)
  · cases i with
    | clear =>
      cases hperform
      exact Or.inl ⟨hclear.mp rfl, rfl, rfl⟩
    | draw x y rows => exact Or.inr (Or.inl ⟨hdraw.mp ⟨x, y, rows, rfl⟩, rfl⟩)
    | setSound x =>
      exact Or.inr (Or.inr ⟨mt hclear.mpr (by simp), mt hdraw.mpr (by simp), hscreen,
        Or.inr ⟨_, rfl⟩⟩)
    | _ =>
      exact Or.inr (Or.inr ⟨mt hclear.mpr (by simp), mt hdraw.mpr (by simp), hscreen,
        Or.inl rfl⟩)

theorem pixelCalls_map_pixelOf (screen : Screen screenWidth screenHeight)
    (points : List (Fin screenWidth × Fin screenHeight)) :
    pixelCalls (points.map (pixelOf screen)) =
      points.map fun p => ((p.1.val : Int), (p.2.val : Int), screen.get p.1 p.2) := by
  have hsome : Event.pixelCall? ∘ pixelOf screen =
      some ∘ fun p => ((p.1.val : Int), (p.2.val : Int), screen.get p.1 p.2) := rfl
  rw [pixelCalls, List.filterMap_map, hsome, List.filterMap_eq_map]

/-- A sprite sets the pixels that it covers, column by column, to the value that they do not
have. -/
theorem pixelCalls_draw (s : State screenWidth screenHeight) (x y rows : Nibble) :
    pixelCalls (effects s (s.draw x y rows) (some (.draw x y rows))) =
      (Raster.points.filter fun p => (Sprite.plane (s.spriteTargets x y rows)).get p.1 p.2).map
        fun p => ((p.1.val : Int), (p.2.val : Int), !s.screen.get p.1 p.2) := by
  have hget (p : Fin screenWidth × Fin screenHeight) : (s.draw x y rows).screen.get p.1 p.2 =
      (s.screen.get p.1 p.2 ^^ (Sprite.plane (s.spriteTargets x y rows)).get p.1 p.2) :=
    Raster.get_xor ..
  have heffects : effects s (s.draw x y rows) (some (.draw x y rows)) =
      (s.screen.changes (s.draw x y rows).screen).map (pixelOf (s.draw x y rows).screen) := rfl
  rw [heffects, pixelCalls_map_pixelOf, Raster.changes]
  have hcovered (p : Fin screenWidth × Fin screenHeight) :
      (s.screen.get p.1 p.2 != (s.draw x y rows).screen.get p.1 p.2) =
        (Sprite.plane (s.spriteTargets x y rows)).get p.1 p.2 := by
    rw [hget]
    cases s.screen.get p.1 p.2 <;> simp
  simp only [hcovered]
  refine List.map_congr_left fun p hp => ?_
  rw [hget, (List.mem_filter.mp hp).2, Bool.xor_true]

/-- Calls for the changes between two screens are the calls of a drawing that leads from one to the
other. -/
theorem callsFor_draw {op : Opcode} (hop : op.family.val = 0xD)
    (before after : Screen screenWidth screenHeight) :
    CallsFor op before after ((before.changes after).map (pixelOf after)) := by
  have hcalls := pixelCalls_map_pixelOf after (before.changes after)
  rw [CallsFor, if_pos hop]
  refine ⟨?_, ?_, ?_⟩
  · refine List.count_eq_zero.mpr ?_
    simp [pixelOf]
  · rw [hcalls]
    refine (Raster.nodup_changes before after).map ?_
    intro p q hpq
    obtain ⟨hx, hrest⟩ := Prod.ext_iff.mp hpq
    exact place_injective (Prod.ext hx (Prod.ext_iff.mp hrest).1)
  · intro x y on
    rw [hcalls, List.mem_map]
    simp only [Raster.mem_changes, place, Prod.mk.injEq]
    constructor
    · rintro ⟨p, hchange, hx, hy, hon⟩
      exact ⟨p, ⟨hx, hy⟩, hchange, hon.symm⟩
    · rintro ⟨p, ⟨hx, hy⟩, hchange, hon⟩
      exact ⟨p, hchange, hx, hy, hon.symm⟩

/-- A step that answers an opcode has executed it. -/
theorem step_executes {m : Machine τ} {op : Opcode} (hresult : m.step.result = .ok op) :
    ∃ t, m.pollKeys.state.step = .ok (t, op) ∧
      m.step = ⟨{ m.pollKeys with state := t, steps := m.steps + 1 },
        .executed m.state.pc op :: effects m.pollKeys.state t op.instruction?, .ok op⟩ := by
  have hrunning : m.halted = false := by
    by_contra hhalted
    rw [step_of_halted (eq_true_of_ne_false hhalted)] at hresult
    cases hresult
  rcases step_cases hrunning with ⟨cause, -, hm⟩ | ⟨t, op', hstep, hm⟩
  · rw [hm] at hresult
    cases hresult
  · have hanswer : op' = op := by
      rw [hm] at hresult
      exact Except.ok.inj hresult
    subst hanswer
    exact ⟨t, hstep, hm⟩

/-- The answer to a step is the opcode at the program counter, which keys do not move. -/
theorem eq_nextOpcode_of_step {m : Machine τ} {op : Opcode} (hresult : m.step.result = .ok op) :
    op = m.state.nextOpcode := by
  obtain ⟨t, hstep, -⟩ := step_executes hresult
  exact (State.step_eq_ok_iff.mp hstep).1

/-- An executed instruction makes the calls that its opcode stands for. -/
theorem step_calls {m : Machine τ} {op : Opcode} (hresult : m.step.result = .ok op) :
    CallsFor op m.state.screen m.step.machine.state.screen m.step.events := by
  obtain ⟨t, hstep, hm⟩ := step_executes hresult
  · rw [hm]
    -- The line on the executed instruction is no call.
    have hhead (es : List Event) : CallsFor op m.state.screen t.screen es →
        CallsFor op m.state.screen t.screen (.executed m.state.pc op :: es) := by
      intro h
      unfold CallsFor
      rw [pixelCalls_cons_of_none rfl, clearCalls_cons_of_ne (by simp)]
      exact h
    refine hhead _ ?_
    rcases effects_cases hstep with ⟨hword, -, heffects⟩ | ⟨hfamily, heffects⟩ |
        ⟨hword, hfamily, -, heffects⟩
    · have hfamily : op.family.val ≠ 0xD := by
        rw [op.val_family, hword]
        decide
      rw [heffects, CallsFor, if_neg hfamily, if_pos hword]
      exact ⟨rfl, rfl⟩
    · rw [heffects]
      exact callsFor_draw hfamily _ _
    · rw [CallsFor, if_neg hfamily, if_neg hword]
      rcases heffects with heffects | ⟨b, heffects⟩
      · rw [heffects]
        exact ⟨rfl, rfl⟩
      · rw [heffects]
        exact ⟨rfl, rfl⟩

/-- A step that fails makes no call. -/
theorem step_no_calls {m : Machine τ} {failure : Failure}
    (hresult : m.step.result = .error failure) :
    pixelCalls m.step.events = [] ∧ clearCalls m.step.events = 0 := by
  cases hhalted : m.halted with
  | true =>
    rw [step_of_halted hhalted]
    exact ⟨rfl, rfl⟩
  | false =>
    rcases step_cases hhalted with ⟨cause, -, hm⟩ | ⟨t, op, -, hm⟩
    · rw [hm]
      exact ⟨rfl, rfl⟩
    · rw [hm] at hresult
      cases hresult

/-! ## Steps keep a picture -/

/-- A step takes a picture of the screen before it to a picture of the screen after it. -/
theorem step_mirrors {m : Machine τ} (hrunning : m.halted = false) {r : Recording}
    (hr : r.Mirrors m.state.screen) :
    (r.observeAll m.step.events).Mirrors m.step.machine.state.screen := by
  rcases step_cases hrunning with ⟨cause, -, hm⟩ | ⟨t, op, hstep, hm⟩
  · rw [hm]
    exact hr
  · rw [hm]
    change (r.observeAll (effects m.pollKeys.state t op.instruction?)).Mirrors t.screen
    rcases effects_cases hstep with ⟨-, hscreen, heffects⟩ | ⟨-, heffects⟩ |
        ⟨-, -, hscreen, heffects⟩
    · rw [heffects, hscreen]
      exact r.mirrors_clear
    · rw [heffects]
      exact hr.changes
    · rw [hscreen]
      rcases heffects with heffects | ⟨b, heffects⟩
      · rw [heffects]
        exact hr
      · rw [heffects]
        exact hr

variable {σ : Type} [ClockNumber τ] [HostAmount σ τ]

/-- Work on a machine that takes pictures of the screen before it to pictures of the one after. -/
def KeepsPicture (m : Machine τ) (attempts : List (Machine τ)) (m' : Machine τ) : Prop :=
  ∀ r : Recording, r.Mirrors m.state.screen →
    (r.observeAll (attempts.flatMap fun x => x.step.events)).Mirrors m'.state.screen

theorem keepsPicture_law : Law σ (KeepsPicture (τ := τ)) where
  refl m r hr := hr
  trans := by
    intro m₁ m₂ m₃ xs ys hfirst hsecond r hr
    rw [List.flatMap_append, Recording.observeAll_append]
    exact hsecond _ (hfirst r hr)
  advance m delta r hr := hr
  countDown m ticks r hr := hr
  step m hrunning r hr := by
    rw [List.flatMap_singleton]
    exact step_mirrors hrunning hr

/-! ## Operations -/

/-- The screen is dark when a program starts. -/
theorem initialState_screen {seed : Seed} {rom : List Byte} {dialect : Dialect} {limit : Nat}
    {s : State screenWidth screenHeight} (hstate : initialState seed rom dialect limit = .ok s) :
    s.screen = Raster.fill false := by
  obtain ⟨memory, -, rfl⟩ := State.create_eq_ok_iff.mp hstate
  rfl

/-- A reset is one call to clear the display if it succeeds, and none if it fails. -/
theorem reset_calls (m : Machine τ) (rom : Option (List Byte)) :
    pixelCalls (m.reset rom).events = [] ∧
      clearCalls (m.reset rom).events = if (m.reset rom).result.isOk then 1 else 0 := by
  cases hstate : initialState m.seed (rom.getD m.rom) m.dialect m.stackLimit with
  | error cause =>
    rw [reset_of_error hstate]
    exact ⟨rfl, rfl⟩
  | ok s =>
    rw [reset_of_ok hstate]
    exact ⟨rfl, rfl⟩

/-- A reset keeps the picture right, whether it succeeds or not. -/
theorem reset_mirrors {m : Machine τ} (rom : Option (List Byte)) {r : Recording}
    (hr : r.Mirrors m.state.screen) :
    (r.observeAll (m.reset rom).events).Mirrors (m.reset rom).machine.state.screen := by
  cases hstate : initialState m.seed (rom.getD m.rom) m.dialect m.stackLimit with
  | error cause =>
    rw [reset_of_error hstate]
    exact hr
  | ok s =>
    rw [reset_of_ok hstate]
    change r.clear.Mirrors s.screen
    rw [initialState_screen hstate]
    exact r.mirrors_clear

/-- Every operation keeps the picture right, also one that fails on its way. -/
theorem perform_mirrors {m : Machine τ} (op : Operation σ) {r : Recording}
    (hr : r.Mirrors m.state.screen) :
    (r.observeAll (m.perform op).events).Mirrors (m.perform op).machine.state.screen := by
  rcases op.reset_or_other with ⟨rom, rfl⟩ | hother
  · exact reset_mirrors rom hr
  · rw [m.perform_events hother]
    exact keepsPicture_law.perform (fun m keypad held pressed r hr => hr) m hother r hr

/-- What an operation has a display do: what its attempts to execute an instruction have it do, and
nothing else, unless it is a reset. -/
structure CallsByInstruction (m : Machine τ) (op : Operation σ) : Prop where
  attempted : (∀ rom, op ≠ .reset rom) →
    (m.perform op).events = (m.attempts op).flatMap fun x => x.step.events
  executed : ∀ x ∈ m.attempts op, ∀ code, x.step.result = .ok code →
    code = x.state.nextOpcode ∧
      CallsFor code x.state.screen x.step.machine.state.screen x.step.events
  failed : ∀ x ∈ m.attempts op, ∀ failure, x.step.result = .error failure →
    pixelCalls x.step.events = [] ∧ clearCalls x.step.events = 0
  restarted : ∀ rom, op = .reset rom → pixelCalls (m.perform op).events = [] ∧
    clearCalls (m.perform op).events = if (m.reset rom).result.isOk then 1 else 0

theorem callsByInstruction (m : Machine τ) (op : Operation σ) : m.CallsByInstruction op where
  attempted := m.perform_events
  executed x _ code hresult := ⟨eq_nextOpcode_of_step hresult, step_calls hresult⟩
  failed x _ failure hresult := step_no_calls hresult
  restarted rom hop := by
    subst hop
    exact m.reset_calls rom

end Machine

/-! ## Sessions -/

namespace Session

variable {σ τ : Type} [ClockNumber τ] [HostAmount σ τ]

/-- There is a recording of the display, and it shows the screen of the machine. -/
def Mirrored (s : Session τ) : Prop :=
  ∃ r, s.display = some r ∧ r.Mirrors s.machine.state.screen

theorem perform_display (s : Session τ) (op : Operation σ) {r : Recording}
    (hdisplay : s.display = some r) :
    (s.perform op).1.display = some (r.observeAll (s.machine.perform op).events) := by
  change s.display.map _ = _
  rw [hdisplay]
  rfl

/-- A session starts with a right picture, whatever its recording showed before. -/
theorem start_mirrored {setup : Setup σ} {console : Console} {r : Recording}
    {tones : Option (List Byte)} {s : Session τ} {text : String}
    (hstart : start setup console (some r) tones = .ok (s, text)) : s.Mirrored := by
  obtain ⟨m, events, hboot, hobserve⟩ := start_eq_ok_iff.mp hstart
  obtain ⟨timers, seed, state, -, -, hstate, rfl, rfl⟩ := Machine.boot_eq_ok_iff.mp hboot
  cases hobserve
  refine ⟨r.clear, rfl, ?_⟩
  change r.clear.Mirrors state.screen
  rw [Machine.initialState_screen hstate]
  exact r.mirrors_clear

theorem Mirrored.perform {s : Session τ} (hs : s.Mirrored) (op : Operation σ) :
    (s.perform op).1.Mirrored := by
  obtain ⟨r, hdisplay, hr⟩ := hs
  exact ⟨_, s.perform_display op hdisplay, Machine.perform_mirrors op hr⟩

theorem Mirrored.after {s : Session τ} (hs : s.Mirrored) (script : Script σ) :
    (s.after script).Mirrored := by
  induction script generalizing s with
  | nil => exact hs
  | cons turn rest ih =>
    have hkeys : (s.withKeys turn.1).Mirrored := hs
    exact ih (hkeys.perform turn.2)

/-- A session that starts with a recorded display has, after any operations, a recording that shows
the screen of the machine; and the next operation, whichever it is, adds to the recording the calls
that are due for the instructions it executes, or for a reset. -/
theorem display_mirrors_screen {setup : Setup σ} {console : Console} {r₀ : Recording}
    {tones : Option (List Byte)} {s₀ : Session τ} {text : String}
    (hstart : start setup console (some r₀) tones = .ok (s₀, text)) (script : Script σ) :
    ∃ r, (s₀.after script).display = some r ∧
      r.Mirrors (s₀.after script).machine.state.screen ∧
      ∀ (change : Keypad → Keypad) (op : Operation σ), ∃ r' events,
        (((s₀.after script).withKeys change).perform op).1.display = some r' ∧
        events = (((s₀.after script).machine.withKeys change).perform op).events ∧
        r'.pixels.toList = r.pixels.toList ++ pixelCalls events ∧
        r'.clears = r.clears + clearCalls events ∧
        ((s₀.after script).machine.withKeys change).CallsByInstruction op := by
  obtain ⟨r, hdisplay, hr⟩ := (start_mirrored hstart).after script
  refine ⟨r, hdisplay, hr, ?_⟩
  intro change op
  have hkeys : ((s₀.after script).withKeys change).display = some r := hdisplay
  refine ⟨_, _, perform_display _ op hkeys, rfl, ?_, ?_, Machine.callsByInstruction _ op⟩
  · exact r.toList_pixels_observeAll _
  · exact r.clears_observeAll _

/-- The top of a digit is drawn; after a key there is an update that clears the screen and comes
upon an opcode that is none, and then a new start, in a recording with a pixel lit that no machine
has. The next step draws again, and sets the four pixels that are covered. -/
theorem display_mirrors_screen_of_sprite : ∃ s₀ : Session Float, ∃ text, ∃ s : Session Float, ∃ r,
    start { Setup.standard with rom := [0xD0, 0x01, 0x00, 0xE0, 0x00, 0x00] }
      (.ofLogger ⟨"chipvm", .critical, false, false, false⟩ []) (some ⟨#[], 0, [(70, 70)]⟩) none =
      .ok (s₀, text) ∧
    s₀.after [(id, .step), (id, .press 3), (id, .update (Amount.whole 1)), (id, .reset none)] = s ∧
    s.display = some r ∧ r.Mirrors s.machine.state.screen ∧
    s.machine.CallsByInstruction (.step : Operation Amount) ∧
    ∃ r', (s.perform (.step : Operation Amount)).1.display = some r' ∧
      r'.pixels.toList = r.pixels.toList ++
        [(0, 0, true), (1, 0, true), (2, 0, true), (3, 0, true)] ∧
      r'.clears = r.clears := by
  let setup : Setup Amount :=
    { Setup.standard with rom := [0xD0, 0x01, 0x00, 0xE0, 0x00, 0x00] }
  let script : Script Amount :=
    [(id, .step), (id, .press 3), (id, .update (Amount.whole 1)), (id, .reset none)]
  have hok : ∃ started : Session Float × String,
      start setup (.ofLogger ⟨"chipvm", .critical, false, false, false⟩ [])
        (some ⟨#[], 0, [(70, 70)]⟩) none = .ok started :=
    exists_eq_ok (by decide +kernel)
  obtain ⟨⟨s₀, text⟩, hstart⟩ := hok
  obtain ⟨m₀, started, hboot, hobserve⟩ := start_eq_ok_iff.mp hstart
  have hmachine : m₀ = s₀.machine := congrArg (fun session => session.1.machine) hobserve
  have hvalues : (Machine.boot setup).map (fun booted =>
      let m := booted.1.after script
      (m.halted, m.state.nextOpcode,
        (Raster.points.filter fun p => decide (p ∈ m.state.spriteTargets 0 0 1)).map fun p =>
          ((p.1.val : Int), (p.2.val : Int), !m.state.screen.get p.1 p.2))) =
      .ok (false, ⟨0xD001⟩, [(0, 0, true), (1, 0, true), (2, 0, true), (3, 0, true)]) := by
    decide +kernel
  rw [hboot, hmachine] at hvalues
  obtain ⟨hrunning, hrest⟩ := Prod.mk.inj (Except.ok.inj hvalues)
  obtain ⟨hopcode, htargets⟩ := Prod.mk.inj hrest
  obtain ⟨s, hs⟩ : ∃ s, s₀.after script = s := ⟨_, rfl⟩
  rw [← machine_after, hs] at hrunning hopcode htargets
  obtain ⟨r, hdisplay, hr, hnext⟩ := display_mirrors_screen hstart script
  rw [hs] at hdisplay hr hnext
  obtain ⟨r', events, hdisplay', hevents, hpixels, hclears, hcalls⟩ := hnext id .step
  have hstep : s.machine.pollKeys.state.step =
      .ok (s.machine.pollKeys.state.advance.draw 0 0 1, ⟨0xD001⟩) :=
    State.step_eq_ok_iff.mpr ⟨hopcode.symm, rfl⟩
  have hm := Machine.step_of_ok hrunning hstep
  have hevents : events = s.machine.step.events := hevents
  have hresult : s.machine.step.result = .ok ⟨0xD001⟩ := by rw [hm]
  have hfor := Machine.step_calls hresult
  rw [Machine.CallsFor, if_pos (by decide)] at hfor
  have hdrawn : pixelCalls s.machine.step.events =
      [(0, 0, true), (1, 0, true), (2, 0, true), (3, 0, true)] := by
    rw [hm, pixelCalls_cons_of_none rfl]
    refine (Machine.pixelCalls_draw s.machine.pollKeys.state.advance 0 0 1).trans ?_
    simp only [Sprite.get_plane]
    exact htargets
  rw [hevents, hdrawn] at hpixels
  rw [hevents, hfor.1] at hclears
  exact ⟨s₀, text, s, r, hstart, hs, hdisplay, hr, hcalls, r', hdisplay', hpixels, hclears⟩

end Session

end ChipEight
