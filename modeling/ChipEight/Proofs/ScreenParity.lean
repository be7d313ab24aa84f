import Mathlib.Algebra.Ring.Parity
import Mathlib.Data.List.DropRight
import ChipEight.Proofs.Bounds

/-!
# The screen is the parity of what has been drawn

A drawing flips the pixels of its plane, and nothing else but clearing changes the screen. So a
pixel is lit when an odd number of the planes drawn since the screen was last cleared cover it, in
whatever order they came; and as a plane depends on the memory and the registers alone, the picture
can be told from the instructions of a run without looking at the screen in between.

* `State.planes`: the planes drawn in a run since the last clearing.
* `State.act_showsParity`: one action.
* `State.draw_flag`: the flag of a drawing.
* `State.screen_is_parity`: every state of a run.
-/

namespace ChipEight.State

variable {w h : Nat}

/-! ## Planes -/

/-- The plane that an instruction draws, if it draws one. -/
def plane? : State w h × Instruction → Option (Screen w h)
  | (s, .draw x y rows) => some (Sprite.plane (s.spriteTargets x y rows))
  | _ => none

/-- The planes that have been drawn since the last clearing, in their order. -/
def planes (trace : List (State w h × Instruction)) : List (Screen w h) :=
  (trace.rtakeWhile fun turn => turn.2 ≠ .clear).filterMap plane?

theorem planes_append_clear (trace : List (State w h × Instruction)) (s : State w h) :
    planes (trace ++ [(s, .clear)]) = [] := by
  simp [planes]

/-- A sprite that is drawn adds its plane, and no other instruction adds one. -/
theorem planes_append (trace : List (State w h × Instruction)) (s : State w h) {i : Instruction}
    (hi : i ≠ .clear) : planes (trace ++ [(s, i)]) = planes trace ++ (plane? (s, i)).toList := by
  have hlast : (trace ++ [(s, i)]).rtakeWhile (fun turn => turn.2 ≠ .clear) =
      trace.rtakeWhile (fun turn => turn.2 ≠ .clear) ++ [(s, i)] :=
    List.rtakeWhile_concat_pos _ _ _ (by simpa using hi)
  rw [planes, hlast, List.filterMap_append]
  cases hplane : plane? (s, i) <;> simp [planes, hplane]

/-- An odd number of the planes cover the pixel. -/
def OddlyCovered (planes : List (Screen w h)) (x : Fin w) (y : Fin h) : Prop :=
  Odd (planes.countP fun plane => plane.get x y)

theorem not_oddlyCovered_nil (x : Fin w) (y : Fin h) : ¬ OddlyCovered [] x y := by
  simp [OddlyCovered]

/-- One more plane turns the parity round where it covers the point. -/
theorem oddlyCovered_append (planes : List (Screen w h)) (plane : Screen w h) (x : Fin w)
    (y : Fin h) :
    OddlyCovered (planes ++ [plane]) x y ↔
      (OddlyCovered planes x y ↔ ¬ plane.get x y = true) := by
  unfold OddlyCovered
  rw [List.countP_append, List.countP_singleton]
  cases plane.get x y <;> simp [Nat.odd_add_one]

/-- The pixels that are lit are those that are covered oddly. -/
def ShowsParity (trace : List (State w h × Instruction)) (s : State w h) : Prop :=
  ∀ x y, s.screen.get x y = true ↔ OddlyCovered (planes trace) x y

/-! ## One action -/

theorem draw_screen (s : State w h) (x y rows : Nibble) :
    (s.draw x y rows).screen = s.screen.xor (Sprite.plane (s.spriteTargets x y rows)) := rfl

/-- An instruction that neither clears nor draws does nothing to the screen and has no plane. -/
theorem perform_no_plane {s t : State w h} {i : Instruction} (hperform : s.perform i = .ok t)
    (hclear : i ≠ .clear) (hdraw : ∀ x y rows, i ≠ .draw x y rows) :
    t.screen = s.screen ∧ plane? (s, i) = none := by
  constructor
  · rcases perform_screen hperform with ⟨hi, -⟩ | ⟨x, y, rows, hi⟩ | hscreen
    · exact absurd hi hclear
    · exact absurd hi (hdraw x y rows)
    · exact hscreen
  · unfold plane?
    split
    · rename_i heq
      obtain ⟨-, rfl⟩ := Prod.mk.inj heq
      exact absurd rfl (hdraw _ _ _)
    · rfl

/-- An instruction keeps the screen in step with the planes. -/
theorem perform_showsParity {trace : List (State w h × Instruction)} {s t : State w h}
    {i : Instruction} (hs : ShowsParity trace s) (hperform : s.perform i = .ok t) :
    ShowsParity (trace ++ [(s, i)]) t := by
  intro x y
  cases i with
  | clear =>
    cases hperform
    have hdark : s.clear.screen.get x y = false := Raster.get_fill false x y
    simp [planes_append_clear, not_oddlyCovered_nil, hdark]
  | draw vx vy rows =>
    cases hperform
    have hplanes : planes (trace ++ [(s, .draw vx vy rows)]) =
        planes trace ++ [Sprite.plane (s.spriteTargets vx vy rows)] :=
      planes_append trace s (by simp)
    rw [hplanes, oddlyCovered_append, draw_screen, Raster.get_xor, ← hs x y]
    cases s.screen.get x y <;> simp
  | _ =>
    obtain ⟨hscreen, hplane⟩ := perform_no_plane hperform (by simp) (by simp)
    rw [planes_append trace s (by simp), hplane, hscreen]
    simpa using hs x y

theorem act_showsParity {trace : List (State w h × Instruction)} {s t : State w h}
    {action : Action} (hs : ShowsParity trace s) (hact : s.act action = .ok t) :
    ShowsParity (trace ++ (s.instruction? action).toList) t := by
  rcases act_instruction? hact with ⟨u, i, hi, hu, hperform⟩ | ⟨hnone, hrest⟩
  · rw [hi]
    have hscreen : ShowsParity trace u := by
      rcases hu with rfl | rfl
      · exact hs
      · exact hs
    exact perform_showsParity hscreen hperform
  · rw [hnone, Option.toList_none, List.append_nil]
    rcases hrest with ⟨count, rfl⟩ | ⟨held, pressed, rfl⟩
    · exact hs
    · exact hs

theorem create_showsParity {random : RandomKey} {rom : List Byte} {dialect : Dialect} {limit : Nat}
    {s : State w h} (hcreate : create w h random rom dialect limit = .ok s) :
    ShowsParity [] s := by
  obtain ⟨memory, -, rfl⟩ := create_eq_ok_iff.mp hcreate
  intro x y
  simp [planes, not_oddlyCovered_nil]

/-- The screen after a run is the parity of the planes that have been drawn. -/
theorem run_showsParity {random : RandomKey} {rom : List Byte} {dialect : Dialect} {limit : Nat}
    {s₀ s : State w h} {actions : List Action}
    (hcreate : create w h random rom dialect limit = .ok s₀) (hrun : s₀.run actions = .ok s) :
    ShowsParity (s₀.performed actions) s :=
  run_induction_performed act_showsParity (create_showsParity hcreate) hrun

/-! ## The flag of a drawing -/

/-- The drawing meets a pixel that is covered oddly. -/
def Collides (planes : List (Screen w h)) (plane : Screen w h) : Prop :=
  ∃ x y, plane.get x y = true ∧ OddlyCovered planes x y

/-- A sprite meets a lit pixel if it covers a point that has been covered an odd number of times. -/
theorem draw_flag {trace : List (State w h × Instruction)} {s : State w h}
    (hs : ShowsParity trace s) (x y rows : Nibble) :
    let plane := Sprite.plane (s.spriteTargets x y rows)
    (Collides (planes trace) plane → (s.draw x y rows).v flagRegister = 1) ∧
      (¬ Collides (planes trace) plane → (s.draw x y rows).v flagRegister = 0) := by
  intro plane
  have hflag : (s.draw x y rows).v flagRegister =
      Byte.ofFlag ((s.spriteTargets x y rows).any fun p => s.screen.get p.1 p.2) := by
    unfold draw setFlag
    rw [v_setV, if_pos rfl]
  -- The flag looks at the targets on the old screen, which are the pixels of the plane.
  have hany : (s.spriteTargets x y rows).any (fun p => s.screen.get p.1 p.2) = true ↔
      Collides (planes trace) plane := by
    rw [List.any_eq_true]
    constructor
    · rintro ⟨⟨px, py⟩, hmem, hlit⟩
      refine ⟨px, py, ?_, (hs px py).mp hlit⟩
      rw [Sprite.get_plane]
      exact decide_eq_true hmem
    · rintro ⟨px, py, hplane, hodd⟩
      rw [Sprite.get_plane] at hplane
      exact ⟨(px, py), of_decide_eq_true hplane, (hs px py).mpr hodd⟩
  rw [hflag, ← hany]
  constructor
  · intro hcollides
    rw [hcollides]
    rfl
  · intro hfree
    rw [eq_false_of_ne_true hfree]
    rfl

/-! ## Pictures -/

/-- Covering a picture with the same planes in another order comes to the same, and so does leaving
out a plane that was drawn twice. -/
theorem oddlyCovered_of_perm {planes planes' : List (Screen w h)} (hperm : planes.Perm planes')
    (x : Fin w) (y : Fin h) : OddlyCovered planes x y ↔ OddlyCovered planes' x y := by
  unfold OddlyCovered
  rw [hperm.countP_eq]

/-- A plane drawn twice is as good as not drawn. -/
theorem oddlyCovered_twice (planes : List (Screen w h)) (plane : Screen w h) (x : Fin w)
    (y : Fin h) : OddlyCovered (plane :: plane :: planes) x y ↔ OddlyCovered planes x y := by
  unfold OddlyCovered
  rw [List.countP_cons, List.countP_cons]
  cases plane.get x y <;> simp [Nat.odd_add_one]

/-- Screens that are covered alike are the same. -/
theorem screen_eq_of_covered {s s' : State w h} {trace trace' : List (State w h × Instruction)}
    (hs : ShowsParity trace s) (hs' : ShowsParity trace' s')
    (hcovered : ∀ x y, OddlyCovered (planes trace') x y ↔ OddlyCovered (planes trace) x y) :
    s'.screen = s.screen := by
  refine Raster.ext_get ?_
  intro x y
  rw [Bool.eq_iff_iff, hs x y, hs' x y]
  exact hcovered x y

/-- A plane is told from the memory, the index, the two coordinates, the number of rows and the
choice between wrapping and cutting. -/
theorem plane?_draw {s s' : State w h} {x y : Nibble} (hmemory : s.memory = s'.memory)
    (hindex : s.index = s'.index) (hx : s.v x = s'.v x) (hy : s.v y = s'.v y)
    (hwrap : s.dialect.wrapSprites = s'.dialect.wrapSprites) (rows : Nibble) :
    plane? (s, .draw x y rows) = plane? (s', .draw x y rows) := by
  have htargets : s.spriteTargets x y rows = s'.spriteTargets x y rows := by
    unfold spriteTargets
    rw [hmemory, hindex, hx, hy, hwrap]
  rw [plane?, plane?, htargets]

/-! ## Runs -/

/-- In a run from a start, whatever else it executes, a pixel is lit exactly when an odd number of
the planes drawn since the last clearing cover it, and a drawing sets the flag exactly when its own
plane has such a pixel. No plane depends on the screen. So two runs that draw the same planes, in
any order, end with the same picture, and a plane drawn twice might as well not have been drawn. -/
theorem screen_is_parity {random : RandomKey} {rom : List Byte} {dialect : Dialect} {limit : Nat}
    {s₀ s : State w h} {actions : List Action}
    (hcreate : create w h random rom dialect limit = .ok s₀) (hrun : s₀.run actions = .ok s) :
    (∀ x y, s.screen.get x y = true ↔ OddlyCovered (planes (s₀.performed actions)) x y) ∧
      (∀ action t u x y rows, s.act action = .ok t →
        s.instruction? action = some (u, .draw x y rows) →
        let plane := Sprite.plane (u.spriteTargets x y rows)
        (Collides (planes (s₀.performed actions)) plane → t.v flagRegister = 1) ∧
          (¬ Collides (planes (s₀.performed actions)) plane → t.v flagRegister = 0)) ∧
      (∀ (u : State w h) x y rows screen,
        plane? ({ u with screen }, .draw x y rows) = plane? (u, .draw x y rows)) ∧
      ∀ random' rom' dialect' limit' s₀' s' actions',
        create w h random' rom' dialect' limit' = .ok s₀' → s₀'.run actions' = .ok s' →
        ((planes (s₀'.performed actions')).Perm (planes (s₀.performed actions)) →
            s'.screen = s.screen) ∧
          ∀ plane, (planes (s₀'.performed actions')).Perm
            (plane :: plane :: planes (s₀.performed actions)) → s'.screen = s.screen := by
  have hparity := run_showsParity hcreate hrun
  refine ⟨hparity, ?_, ?_, ?_⟩
  · intro action t u x y rows hact hdraw
    rcases act_instruction? hact with ⟨u', i, hi, hu, hperform⟩ | ⟨hnone, -⟩
    · rw [hdraw] at hi
      cases hi
      cases hperform
      have hscreen : ShowsParity (s₀.performed actions) u := by
        rcases hu with rfl | rfl
        · exact hparity
        · exact hparity
      exact draw_flag hscreen x y rows
    · rw [hdraw] at hnone
      cases hnone
  · intro u x y rows screen
    exact plane?_draw rfl rfl rfl rfl rfl rows
  · intro random' rom' dialect' limit' s₀' s' actions' hcreate' hrun'
    have hparity' := run_showsParity hcreate' hrun'
    constructor
    · intro hperm
      exact screen_eq_of_covered hparity hparity' fun x y => oddlyCovered_of_perm hperm x y
    · intro plane hperm
      refine screen_eq_of_covered hparity hparity' fun x y => ?_
      rw [oddlyCovered_of_perm hperm, oddlyCovered_twice]

/-- Two glyphs on a screen narrower than a sprite, the second from another place in memory: the
pixel that both cover is dark again, the corner is not. -/
theorem screen_is_parity_of_glyphs : ∃ s₀ s : State 5 6,
    create 5 6 ⟨0, 0⟩ [0xD0, 0x05] {} 16 = .ok s₀ ∧
    s₀.run [.step, .execute (.ofInt 0xA005), .tick 2, .execute (.ofInt 0xD005)] = .ok s ∧
    ¬ OddlyCovered (planes (s₀.performed
      [.step, .execute (.ofInt 0xA005), .tick 2, .execute (.ofInt 0xD005)])) 2 0 ∧
    OddlyCovered (planes (s₀.performed
      [.step, .execute (.ofInt 0xA005), .tick 2, .execute (.ofInt 0xD005)])) 0 0 := by
  have hpixels : (do
      let s₀ ← (create 5 6 ⟨0, 0⟩ [0xD0, 0x05] {} 16).mapError Failure.fault
      let s ← s₀.run [.step, .execute (.ofInt 0xA005), .tick 2, .execute (.ofInt 0xD005)]
      return (s.screen.get 2 0, s.screen.get 0 0)) = Except.ok (false, true) := by
    decide +kernel
  obtain ⟨s₀, hcreate, hpixels⟩ := bind_mapError_eq_ok_iff.mp hpixels
  obtain ⟨s, hrun, hpixels⟩ := bind_eq_ok_iff.mp hpixels
  obtain ⟨hdark, hlit⟩ := Prod.mk.inj (Except.ok.inj hpixels)
  obtain ⟨hparity, -⟩ := screen_is_parity hcreate hrun
  refine ⟨s₀, s, hcreate, hrun, ?_, ?_⟩
  · rw [← hparity 2 0, hdark]
    decide
  · rw [← hparity 0 0, hlit]

end ChipEight.State
