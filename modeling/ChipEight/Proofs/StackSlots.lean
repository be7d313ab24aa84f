import ChipEight.CallStack

/-!
# Slots of the call stack

A call stack is proper when every slot in use holds an address of memory and every slot out of use
holds zero. The empty stack is proper, and a push and a pop keep a stack proper (`Proper.push`,
`Proper.pop`). A proper stack has no more to it than its limit and its list of addresses
(`Proper.eq_of_toList`), so what is proved of the list holds of the slots.
-/

namespace ChipEight.CallStack

/-- The slots in use hold addresses, and the others hold nothing. -/
structure Proper (s : CallStack) : Prop where
  inUse : ∀ i a, i < s.depth → s.slots[i]? = some a → a.toNat < 4096
  unused : ∀ i a, s.depth ≤ i → s.slots[i]? = some a → a = 0

/-- A call writes the slot above those in use, and no other. -/
theorem push_slots {s t : CallStack} {address origin : Int} (h : s.push address origin = .ok t) :
    s.depth < s.limit ∧ t.depth = s.depth + 1 ∧
      ∀ i, t.slots[i]? =
        if i = s.depth then some (UInt16.ofNat (address % 4096).toNat) else s.slots[i]? := by
  unfold push at h
  split at h
  · rename_i hroom
    cases h
    refine ⟨hroom, rfl, fun i => ?_⟩
    rw [Array.getElem?_set]
    simp only [eq_comm]
  · cases h

/-- A return reads and clears the highest slot in use, and leaves the others alone. -/
theorem pop_slots {s t : CallStack} {origin : Int} {a : Word} (h : s.pop origin = .ok (t, a)) :
    s.depth = t.depth + 1 ∧ s.slots[t.depth]? = some a ∧
      ∀ i, t.slots[i]? = if i = t.depth then some 0 else s.slots[i]? := by
  unfold pop at h
  split at h
  · rename_i hpos
    cases h
    have htop : s.depth - 1 < s.slots.size := by have := s.depth_le; omega
    refine ⟨by dsimp only; omega, Array.getElem?_eq_getElem htop, fun i => ?_⟩
    rw [Array.getElem?_set]
    simp only [eq_comm]
  · cases h

/-- What a pop gives is the highest slot in use. -/
theorem pop_top {s t : CallStack} {origin : Int} {a : Word} (h : s.pop origin = .ok (t, a)) :
    a = s.slots.getD (s.depth - 1) 0 := by
  obtain ⟨hdepth, htop, -⟩ := pop_slots h
  rw [hdepth, Nat.add_sub_cancel, Array.getD_eq_getD_getElem?, htop]
  rfl

theorem proper_empty (limit : Nat) : (empty limit).Proper where
  inUse i a hi _ := by simp [empty] at hi
  unused i a _ ha := by
    simp only [empty, Array.getElem?_replicate, Option.ite_none_right_eq_some] at ha
    exact (Option.some.inj ha.2).symm

/-- What is pushed has been reduced to twelve bits. -/
theorem Proper.push {s t : CallStack} {address origin : Int} (hs : s.Proper)
    (h : s.push address origin = .ok t) : t.Proper := by
  obtain ⟨-, hdepth, hslots⟩ := push_slots h
  constructor
  · intro i a hi ha
    rw [hslots] at ha
    split at ha
    · cases ha
      rw [UInt16.toNat_ofNat']
      omega
    · exact hs.inUse i a (by omega) ha
  · intro i a hi ha
    rw [hslots, if_neg (by omega)] at ha
    exact hs.unused i a (by omega) ha

/-- The slot that a pop gives back has been cleared. -/
theorem Proper.pop {s t : CallStack} {origin : Int} {a : Word} (hs : s.Proper)
    (h : s.pop origin = .ok (t, a)) : t.Proper := by
  obtain ⟨hdepth, -, hslots⟩ := pop_slots h
  constructor
  · intro i b hi hb
    rw [hslots, if_neg (by omega)] at hb
    exact hs.inUse i b (by omega) hb
  · intro i b hi hb
    rw [hslots] at hb
    split at hb
    · exact (Option.some.inj hb).symm
    · exact hs.unused i b (by omega) hb

/-- A return goes to a place in memory. -/
theorem Proper.pop_lt {s t : CallStack} {origin : Int} {a : Word} (hs : s.Proper)
    (h : s.pop origin = .ok (t, a)) : a.toNat < 4096 := by
  obtain ⟨hdepth, htop, -⟩ := pop_slots h
  exact hs.inUse t.depth a (by omega) htop

theorem getElem?_toList (s : CallStack) (i : Nat) :
    s.toList[i]? = if i < s.depth then s.slots[i]? else none := by
  rw [toList, List.getElem?_take]
  simp only [Array.getElem?_toList]

/-- A call stack in order is known by its limit and its addresses. -/
theorem Proper.eq_of_toList {s t : CallStack} (hs : s.Proper) (ht : t.Proper)
    (hlimit : s.limit = t.limit) (hlist : s.toList = t.toList) : s = t := by
  have hdepth : s.depth = t.depth := by rw [← length_toList, hlist, length_toList]
  refine CallStack.ext (Array.ext_getElem? fun i => ?_) hdepth
  by_cases hi : i < s.depth
  · have hget := congrArg (·[i]?) hlist
    simpa only [getElem?_toList, if_pos hi, if_pos (hdepth ▸ hi)] using hget
  · by_cases hsize : i < s.slots.size
    · have hsize' : i < t.slots.size := lt_of_lt_of_eq hsize hlimit
      rw [Array.getElem?_eq_getElem hsize, Array.getElem?_eq_getElem hsize']
      rw [hs.unused i _ (by omega) (Array.getElem?_eq_getElem hsize),
        ht.unused i _ (by omega) (Array.getElem?_eq_getElem hsize')]
    · have hsize' : ¬ i < t.slots.size := fun hlt => hsize (lt_of_lt_of_eq hlt hlimit.symm)
      rw [Array.getElem?_eq_none (by omega), Array.getElem?_eq_none (by omega)]

end ChipEight.CallStack
