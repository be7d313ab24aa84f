import ChipEight.Fault

/-!
# The call stack

A stack of return addresses with a fixed number of slots. `depth` counts the slots in use; `pop`
clears the slot it takes, so a slot out of use holds zero. The view `toList` is the addresses in
use, the oldest first: `push` appends to it (`push_eq_ok`) and `pop` takes its last element
(`pop_eq_ok`), and each fails in one case only.
-/

namespace ChipEight

/-- Slots for return addresses, the first `depth` of them in use. The depth can never pass the
number of slots. -/
@[ext] structure CallStack where
  slots : Array Word
  depth : Nat
  depth_le : depth ≤ slots.size
deriving DecidableEq, Repr

namespace CallStack

/-- A stack with room for `limit` calls, none of them made. -/
def empty (limit : Nat) : CallStack := ⟨Array.replicate limit 0, 0, Nat.zero_le _⟩

/-- How many calls there is room for. -/
def limit (s : CallStack) : Nat := s.slots.size

/-- The addresses in use, the oldest first. -/
def toList (s : CallStack) : List Word := s.slots.toList.take s.depth

/-- Puts the low twelve bits of an address on the stack. `origin` is the calling instruction, which
an overflow names. -/
def push (s : CallStack) (address origin : Int) : Except Fault CallStack :=
  if h : s.depth < s.slots.size then
    .ok ⟨s.slots.set s.depth (UInt16.ofNat (address % 4096).toNat), s.depth + 1, by
      rw [Array.size_set]; exact h⟩
  else .error (.stackOverflow origin s.limit)

/-- Takes the newest address. `origin` is the returning instruction, which an underflow names. -/
def pop (s : CallStack) (origin : Int) : Except Fault (CallStack × Word) :=
  if h : 0 < s.depth then
    have top : s.depth - 1 < s.slots.size := by have := s.depth_le; omega
    .ok (⟨s.slots.set (s.depth - 1) 0, s.depth - 1, by rw [Array.size_set]; omega⟩,
      s.slots[s.depth - 1])
  else .error (.stackUnderflow origin)

@[simp] theorem limit_empty (limit : Nat) : (empty limit).limit = limit := by
  simp [empty, CallStack.limit]

@[simp] theorem toList_empty (limit : Nat) : (empty limit).toList = [] := by
  simp [empty, toList]

@[simp] theorem length_toList (s : CallStack) : s.toList.length = s.depth := by
  have := s.depth_le
  simp [toList]
  omega

/-- A call that succeeds finds room, and puts the low twelve bits of the address last. -/
theorem push_eq_ok {s t : CallStack} {address origin : Int} (h : s.push address origin = .ok t) :
    t.toList = s.toList ++ [UInt16.ofNat (address % 4096).toNat] ∧ t.limit = s.limit := by
  unfold push at h
  split at h
  · rename_i hroom
    cases h
    refine ⟨?_, by simp [limit]⟩
    simp only [toList, Array.toList_set]
    rw [List.take_set, List.take_add_one]
    simp [hroom, Nat.min_eq_left (Nat.le_of_lt hroom)]
  · cases h

/-- A call fails exactly on a full stack, and the fault names its origin and the limit. -/
theorem push_eq_error_iff {s : CallStack} {address origin : Int} {f : Fault} :
    s.push address origin = .error f ↔ s.limit ≤ s.depth ∧ f = .stackOverflow origin s.limit := by
  unfold push
  split
  · simp only [reduceCtorEq, limit, false_iff, not_and]
    omega
  · simp only [Except.error.injEq, limit]
    constructor
    · rintro rfl
      exact ⟨by omega, rfl⟩
    · rintro ⟨_, rfl⟩
      rfl

/-- A return that succeeds takes the youngest address and leaves the older ones. -/
theorem pop_eq_ok {s t : CallStack} {origin : Int} {a : Word} (h : s.pop origin = .ok (t, a)) :
    s.toList = t.toList ++ [a] ∧ t.limit = s.limit := by
  unfold pop at h
  split at h
  · rename_i hpos
    cases h
    refine ⟨?_, by simp [limit]⟩
    have := s.depth_le
    obtain ⟨d, hd⟩ : ∃ d, s.depth = d + 1 := ⟨s.depth - 1, by omega⟩
    have hlt : d < s.slots.toList.length := by simp only [Array.length_toList]; omega
    simp only [toList, Array.toList_set]
    rw [List.take_set_of_le (Nat.le_refl _)]
    simp only [hd, Nat.add_sub_cancel]
    rw [List.take_add_one, List.getElem?_eq_getElem hlt]
    simp
  · cases h

/-- A return fails exactly on an empty stack, and the fault names its origin. -/
theorem pop_eq_error_iff {s : CallStack} {origin : Int} {f : Fault} :
    s.pop origin = .error f ↔ s.depth = 0 ∧ f = .stackUnderflow origin := by
  unfold pop
  split
  · simp only [reduceCtorEq, false_iff, not_and]
    omega
  · simp only [Except.error.injEq]
    constructor
    · rintro rfl
      exact ⟨by omega, rfl⟩
    · rintro ⟨_, rfl⟩
      rfl

end CallStack

end ChipEight
