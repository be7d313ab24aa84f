import ChipEight.Proofs.StackSlots

/-!
# The call stack as a bounded list

A call stack is an array with a mark that moves up and down. Seen from outside it is a list of
addresses with a limit to its length: a push appends an address, cut to twelve bits, unless the list
is full, and a pop takes the last one off, unless there is none. The limit is a part of the type of
such a list (`BoundedList`), so a list that is too long cannot be written down.

* `Represents`: the list that a stack stands for.
* `Represents.serve`, `Represents.serveAll`: a call, and calls in a row, get the answers of the list
  and leave a stack that stands for the list that is left.
* `CallStack.Proper.pop_push`: a pop after a push gives the stack back as it was, slot by slot.
* `CallStack.answers_as_bounded_list`: every row of calls to an empty stack.
-/

namespace ChipEight

/-- What is asked of a stack. The origin is the place that a fault is to name. -/
inductive StackCall where
  | push (address origin : Int)
  | pop (origin : Int)
deriving DecidableEq, Repr

/-- What comes of a call: the address, if it was a pop, or the reason why nothing came of it. -/
abbrev StackAnswer := Except Fault (Option Int)

/-- The answers to calls in a row, and what they leave. -/
def serveAll {σ : Type} (serve : σ → StackCall → StackAnswer × σ) (s : σ) :
    List StackCall → List StackAnswer × σ
  | [] => ([], s)
  | call :: calls =>
    let (answer, t) := serve s call
    let (answers, last) := serveAll serve t calls
    (answer :: answers, last)

/-! ## Lists with a limit -/

/-- Addresses, the oldest first, and no more of them than the limit. -/
@[ext] structure BoundedList (limit : Nat) where
  addresses : List Int
  length_le : addresses.length ≤ limit

namespace BoundedList

variable {limit : Nat}

def nil : BoundedList limit := ⟨[], Nat.zero_le limit⟩

/-- One more address, for which there has to be room. -/
def append (l : BoundedList limit) (address : Int) (hroom : l.addresses.length ≠ limit) :
    BoundedList limit :=
  ⟨l.addresses ++ [address], by
    have := l.length_le
    rw [List.length_append, List.length_singleton]
    omega⟩

def dropLast (l : BoundedList limit) : BoundedList limit :=
  ⟨l.addresses.dropLast, by
    have := l.length_le
    rw [List.length_dropLast]
    omega⟩

/-- A call that fails leaves the list as it is. -/
def serve (l : BoundedList limit) : StackCall → StackAnswer × BoundedList limit
  | .push address origin =>
    if hfull : l.addresses.length = limit then (.error (.stackOverflow origin limit), l)
    else (.ok none, l.append (address % 4096) hfull)
  | .pop origin =>
    match l.addresses.getLast? with
    | none => (.error (.stackUnderflow origin), l)
    | some address => (.ok (some address), l.dropLast)

end BoundedList

/-! ## Stacks -/

namespace CallStack

variable {limit : Nat} {s t : CallStack} {address origin : Int}

/-- The addresses in use as numbers, the oldest first. -/
def addresses (s : CallStack) : List Int := s.toList.map fun a => (a.toNat : Int)

/-- A call that fails leaves the stack as it is. -/
def serve (s : CallStack) : StackCall → StackAnswer × CallStack
  | .push address origin =>
    match s.push address origin with
    | .ok t => (.ok none, t)
    | .error cause => (.error cause, s)
  | .pop origin =>
    match s.pop origin with
    | .ok (t, address) => (.ok (some address.toNat), t)
    | .error cause => (.error cause, s)

theorem serve_push_of_ok (hpush : s.push address origin = .ok t) :
    s.serve (.push address origin) = (.ok none, t) := by
  rw [serve, hpush]

theorem serve_push_of_error {f : Fault} (hpush : s.push address origin = .error f) :
    s.serve (.push address origin) = (.error f, s) := by
  rw [serve, hpush]

theorem serve_pop_of_ok {a : Word} (hpop : s.pop origin = .ok (t, a)) :
    s.serve (.pop origin) = (.ok (some a.toNat), t) := by
  rw [serve, hpop]

theorem serve_pop_of_error {f : Fault} (hpop : s.pop origin = .error f) :
    s.serve (.pop origin) = (.error f, s) := by
  rw [serve, hpop]

theorem serve_of_error {call : StackCall} {f : Fault} (hanswer : (s.serve call).1 = .error f) :
    (s.serve call).2 = s := by
  cases call with
  | push address origin =>
    cases hpush : s.push address origin with
    | error cause => rw [serve_push_of_error hpush]
    | ok t =>
      rw [serve_push_of_ok hpush] at hanswer
      cases hanswer
  | pop origin =>
    cases hpop : s.pop origin with
    | error cause => rw [serve_pop_of_error hpop]
    | ok popped =>
      rw [serve_pop_of_ok hpop] at hanswer
      cases hanswer

theorem length_addresses (s : CallStack) : s.addresses.length = s.depth := by
  rw [addresses, List.length_map, length_toList]

theorem addresses_of_push (hpush : s.push address origin = .ok t) :
    t.addresses = s.addresses ++ [address % 4096] := by
  have hcut : ((UInt16.ofNat (address % 4096).toNat).toNat : Int) = address % 4096 := by
    rw [UInt16.toNat_ofNat']
    omega
  rw [addresses, (push_eq_ok hpush).1, List.map_append, List.map_singleton, hcut]
  rfl

theorem addresses_of_pop {a : Word} (hpop : s.pop origin = .ok (t, a)) :
    s.addresses = t.addresses ++ [(a.toNat : Int)] := by
  rw [addresses, (pop_eq_ok hpop).1, List.map_append, List.map_singleton]
  rfl

theorem push_error_iff_full {f : Fault} : s.push address origin = .error f ↔
    s.addresses.length = s.limit ∧ f = .stackOverflow origin s.limit := by
  have hdepth : s.depth ≤ s.limit := s.depth_le
  rw [push_eq_error_iff, length_addresses]
  refine and_congr_left fun _ => ?_
  omega

theorem pop_error_iff_nil {f : Fault} : s.pop origin = .error f ↔
    s.addresses = [] ∧ f = .stackUnderflow origin := by
  rw [pop_eq_error_iff, ← List.length_eq_zero_iff, length_addresses]

theorem exists_pop (hdepth : s.depth ≠ 0) (origin : Int) : ∃ t a, s.pop origin = .ok (t, a) := by
  cases hpop : s.pop origin with
  | ok popped => exact ⟨popped.1, popped.2, rfl⟩
  | error f => exact absurd (pop_eq_error_iff.mp hpop).1 hdepth

/-- The slot that a push fills was zero before, and a pop puts the zero back. -/
theorem Proper.pop_push (hs : s.Proper) (hpush : s.push address origin = .ok t) (origin' : Int) :
    ∃ a, t.pop origin' = .ok (s, a) ∧ (a.toNat : Int) = address % 4096 := by
  obtain ⟨-, hdepth, -⟩ := push_slots hpush
  obtain ⟨u, a, hpop⟩ := exists_pop (s := t) (by omega) origin'
  obtain ⟨hlist, hlimit⟩ := push_eq_ok hpush
  obtain ⟨hlist', hlimit'⟩ := pop_eq_ok hpop
  obtain ⟨hsame, -⟩ := List.append_inj' (hlist'.symm.trans hlist) rfl
  have heq : u = s :=
    ((hs.push hpush).pop hpop).eq_of_toList hs (hlimit'.trans hlimit) hsame
  subst heq
  have haddresses := (addresses_of_pop hpop).symm.trans (addresses_of_push hpush)
  exact ⟨a, hpop, List.singleton_inj.mp (List.append_cancel_left haddresses)⟩

end CallStack

/-! ## What a stack stands for -/

/-- The stack stands for the list: its addresses are those of the list, it has the same limit, and
its slots out of use are clear. -/
structure Represents {limit : Nat} (s : CallStack) (l : BoundedList limit) : Prop where
  limit_eq : s.limit = limit
  addresses_eq : s.addresses = l.addresses
  proper : s.Proper

section

variable {limit : Nat} {s : CallStack} {l : BoundedList limit}

theorem represents_empty (limit : Nat) :
    Represents (CallStack.empty limit) (BoundedList.nil : BoundedList limit) := by
  refine ⟨CallStack.limit_empty limit, ?_, CallStack.proper_empty limit⟩
  rw [CallStack.addresses, CallStack.toList_empty]
  rfl

theorem Represents.serve_push (hs : Represents s l) (address origin : Int) :
    (s.serve (.push address origin)).1 = (l.serve (.push address origin)).1 ∧
      Represents (s.serve (.push address origin)).2 (l.serve (.push address origin)).2 := by
  cases hpush : s.push address origin with
  | error f =>
    obtain ⟨hfull, rfl⟩ := CallStack.push_error_iff_full.mp hpush
    rw [hs.addresses_eq, hs.limit_eq] at hfull
    rw [CallStack.serve_push_of_error hpush, BoundedList.serve, dif_pos hfull, hs.limit_eq]
    exact ⟨rfl, hs⟩
  | ok t =>
    have hroom : l.addresses.length ≠ limit := by
      obtain ⟨hlt, -, -⟩ := CallStack.push_slots hpush
      rw [← hs.addresses_eq, CallStack.length_addresses, ← hs.limit_eq]
      exact Nat.ne_of_lt hlt
    rw [CallStack.serve_push_of_ok hpush, BoundedList.serve, dif_neg hroom]
    refine ⟨rfl, (CallStack.push_eq_ok hpush).2.trans hs.limit_eq, ?_, hs.proper.push hpush⟩
    rw [CallStack.addresses_of_push hpush, hs.addresses_eq]
    rfl

theorem Represents.serve_pop (hs : Represents s l) (origin : Int) :
    (s.serve (.pop origin)).1 = (l.serve (.pop origin)).1 ∧
      Represents (s.serve (.pop origin)).2 (l.serve (.pop origin)).2 := by
  cases hpop : s.pop origin with
  | error f =>
    obtain ⟨hnil, rfl⟩ := CallStack.pop_error_iff_nil.mp hpop
    have hlast : l.addresses.getLast? = none := by
      rw [← hs.addresses_eq, hnil]
      rfl
    rw [CallStack.serve_pop_of_error hpop, BoundedList.serve, hlast]
    exact ⟨rfl, hs⟩
  | ok popped =>
    obtain ⟨t, a⟩ := popped
    have haddresses : l.addresses = t.addresses ++ [(a.toNat : Int)] := by
      rw [← hs.addresses_eq, CallStack.addresses_of_pop hpop]
    have hlast : l.addresses.getLast? = some (a.toNat : Int) := by
      rw [haddresses, List.getLast?_concat]
    rw [CallStack.serve_pop_of_ok hpop, BoundedList.serve, hlast]
    refine ⟨rfl, (CallStack.pop_eq_ok hpop).2.trans hs.limit_eq, ?_, hs.proper.pop hpop⟩
    change t.addresses = l.addresses.dropLast
    rw [haddresses, List.dropLast_concat]

theorem Represents.serve (hs : Represents s l) (call : StackCall) :
    (s.serve call).1 = (l.serve call).1 ∧ Represents (s.serve call).2 (l.serve call).2 := by
  cases call with
  | push address origin => exact hs.serve_push address origin
  | pop origin => exact hs.serve_pop origin

/-- Calls in a row to a stack get the answers that the list gives. -/
theorem Represents.serveAll (hs : Represents s l) (calls : List StackCall) :
    (serveAll CallStack.serve s calls).1 = (serveAll BoundedList.serve l calls).1 ∧
      Represents (serveAll CallStack.serve s calls).2 (serveAll BoundedList.serve l calls).2 := by
  induction calls generalizing s l with
  | nil => exact ⟨rfl, hs⟩
  | cons call calls ih =>
    obtain ⟨hanswer, hleft⟩ := hs.serve call
    obtain ⟨hanswers, hlast⟩ := ih hleft
    exact ⟨List.cons_eq_cons.mpr ⟨hanswer, hanswers⟩, hlast⟩

end

/-! ## Every row of calls -/

namespace CallStack

/-- What each of the two calls does to a stack with this limit, told by its addresses. -/
structure ActsAsList (limit : Nat) (s : CallStack) : Prop where
  push_error_iff : ∀ address origin f, s.push address origin = .error f ↔
    s.addresses.length = limit ∧ f = .stackOverflow origin limit
  push_ok : ∀ address origin t, s.push address origin = .ok t →
    t.addresses = s.addresses ++ [address % 4096]
  pop_error_iff : ∀ origin f, s.pop origin = .error f ↔
    s.addresses = [] ∧ f = .stackUnderflow origin
  pop_ok : ∀ origin t a, s.pop origin = .ok (t, a) →
    s.addresses = t.addresses ++ [(a.toNat : Int)]
  kept : ∀ call f, (s.serve call).1 = .error f → (s.serve call).2 = s
  pop_push : ∀ address origin origin' t, s.push address origin = .ok t →
    ∃ a, t.pop origin' = .ok (s, a) ∧ (a.toNat : Int) = address % 4096

/-- Whatever calls are made to an empty stack, they get the answers that a list with the limit of
the stack gives, faults included, and the slots in use hold that list in the end. There each of the
two calls does to the stack what it does to the list: a call that fails leaves it alone, and a pop
after a push takes it back to what it was, slot by slot. -/
theorem answers_as_bounded_list (limit : Nat) (calls : List StackCall) :
    (serveAll serve (empty limit) calls).1 =
        (serveAll BoundedList.serve (.nil : BoundedList limit) calls).1 ∧
      (serveAll serve (empty limit) calls).2.addresses =
        (serveAll BoundedList.serve (.nil : BoundedList limit) calls).2.addresses ∧
      ActsAsList limit (serveAll serve (empty limit) calls).2 := by
  obtain ⟨hanswers, hlast⟩ := (represents_empty limit).serveAll calls
  generalize (serveAll serve (empty limit) calls).2 = s at hlast
  refine ⟨hanswers, hlast.addresses_eq, ?_⟩
  exact {
    push_error_iff := fun address origin f => hlast.limit_eq ▸ push_error_iff_full
    push_ok := fun address origin t hpush => addresses_of_push hpush
    pop_error_iff := fun origin f => pop_error_iff_nil
    pop_ok := fun origin t a hpop => addresses_of_pop hpop
    kept := fun call f hanswer => serve_of_error hanswer
    pop_push := fun address origin origin' t hpush => hlast.proper.pop_push hpush origin' }

/-- One slot: the second push finds no room, and the second pop no address. -/
example : (serveAll serve (empty 1)
    [.push 0x1FFE 0, .push 0x300 2, .pop 4, .pop 6]).1 =
    [.ok none, .error (.stackOverflow 2 1), .ok (some 0xFFE), .error (.stackUnderflow 6)] := rfl

end CallStack

end ChipEight
