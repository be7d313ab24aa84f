import ChipEight.Fault

/-!
# Random bytes

A counter-based generator: `Threefry.block` scrambles two 32-bit counters under a key of two
32-bit words with twenty rounds of the threefry cipher. A `RandomKey` is the state of the random
instruction; `RandomKey.next` is the key that the following draw uses and `RandomKey.byte` is the
byte drawn, both functions of the key alone.
-/

namespace ChipEight

/-! ## The cipher -/

namespace Threefry

/-- The word with its bits moved up by `r` places, those at the top coming in at the bottom. -/
def rotateLeft (x : UInt32) (r : Nat) : UInt32 :=
  x <<< UInt32.ofNat r ||| x >>> UInt32.ofNat (32 - r)

/-- One round: add, rotate, exclusive or. -/
def mix (c : UInt32 × UInt32) (r : Nat) : UInt32 × UInt32 :=
  let sum := c.1 + c.2
  (sum, rotateLeft c.2 r ^^^ sum)

/-- Four rounds, after which two words of the key and the number of the group are added. -/
def group (c : UInt32 × UInt32) (rotations : List Nat) (k₀ k₁ : UInt32) (number : UInt32) :
    UInt32 × UInt32 :=
  let mixed := rotations.foldl mix c
  (mixed.1 + k₀, mixed.2 + k₁ + number)

/-- The rotations of the first, third and fifth group of rounds. -/
def oddRotations : List Nat := [13, 15, 26, 6]

/-- The rotations of the second and fourth group of rounds. -/
def evenRotations : List Nat := [17, 29, 16, 24]

/-- Twenty rounds over a pair of counters. The third word of the key schedule is the parity of the
other two. -/
def block (k c : UInt32 × UInt32) : UInt32 × UInt32 :=
  let parity := k.1 ^^^ k.2 ^^^ 0x1BD11BDA
  let c₀ := (c.1 + k.1, c.2 + k.2)
  let c₁ := group c₀ oddRotations k.2 parity 1
  let c₂ := group c₁ evenRotations parity k.1 2
  let c₃ := group c₂ oddRotations k.1 k.2 3
  let c₄ := group c₃ evenRotations k.2 parity 4
  group c₄ oddRotations parity k.1 5

end Threefry

/-! ## Keys -/

/-- Seeds are integers of 64 bits. -/
abbrev Seed := Int64

/-- The seed with this value, if there is one. -/
def Seed.ofInt (n : Int) : Except NumberFault Seed :=
  if -9223372036854775808 ≤ n ∧ n < 9223372036854775808 then .ok (Int64.ofInt n)
  else .error .seedTooLarge

/-- A key of two words. Each draw takes a byte and the following key from it. -/
structure RandomKey where
  high : UInt32
  low : UInt32
deriving DecidableEq, Repr

namespace RandomKey

/-- The key that a seed gives: the seed modulo `2 ^ 32`. -/
def ofSeed (seed : Seed) : RandomKey := ⟨0, UInt32.ofInt seed.toInt⟩

/-- The key derived from another one under a number. -/
def derive (k : RandomKey) (number : UInt32) : RandomKey :=
  let c := Threefry.block (k.high, k.low) (0, number)
  ⟨c.1, c.2⟩

/-- The key after one draw. -/
def next (k : RandomKey) : RandomKey := k.derive 0

/-- The byte that one draw gives. -/
def byte (k : RandomKey) : UInt8 :=
  let word := ((k.derive 1).derive 1).derive 0
  UInt8.ofNat (word.high ^^^ word.low).toNat

/-- The key after `count` draws. -/
def after (k : RandomKey) : Nat → RandomKey
  | 0 => k
  | count + 1 => (k.next).after count

end RandomKey

end ChipEight
