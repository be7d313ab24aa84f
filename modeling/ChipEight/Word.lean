/-!
# Bytes, words and addresses

The quantities a CHIP-8 computes with. A register, a memory cell and a timer hold a `Byte`; an
instruction, the program counter and the index register hold a `Word`; a register number and a
key of the hexadecimal keypad are a `Nibble`; and a place in memory is an `Address`, whose
addition wraps at the end of memory. The program counter and the index register are wider than
an address, so `Address.ofWord` says which place a word names: the one its low twelve bits give.
-/

namespace ChipEight

/-- Eight bits, as a cell of memory and a register hold them. -/
abbrev Byte := UInt8

/-- Sixteen bits, as the program counter and the index register hold them. -/
abbrev Word := UInt16

/-- A register number, or a key of the hexadecimal keypad. -/
abbrev Nibble := Fin 16

-- Named here, so that a numeral below is the same term whatever instances are imported later on.
instance Nibble.neZero : @NeZero Nat Zero.ofOfNat0 16 := ⟨Nat.succ_ne_zero 15⟩

theorem Nibble.lt (x : Nibble) : x.val < 16 := x.isLt

/-- The nibble with this value, if there is one. -/
def Nibble.ofInt? (n : Int) : Option Nibble :=
  if h : 0 ≤ n ∧ n < 16 then some ⟨n.toNat, by omega⟩ else none

/-- A place in the 4096 bytes of memory. -/
abbrev Address := Fin 4096

instance Address.neZero : @NeZero Nat Zero.ofOfNat0 4096 := ⟨Nat.succ_ne_zero 4095⟩

/-- The place that the low twelve bits of a word name. -/
def Address.ofWord (w : Word) : Address := Fin.ofNat 4096 w.toNat

def Address.toWord (a : Address) : Word := UInt16.ofNat a.val

@[simp] theorem Address.val_ofWord (w : Word) : (Address.ofWord w).val = w.toNat % 4096 := rfl

@[simp] theorem Address.toNat_toWord (a : Address) : a.toWord.toNat = a.val := by
  have := a.isLt
  simp only [Address.toWord, UInt16.toNat_ofNat']
  omega

/-- Counting on from the place that a word names is counting on from the word. -/
theorem Address.ofWord_add_ofNat (w : Word) (k : Nat) :
    Address.ofWord w + Fin.ofNat 4096 k = Fin.ofNat 4096 (w.toNat + k) := by
  ext
  simp only [Fin.val_add, Address.val_ofWord, Fin.val_ofNat]
  omega

@[simp] theorem Address.ofWord_toWord (a : Address) : Address.ofWord a.toWord = a := by
  have := a.isLt
  ext
  simp only [Address.val_ofWord, Address.toNat_toWord]
  omega

end ChipEight
