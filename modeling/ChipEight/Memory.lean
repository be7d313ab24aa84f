import ChipEight.Fault

/-!
# Memory

4096 bytes whose addresses wrap around. `Memory.writeAll` puts a run of bytes down, the last byte
of memory being followed by the first, and `Memory.read_writeAll` says what is read afterwards;
`Memory.store` refuses a run that would pass the end.
`Memory.image` is the memory a program starts with: the font at address 0, the program at `0x200`
and zeros elsewhere.
-/

namespace ChipEight

/-- The bytes of a machine, one at each address. -/
@[ext] structure Memory where
  cells : Vector Byte 4096
deriving DecidableEq

namespace Memory

def blank : Memory := ⟨Vector.replicate 4096 0⟩

def read (m : Memory) (a : Address) : Byte := m.cells[a]

def write (m : Memory) (a : Address) (b : Byte) : Memory := ⟨m.cells.set a b⟩

/-- The word whose high byte is at `a` and whose low byte follows it. -/
def readWord (m : Memory) (a : Address) : Word :=
  UInt16.ofNat (256 * (m.read a).toNat + (m.read (a + 1)).toNat)

/-- Puts bytes down one after the other from `a` on, wrapping at the end of memory. -/
def writeAll (m : Memory) (a : Address) : List Byte → Memory
  | [] => m
  | b :: bs => (m.write a b).writeAll (a + 1) bs

/-- Puts bytes down where they fit before the end of memory. -/
def store (m : Memory) (address : Int) (bytes : List Byte) : Except Fault Memory :=
  if address + bytes.length > 4096 then .error (.romTooLarge bytes.length (4096 - address))
  else .ok (m.writeAll (Fin.ofNat 4096 (address % 4096).toNat) bytes)

/-- At most `length` bytes from `start` on, cut at the end of memory. -/
def slice (m : Memory) (start length : Nat) : List Byte :=
  (m.cells.toList.drop start).take length

/-- Where programs are loaded and begin. -/
def programStart : Address := 0x200

/-- How many bytes of program fit between `programStart` and the end of memory. -/
def programCapacity : Nat := 3584

/-- The rows of the sixteen digits, five bytes each. -/
def font : List Byte := [
  0xF0, 0x90, 0x90, 0x90, 0xF0,
  0x20, 0x60, 0x20, 0x20, 0x70,
  0xF0, 0x10, 0xF0, 0x80, 0xF0,
  0xF0, 0x10, 0xF0, 0x10, 0xF0,
  0x90, 0x90, 0xF0, 0x10, 0x10,
  0xF0, 0x80, 0xF0, 0x10, 0xF0,
  0xF0, 0x80, 0xF0, 0x90, 0xF0,
  0xF0, 0x10, 0x20, 0x40, 0x40,
  0xF0, 0x90, 0xF0, 0x90, 0xF0,
  0xF0, 0x90, 0xF0, 0x10, 0xF0,
  0xF0, 0x90, 0xF0, 0x90, 0x90,
  0xE0, 0x90, 0xE0, 0x90, 0xE0,
  0xF0, 0x80, 0x80, 0x80, 0xF0,
  0xE0, 0x90, 0x90, 0x90, 0xE0,
  0xF0, 0x80, 0xF0, 0x80, 0xF0,
  0xF0, 0x80, 0xF0, 0x80, 0x80]

/-- How many bytes one digit of the font takes. -/
def glyphSize : Nat := 5

/-- Loads a program over what memory holds. -/
def load (m : Memory) (rom : List Byte) : Except Fault Memory := m.store programStart.val rom

/-- The memory that a program starts with. -/
def image (rom : List Byte) : Except Fault Memory := (blank.writeAll 0 font).load rom

@[simp] theorem read_blank (a : Address) : blank.read a = 0 := by simp [blank, read]

theorem read_write (m : Memory) (a b : Address) (v : Byte) :
    (m.write a v).read b = if a = b then v else m.read b := by
  simp [read, write, Vector.getElem_set, Fin.ext_iff]

@[simp] theorem read_write_self (m : Memory) (a : Address) (v : Byte) :
    (m.write a v).read a = v := by simp [read_write]

@[simp] theorem writeAll_nil (m : Memory) (a : Address) : m.writeAll a [] = m := rfl

@[simp] theorem writeAll_cons (m : Memory) (a : Address) (b : Byte) (bs : List Byte) :
    m.writeAll a (b :: bs) = (m.write a b).writeAll (a + 1) bs := rfl

/-- One place further on, the distance to another place is one less. -/
theorem distance_succ {a b : Address} (h : a ≠ b) : (b - a).val = (b - (a + 1)).val + 1 := by
  have := Fin.val_ne_of_ne h
  simp only [Fin.sub_def, Fin.add_def]
  omega

/-- A run of bytes no longer than memory is read back at its distance from the first place. -/
theorem read_writeAll {bs : List Byte} {m : Memory} {a b : Address} (h : bs.length ≤ 4096) :
    (m.writeAll a bs).read b = bs.getD (b - a).val (m.read b) := by
  induction bs generalizing m a with
  | nil => simp
  | cons v vs ih =>
    rw [List.length_cons] at h
    rw [writeAll_cons, ih (by omega), read_write]
    by_cases hab : a = b
    · subst hab
      have : (a - (a + 1)).val = 4095 := by simp only [Fin.sub_def, Fin.add_def]; omega
      rw [this, if_pos rfl, List.getD_eq_getElem?_getD, List.getElem?_eq_none (by omega)]
      simp
    · rw [if_neg hab, distance_succ hab, List.getD_cons_succ]

/-- Memories that read alike everywhere are the same. -/
theorem ext_read {m k : Memory} (h : ∀ a, m.read a = k.read a) : m = k :=
  Memory.ext (Vector.ext fun i hi => h ⟨i, hi⟩)

end Memory

end ChipEight
