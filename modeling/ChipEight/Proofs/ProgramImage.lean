import Mathlib.Data.List.GetD
import ChipEight.Proofs.Reset
import ChipEight.Proofs.WordPatterns

/-!
# Programs in memory

A program is a list of words, `assemble` writes it as bytes, the high one of each word first, and
`State.create` puts the bytes into memory. Fetching at the place of a word brings that word back.

* `Memory.image_isImage`: the memory that a program starts with, place by place.
* `getElem?_assemble`: where the two bytes of a word are among the bytes of the program.
* `Opcode.decodes_word`: a word taken apart into the fields of an instruction.
* `State.create_assemble_fetch`: from the program to the instruction, up to the last word that fits.
-/

namespace ChipEight

/-! ## Programs -/

/-- The two bytes of a word, the high one first. -/
def highByte (word : Word) : Byte := UInt8.ofNat (word.toNat / 256)

/-- The second of the two bytes of a word in memory. -/
def lowByte (word : Word) : Byte := UInt8.ofNat word.toNat

/-- The words of a program one after the other. -/
def assemble (words : List Word) : List Byte :=
  words.flatMap fun word => [highByte word, lowByte word]

theorem assemble_cons (word : Word) (words : List Word) :
    assemble (word :: words) = highByte word :: lowByte word :: assemble words := rfl

theorem length_assemble (words : List Word) : (assemble words).length = 2 * words.length := by
  induction words with
  | nil => rfl
  | cons word words ih =>
    rw [assemble_cons, List.length_cons, List.length_cons, List.length_cons, ih]
    omega

theorem getElem?_assemble {words : List Word} {k : Nat} {word : Word}
    (hword : words[k]? = some word) :
    (assemble words)[2 * k]? = some (highByte word) ∧
      (assemble words)[2 * k + 1]? = some (lowByte word) := by
  induction words generalizing k with
  | nil => cases hword
  | cons first words ih =>
    rw [assemble_cons]
    cases k with
    | zero =>
      cases hword
      exact ⟨rfl, rfl⟩
    | succ k => exact ih hword

theorem join_bytes (word : Word) :
    256 * (highByte word).toNat + (lowByte word).toNat = word.toNat := by
  have hword := word.toNat_lt
  simp only [highByte, lowByte, UInt8.toNat_ofNat']
  omega

/-! ## The memory of a program -/

namespace Memory

variable {rom : List Byte} {m : Memory}

/-- The font at address 0, the program at `0x200` and zeros elsewhere. -/
structure IsImage (rom : List Byte) (m : Memory) : Prop where
  font_at : ∀ a : Address, a.val < 80 → font[a.val]? = some (m.read a)
  rom_at : ∀ a : Address, 512 ≤ a.val → a.val < 512 + rom.length →
    rom[a.val - 512]? = some (m.read a)
  zero_at : ∀ a : Address, 80 ≤ a.val → (a.val < 512 ∨ 512 + rom.length ≤ a.val) → m.read a = 0

/-- From the start of the program to a place before it, the way goes around the end of memory. -/
theorem distance_programStart (a : Address) :
    (a - programStart).val = if 512 ≤ a.val then a.val - 512 else a.val + 3584 := by
  have hstart : programStart.val = 512 := rfl
  have ha := a.isLt
  simp only [Fin.sub_def, hstart]
  split <;> omega

theorem image_isImage (himage : image rom = .ok m) : IsImage rom m := by
  obtain ⟨hfits, rfl⟩ := image_eq_ok_iff.mp himage
  have hcapacity : programCapacity = 3584 := rfl
  have hfont : font.length = 80 := rfl
  have hread (a : Address) : ((blank.writeAll 0 font).writeAll programStart rom).read a =
      rom.getD (a - programStart).val (font.getD a.val 0) := by
    have hzero : (a - 0).val = a.val := by
      have ha := a.isLt
      simp only [Fin.sub_def, Fin.val_zero]
      omega
    rw [read_writeAll (by omega), read_writeAll (by omega), read_blank, hzero]
  have houtside (a : Address) (ha : a.val < 512 ∨ 512 + rom.length ≤ a.val) :
      ((blank.writeAll 0 font).writeAll programStart rom).read a = font.getD a.val 0 := by
    rw [hread, distance_programStart, List.getD_eq_default]
    split <;> omega
  constructor
  case font_at =>
    intro a ha
    have hlt : a.val < font.length := by omega
    rw [houtside a (by omega), List.getD_eq_getElem _ _ hlt, List.getElem?_eq_getElem hlt]
  case rom_at =>
    intro a hstart hend
    have hlt : a.val - 512 < rom.length := by omega
    rw [hread, distance_programStart, if_pos hstart, List.getD_eq_getElem _ _ hlt,
      List.getElem?_eq_getElem hlt]
  case zero_at =>
    intro a ha hplace
    rw [houtside a hplace, List.getD_eq_default _ _ (by omega)]

/-- The bytes of a word of the program, read from its place on. -/
theorem IsImage.read_word {words : List Word} (hm : IsImage (assemble words) m) {k : Nat}
    {word : Word} (hword : words[k]? = some word) {a : Address} (ha : a.val = 0x200 + 2 * k) :
    m.read a = highByte word ∧ m.read (a + 1) = lowByte word := by
  obtain ⟨hhigh, hlow⟩ := getElem?_assemble hword
  obtain ⟨hk, -⟩ := List.getElem?_eq_some_iff.mp hword
  have hlength := length_assemble words
  have hnext : (a + 1).val = 0x200 + (2 * k + 1) := by
    have hone : (1 : Address).val = 1 := rfl
    simp only [Fin.add_def, hone]
    omega
  have hfirst := hm.rom_at a (by omega) (by omega)
  have hsecond := hm.rom_at (a + 1) (by omega) (by omega)
  rw [ha, Nat.add_sub_cancel_left, hhigh] at hfirst
  rw [hnext, Nat.add_sub_cancel_left, hlow] at hsecond
  exact ⟨(Option.some.inj hfirst).symm, (Option.some.inj hsecond).symm⟩

end Memory

/-! ## The fields of a word -/

namespace Opcode

/-- The opcode is that of the word, and its fields and its text tell the word. -/
structure Decodes (op : Opcode) (word : Word) : Prop where
  raw : op.word = word
  family_nnn : word.toNat = 4096 * op.family.val + op.nnn.val
  x_nn : op.nnn.val = 256 * op.x.val + op.nn.toNat
  y_n : op.nn.toNat = 16 * op.y.val + op.n.val
  hex : ShowsWord op.hex word.toNat

theorem decodes_word (op : Opcode) : op.Decodes op.word := by
  have hword := op.word.toNat_lt
  constructor
  case raw => rfl
  case family_nnn =>
    rw [val_family, val_nnn]
    omega
  case x_nn =>
    rw [val_nnn, val_x, toNat_nn]
    omega
  case y_n =>
    rw [toNat_nn, val_y, val_n]
    omega
  case hex => exact op.showsWord_hex

end Opcode

/-! ## From a program to its instructions -/

namespace State

variable {w h : Nat} {s : State w h} {random : RandomKey} {rom : List Byte} {dialect : Dialect}
  {limit : Nat}

theorem exists_create_iff : (∃ s : State w h, create w h random rom dialect limit = .ok s) ↔
    rom.length ≤ Memory.programCapacity := by
  simp only [create_eq_ok_iff, Memory.image_eq_ok_iff]
  constructor
  · rintro ⟨s, memory, ⟨hfits, -⟩, -⟩
    exact hfits
  · intro hfits
    exact ⟨_, _, ⟨hfits, rfl⟩, rfl⟩

theorem create_isImage (hcreate : create w h random rom dialect limit = .ok s) :
    s.memory.IsImage rom := by
  obtain ⟨memory, himage, rfl⟩ := create_eq_ok_iff.mp hcreate
  exact Memory.image_isImage himage

/-- A fetch brings the word back, and decoding it comes to the same as decoding the two bytes at
the program counter. -/
structure Fetches (s : State w h) (word : Word) : Prop where
  word_eq : s.fetch.2.word = word
  decodes : (Opcode.ofInt s.fetch.2.word.toNat).Decodes word
  ofBytes_eq : Opcode.ofInt s.fetch.2.word.toNat =
    .ofBytes (s.memory.read (Address.ofWord s.pc)) (s.memory.read (Address.ofWord s.pc + 1))

theorem fetches_of_bytes {word : Word} (hhigh : s.memory.read (Address.ofWord s.pc) = highByte word)
    (hlow : s.memory.read (Address.ofWord s.pc + 1) = lowByte word) : s.Fetches word := by
  have hjoin : UInt16.ofNat (256 * (highByte word).toNat + (lowByte word).toNat) = word := by
    rw [join_bytes, UInt16.ofNat_toNat]
  have hword : s.fetch.2.word = word := by
    change s.memory.readWord (Address.ofWord s.pc) = word
    rw [Memory.readWord, hhigh, hlow, hjoin]
  have hdecode : Opcode.ofInt s.fetch.2.word.toNat = ⟨word⟩ := by
    rw [hword]
    exact Opcode.ofInt_word ⟨word⟩
  refine ⟨hword, ?_, ?_⟩
  · rw [hdecode]
    exact Opcode.decodes_word ⟨word⟩
  · rw [hdecode, hhigh, hlow, Opcode.ofBytes, hjoin]

/-- A program is taken exactly when it fits, and then memory holds the font, the program and zeros.
So where the program is a list of words, a fetch at the place of a word, from any state with this
memory, brings that word back. -/
theorem create_assemble_fetch (w h : Nat) (random : RandomKey) (dialect : Dialect) (limit : Nat) :
    (∀ rom,
      ((∃ s : State w h, create w h random rom dialect limit = .ok s) ↔ rom.length ≤ 3584) ∧
      (∀ f, create w h random rom dialect limit = .error f ↔
        3584 < rom.length ∧ f = .romTooLarge rom.length 3584) ∧
      ∀ s : State w h, create w h random rom dialect limit = .ok s → s.memory.IsImage rom) ∧
    ∀ words : List Word, words.length ≤ 1792 →
      ∃ s : State w h, create w h random (assemble words) dialect limit = .ok s ∧
        ∀ (k : Nat) (hk : k < words.length) (t : State w h), t.memory = s.memory →
          t.pc.toNat = 0x200 + 2 * k → t.Fetches words[k] := by
  refine ⟨fun rom => ⟨exists_create_iff, fun f => create_eq_error_iff, fun s => create_isImage⟩, ?_⟩
  intro words hfits
  have hlength : (assemble words).length ≤ Memory.programCapacity := by
    rw [length_assemble]
    exact Nat.mul_le_mul_left 2 hfits
  obtain ⟨s, hcreate⟩ := exists_create_iff.mpr hlength
  refine ⟨s, hcreate, ?_⟩
  intro k hk t hmemory hpc
  have hplace : (Address.ofWord t.pc).val = 0x200 + 2 * k := by
    rw [Address.val_ofWord]
    omega
  obtain ⟨hhigh, hlow⟩ :=
    (create_isImage hcreate).read_word (List.getElem?_eq_getElem hk) hplace
  rw [← hmemory] at hhigh hlow
  exact fetches_of_bytes hhigh hlow

/-- A program that leaves no byte of memory free, and its last word; one more byte is too much. -/
theorem create_assemble_fetch_of_full : ∃ (words : List Word) (s : State 64 32),
    words = List.replicate 1791 0x1200 ++ [0x8AB4] ∧
      create 64 32 (.ofSeed 7) (assemble words) {} 16 = .ok s ∧
      { s with pc := 0xFFE }.Fetches 0x8AB4 ∧ (Opcode.ofInt 0x8AB4).hex = "8AB4" ∧
      s.memory.read 79 = 0x80 ∧ s.memory.read 80 = 0 ∧
      create 64 32 (.ofSeed 7) (assemble words ++ [0]) {} 16 = .error (.romTooLarge 3585 3584) := by
  obtain ⟨himage, hfetch⟩ := create_assemble_fetch 64 32 (.ofSeed 7) {} 16
  generalize hwords : List.replicate 1791 (0x1200 : Word) ++ [0x8AB4] = words
  have hcount : words.length = 1792 := by
    rw [← hwords, List.length_append, List.length_replicate]
    rfl
  have hlast : words[1791] = 0x8AB4 := by
    subst hwords
    exact List.getElem_concat_length List.length_replicate.symm _
  obtain ⟨s, hcreate, hs⟩ := hfetch words (Nat.le_of_eq hcount)
  have hlong : (assemble words ++ [0]).length = 3585 := by
    rw [List.length_append, length_assemble, hcount]
    rfl
  obtain ⟨-, -, hfilled⟩ := himage (assemble words)
  obtain ⟨-, hrefused, -⟩ := himage (assemble words ++ [0])
  refine ⟨words, s, rfl, hcreate, ?_, by decide, ?_, ?_, ?_⟩
  · rw [← hlast]
    exact hs 1791 (by omega) _ rfl rfl
  · exact (Option.some.inj ((hfilled s hcreate).font_at 79 (by decide))).symm
  · exact (hfilled s hcreate).zero_at 80 (by decide) (.inl (by decide))
  · rw [hrefused, hlong]
    exact ⟨by decide, rfl⟩

end State

end ChipEight
