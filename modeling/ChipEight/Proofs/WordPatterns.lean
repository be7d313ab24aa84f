import Mathlib.Data.List.Forall2
import Mathlib.Data.List.Pairwise
import ChipEight.Proofs.Effects
import ChipEight.Proofs.Encoding

/-!
# The words of the instruction set

`wordPatterns` lists the words that are instructions, as texts such as `8XY4`: a digit stands for
itself, and each of the letters `X`, `Y` and `N` for any digit. `Fits word pattern` compares the
digits of a word with a pattern, and `InTable word` says that some pattern fits.

* `Opcode.isSome_instruction?_iff`: the instruction table knows an opcode exactly when a pattern
  fits its word.
* `Opcode.fits_pattern`: the word of an instruction fits the pattern of that instruction.
* `Opcode.instruction?_eq_ret_iff` and its neighbours: the words of single instructions.
* `Opcode.showsWord_hex`: the text of an opcode writes its word.
-/

namespace ChipEight

/-! ## Patterns -/

/-- The words that are instructions, each given by four digits. The letters `N`, `X` and `Y` stand
for any digit. -/
def wordPatterns : List String := [
  "00E0", "00EE", "1NNN", "2NNN", "3XNN", "4XNN", "5XY0", "6XNN", "7XNN",
  "8XY0", "8XY1", "8XY2", "8XY3", "8XY4", "8XY5", "8XY6", "8XY7", "8XYE",
  "9XY0", "ANNN", "BNNN", "CXNN", "DXYN", "EX9E", "EXA1",
  "FX07", "FX0A", "FX15", "FX18", "FX1E", "FX29", "FX33", "FX55", "FX65"]

/-- The digit that a pattern asks for in each place, or none where every digit will do. -/
def patternPlaces (pattern : String) : List (Option Nat) :=
  pattern.toList.map fun c => (Hex.value? c).map Fin.val

/-- The four hexadecimal digits of a word, the highest first. -/
def wordDigits (word : Nat) : List Nat :=
  [word / 4096 % 16, word / 256 % 16, word / 16 % 16, word % 16]

/-- The digits of the word are those that the places ask for. -/
def FitsPlaces (word : Nat) (places : List (Option Nat)) : Prop :=
  List.Forall₂ (fun digit place => ∀ d ∈ place, digit = d) (wordDigits word) places

/-- The word is one of those that a pattern stands for. -/
def Fits (word : Nat) (pattern : String) : Prop := FitsPlaces word (patternPlaces pattern)

/-- The word is an instruction. -/
def InTable (word : Nat) : Prop := ∃ pattern ∈ wordPatterns, Fits word pattern

instance (word : Nat) (places : List (Option Nat)) : Decidable (FitsPlaces word places) :=
  inferInstanceAs (Decidable (List.Forall₂ _ _ _))

instance (word : Nat) (pattern : String) : Decidable (Fits word pattern) :=
  inferInstanceAs (Decidable (FitsPlaces _ _))

instance (word : Nat) : Decidable (InTable word) :=
  inferInstanceAs (Decidable (∃ pattern ∈ wordPatterns, Fits word pattern))

theorem patternPlaces_wordPatterns : wordPatterns.map patternPlaces = [
    [some 0, some 0, some 14, some 0], [some 0, some 0, some 14, some 14],
    [some 1, none, none, none], [some 2, none, none, none], [some 3, none, none, none],
    [some 4, none, none, none], [some 5, none, none, some 0], [some 6, none, none, none],
    [some 7, none, none, none], [some 8, none, none, some 0], [some 8, none, none, some 1],
    [some 8, none, none, some 2], [some 8, none, none, some 3], [some 8, none, none, some 4],
    [some 8, none, none, some 5], [some 8, none, none, some 6], [some 8, none, none, some 7],
    [some 8, none, none, some 14], [some 9, none, none, some 0], [some 10, none, none, none],
    [some 11, none, none, none], [some 12, none, none, none], [some 13, none, none, none],
    [some 14, none, some 9, some 14], [some 14, none, some 10, some 1],
    [some 15, none, some 0, some 7], [some 15, none, some 0, some 10],
    [some 15, none, some 1, some 5], [some 15, none, some 1, some 8],
    [some 15, none, some 1, some 14], [some 15, none, some 2, some 9],
    [some 15, none, some 3, some 3], [some 15, none, some 5, some 5],
    [some 15, none, some 6, some 5]] := by
  decide

theorem inTable_iff (word : Nat) :
    InTable word ↔ ∃ places ∈ wordPatterns.map patternPlaces, FitsPlaces word places := by
  simp only [InTable, Fits, List.mem_map, exists_exists_and_eq_and]

theorem fits_return_iff {word : Nat} (hword : word < 65536) :
    Fits word "00EE" ↔ word = 0x00EE := by
  have hplaces : patternPlaces "00EE" = [some 0, some 0, some 14, some 14] := by decide
  simp only [Fits, FitsPlaces, hplaces, wordDigits, List.forall₂_cons, Option.mem_some, forall_eq',
    List.Forall₂.nil, and_true]
  omega

theorem fits_call_iff {word : Nat} (hword : word < 65536) :
    Fits word "2NNN" ↔ word / 4096 = 2 := by
  have hplaces : patternPlaces "2NNN" = [some 2, none, none, none] := by decide
  simp only [Fits, FitsPlaces, hplaces, wordDigits, List.forall₂_cons, Option.mem_some, forall_eq',
    Option.not_mem_none, false_imp_iff, implies_true, List.Forall₂.nil, and_true]
  omega

theorem fits_lastByte_iff {word family y n : Nat} {pattern : String}
    (hplaces : patternPlaces pattern = [some family, none, some y, some n])
    (hword : word < 65536) :
    Fits word pattern ↔ word / 4096 = family ∧ word / 16 % 16 = y ∧ word % 16 = n := by
  simp only [Fits, FitsPlaces, hplaces, wordDigits, List.forall₂_cons, Option.mem_some, forall_eq',
    Option.not_mem_none, false_imp_iff, implies_true, List.Forall₂.nil, and_true, true_and]
  omega

/-- Two patterns ask for different digits in the same place. -/
def Clash (places places' : List (Option Nat)) : Prop :=
  ∃ pair ∈ places.zip places', ∃ d ∈ pair.1, ∃ d' ∈ pair.2, d ≠ d'

instance (places places' : List (Option Nat)) : Decidable (Clash places places') :=
  inferInstanceAs (Decidable (∃ pair ∈ places.zip places', ∃ d ∈ pair.1, ∃ d' ∈ pair.2, d ≠ d'))

theorem not_clash_of_fits {word : Nat} {places places' : List (Option Nat)}
    (hfits : FitsPlaces word places) (hfits' : FitsPlaces word places') :
    ¬ Clash places places' := by
  unfold FitsPlaces at hfits hfits'
  generalize wordDigits word = digits at hfits hfits'
  induction hfits generalizing places' with
  | nil => simp [Clash]
  | @cons digit place digits places hdigit hrest ih =>
    cases hfits' with
    | @cons _ place' _ places' hdigit' hrest' =>
      rintro ⟨pair, hpair, d, hd, d', hd', hne⟩
      rw [List.zip_cons_cons, List.mem_cons] at hpair
      rcases hpair with rfl | hpair
      · exact hne ((hdigit d hd).symm.trans (hdigit' d' hd'))
      · exact ih hrest' ⟨pair, hpair, d, hd, d', hd', hne⟩

theorem wordPatterns_clash : (wordPatterns.map patternPlaces).Pairwise Clash := by
  rw [patternPlaces_wordPatterns]
  decide +kernel

/-- No word fits two of the patterns. -/
theorem fits_unique {word : Nat} {pattern pattern' : String} (hmem : pattern ∈ wordPatterns)
    (hmem' : pattern' ∈ wordPatterns) (hfits : Fits word pattern) (hfits' : Fits word pattern') :
    pattern = pattern' := by
  have halone : wordPatterns.Pairwise fun p q => ¬ (Fits word p ∧ Fits word q) := by
    refine (List.pairwise_map.mp wordPatterns_clash).imp ?_
    intro p q hclash hboth
    exact not_clash_of_fits hboth.1 hboth.2 hclash
  have hsymm : Std.Symm fun p q => ¬ (Fits word p ∧ Fits word q) :=
    ⟨fun p q hnot hboth => hnot hboth.symm⟩
  by_contra hne
  exact halone.forall hmem hmem' hne ⟨hfits, hfits'⟩

/-! ## The instruction table -/

namespace Opcode

theorem wordDigits_word (op : Opcode) :
    wordDigits op.word.toNat = [op.family.val, op.x.val, op.y.val, op.n.val] := by
  have := op.word.toNat_lt
  simp only [wordDigits, val_family, val_x, val_y, val_n]
  rw [Nat.mod_eq_of_lt (by omega)]

theorem word_eq_iff (op : Opcode) (k : Nat) : op.word.toNat = k ↔
    op.family.val = k / 4096 ∧ op.x.val = k / 256 % 16 ∧ op.y.val = k / 16 % 16 ∧
      op.n.val = k % 16 := by
  simp only [val_family, val_x, val_y, val_n]
  omega

theorem nn_eq_iff (op : Opcode) (k : Nat) :
    op.nn.toNat = k ↔ op.y.val = k / 16 ∧ op.n.val = k % 16 := by
  simp only [toNat_nn, val_y, val_n]
  omega

theorem isSome_plain?_iff (op : Opcode) :
    op.plain?.isSome ↔ op.word.toNat = 0x00E0 ∨ op.word.toNat = 0x00EE := by
  unfold plain?
  split <;> simp_all

theorem isSome_key?_iff (op : Opcode) :
    op.key?.isSome ↔ op.nn.toNat = 0x9E ∨ op.nn.toNat = 0xA1 := by
  unfold key?
  split <;> simp_all

theorem isSome_device?_iff (op : Opcode) :
    op.device?.isSome ↔ op.nn.toNat ∈ [0x07, 0x0A, 0x15, 0x18, 0x1E, 0x29, 0x33, 0x55, 0x65] := by
  unfold device?
  split <;> simp_all

theorem isSome_ofNibble?_iff (n : Nibble) :
    (AluOp.ofNibble? n).isSome ↔ n.val ∈ [0, 1, 2, 3, 4, 5, 6, 7, 14] := by
  revert n
  decide

/-- The table knows the words that fit a pattern and no others. -/
theorem isSome_instruction?_iff (op : Opcode) :
    op.instruction?.isSome ↔ InTable op.word.toNat := by
  rw [inTable_iff, patternPlaces_wordPatterns]
  simp only [FitsPlaces, wordDigits_word, List.exists_mem_cons_iff, List.forall₂_cons,
    List.forall₂_nil_left_iff, Option.mem_some, Option.not_mem_none, forall_eq', false_imp_iff,
    implies_true, true_and, and_true, List.not_mem_nil, false_and, exists_false, or_false]
  unfold instruction?
  -- One case for each value of the highest digit; the last is what the first fifteen leave over.
  split
  case h_16 =>
    have hfamily : op.family.val = 15 := by
      simp only [imp_false] at *
      have := op.family.isLt
      omega
    simp [hfamily, isSome_device?_iff, nn_eq_iff, -val_family, -val_y, -val_n, -toNat_nn]
  all_goals
    rename_i hfamily
    simp [hfamily, isSome_plain?_iff, isSome_key?_iff, isSome_ofNibble?_iff, word_eq_iff,
      nn_eq_iff, -val_family, -val_x, -val_y, -val_n, -toNat_nn]

example : InTable 0x8AB7 ∧ ¬ InTable 0x8AB8 := by decide

/-! ## Single instructions -/

theorem instruction?_eq_ret_iff (op : Opcode) :
    op.instruction? = some .ret ↔ op.word.toNat = 0x00EE := instruction?_eq_some_iff

theorem instruction?_eq_clear_iff (op : Opcode) :
    op.instruction? = some .clear ↔ op.word.toNat = 0x00E0 := instruction?_eq_some_iff

theorem instruction?_eq_call_iff (op : Opcode) :
    (∃ target, op.instruction? = some (.call target)) ↔ op.word.toNat / 4096 = 2 := by
  simp only [instruction?_eq_some_iff, word_eq_word_iff, ← val_family]
  constructor
  · rintro ⟨target, hfamily, -⟩
    exact hfamily
  · intro hfamily
    exact ⟨op.nnn, hfamily, rfl⟩

theorem instruction?_eq_draw_iff (op : Opcode) :
    (∃ x y rows, op.instruction? = some (.draw x y rows)) ↔ op.family.val = 0xD := by
  simp only [instruction?_eq_some_iff, word_eq_word_iff]
  constructor
  · rintro ⟨x, y, rows, hfamily, -⟩
    exact hfamily
  · intro hfamily
    refine ⟨op.x, op.y, op.n, hfamily, ?_⟩
    simp only [Instruction.operands, val_x, val_y, val_n]
    omega

theorem instruction?_eq_iff_of_lastByte {op : Opcode} {i : Instruction} {pattern : String}
    {x y n : Nibble} {f : Nat}
    (hplaces : patternPlaces pattern = [some f, none, some y.val, some n.val])
    (hfamily : i.family = f)
    (hoperands : i.operands = 0x100 * x.val + 0x10 * y.val + n.val) :
    op.instruction? = some i ↔ Fits op.word.toNat pattern ∧ op.x = x := by
  have hword := op.word.toNat_lt
  rw [instruction?_eq_some_iff, fits_lastByte_iff hplaces hword, Fin.ext_iff, val_x,
    Instruction.word, hfamily, hoperands]
  omega

theorem instruction?_eq_storeDecimal_iff (op : Opcode) (x : Nibble) :
    op.instruction? = some (.storeDecimal x) ↔ Fits op.word.toNat "FX33" ∧ op.x = x :=
  instruction?_eq_iff_of_lastByte (f := 15) (y := 3) (n := 3) (by decide) rfl rfl

theorem instruction?_eq_storeRegisters_iff (op : Opcode) (x : Nibble) :
    op.instruction? = some (.storeRegisters x) ↔ Fits op.word.toNat "FX55" ∧ op.x = x :=
  instruction?_eq_iff_of_lastByte (f := 15) (y := 5) (n := 5) (by decide) rfl rfl

/-! ## The pattern of an instruction -/

end Opcode

def AluOp.pattern : AluOp → String
  | set => "8XY0"
  | or => "8XY1"
  | and => "8XY2"
  | xor => "8XY3"
  | add => "8XY4"
  | subtract => "8XY5"
  | shiftRight => "8XY6"
  | subtractFrom => "8XY7"
  | shiftLeft => "8XYE"

def Instruction.pattern : Instruction → String
  | clear => "00E0"
  | ret => "00EE"
  | jump _ => "1NNN"
  | call _ => "2NNN"
  | skipIfEqual _ _ => "3XNN"
  | skipIfUnequal _ _ => "4XNN"
  | skipIfSame _ _ => "5XY0"
  | load _ _ => "6XNN"
  | increase _ _ => "7XNN"
  | alu op _ _ => op.pattern
  | skipIfDifferent _ _ => "9XY0"
  | setIndex _ => "ANNN"
  | jumpOffset _ => "BNNN"
  | random _ _ => "CXNN"
  | draw _ _ _ => "DXYN"
  | skipIfHeld _ => "EX9E"
  | skipIfReleased _ => "EXA1"
  | readDelay _ => "FX07"
  | awaitKey _ => "FX0A"
  | setDelay _ => "FX15"
  | setSound _ => "FX18"
  | increaseIndex _ => "FX1E"
  | pointGlyph _ => "FX29"
  | storeDecimal _ => "FX33"
  | storeRegisters _ => "FX55"
  | loadRegisters _ => "FX65"

namespace Opcode

theorem patternPlaces_aluOp (f : AluOp) :
    patternPlaces f.pattern = [some 8, none, none, some f.code.val] := by
  cases f <;> decide

/-- The word of an instruction fits the pattern of that instruction. -/
theorem fits_pattern {op : Opcode} {i : Instruction} (hop : op.instruction? = some i) :
    Fits op.word.toNat i.pattern := by
  obtain ⟨hfamily, hlow⟩ := (op.word_eq_word_iff i).mp (instruction?_eq_some_iff.mp hop)
  have hplaces := patternPlaces_wordPatterns
  simp only [wordPatterns, List.map_cons, List.map_nil, List.cons.injEq, and_true] at hplaces
  cases i
  all_goals
    simp only [Instruction.family, Instruction.operands] at hfamily hlow
    simp only [Instruction.pattern, Fits, FitsPlaces, hplaces, patternPlaces_aluOp,
      wordDigits_word, List.forall₂_cons, Option.mem_some, forall_eq', Option.not_mem_none,
      false_imp_iff, implies_true, List.Forall₂.nil, and_true, true_and, val_x, val_y, val_n]
    omega

theorem fits_word (i : Instruction) : Fits i.word i.pattern := by
  have hword : (Opcode.mk (UInt16.ofNat i.word)).word.toNat = i.word :=
    UInt16.toNat_ofNat_of_lt i.word_lt
  have hfits := fits_pattern (instruction?_eq_some_iff.mpr hword)
  rw [hword] at hfits
  exact hfits

theorem pattern_mem (i : Instruction) : i.pattern ∈ wordPatterns := by
  cases i
  case alu f x y => cases f <;> simp [Instruction.pattern, AluOp.pattern, wordPatterns]
  all_goals simp [Instruction.pattern, wordPatterns]

theorem fits_iff_pattern {op : Opcode} {i : Instruction} (hop : op.instruction? = some i)
    {pattern : String} (hmem : pattern ∈ wordPatterns) :
    Fits op.word.toNat pattern ↔ pattern = i.pattern := by
  constructor
  · intro hfits
    exact fits_unique hmem (pattern_mem i) hfits (fits_pattern hop)
  · rintro rfl
    exact fits_pattern hop

/-! ## Texts of words -/

/-- Four upper-case hexadecimal digits that write the word. -/
def ShowsWord (text : String) (word : Nat) : Prop :=
  text.toList.length = 4 ∧ (∀ c ∈ text.toList, c ∈ "0123456789ABCDEF".toList) ∧
    Hex.number? text.toList = some word

theorem digit_mem (d : Nibble) : Hex.digit d ∈ "0123456789ABCDEF".toList := by
  revert d
  decide

theorem showsWord_hex (op : Opcode) : ShowsWord op.hex op.word.toNat := by
  have hlist : op.hex.toList =
      [Hex.digit op.family, Hex.digit op.x, Hex.digit op.y, Hex.digit op.n] := by
    simp only [hex, String.toList_ofList]
  refine ⟨by rw [hlist]; rfl, ?_, ?_⟩
  · rw [hlist]
    simp only [List.forall_mem_cons, digit_mem, List.not_mem_nil, false_imp_iff, implies_true,
      and_self]
  · rw [hlist]
    simp [Hex.number?]
    omega

theorem toNat_word_ofInt (n : Int) : (ofInt n).word.toNat = (n % 65536).toNat := by
  simp only [ofInt, UInt16.ofInt, UInt16.toNat_ofNat']
  omega

theorem ofInt_word (op : Opcode) : ofInt op.word.toNat = op := by
  have hword : (ofInt op.word.toNat).word = op.word := by
    apply UInt16.toNat_inj.mp
    have hlt := op.word.toNat_lt
    rw [toNat_word_ofInt]
    omega
  exact congrArg Opcode.mk hword

end Opcode

end ChipEight
