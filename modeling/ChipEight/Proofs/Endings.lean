import ChipEight.Proofs.WordPatterns

/-!
# How the execution of an opcode ends

Of all that a state holds, only the depth and the limit of the call stack have a say in it: a word
that fits no pattern is unknown, `00EE` needs an address on the stack and `2NNN` room for one, and
all else is carried out.

* `State.execute_eq_error_iff_fits`: the faults of an execution, by the patterns that the word fits.
* `State.ending_execute`: the ending as a function of the word, the depth and the limit.
* `State.execute_ends_by_pattern`: when each ending comes, for every integer taken as a word.
-/

namespace ChipEight

/-- How an instruction ends. -/
inductive Ending where
  | done
  | unknownOpcode
  | stackUnderflow
  | stackOverflow
  | other
deriving DecidableEq, Repr

/-- The ending that a result of executing an instruction is. -/
def Ending.of {α : Type} : Except Fault α → Ending
  | .ok _ => done
  | .error (.unknownOpcode _ _) => unknownOpcode
  | .error (.stackUnderflow _) => stackUnderflow
  | .error (.stackOverflow _ _) => stackOverflow
  | .error _ => other

/-- The ending of a word that is executed on a stack of this depth and limit. -/
def Ending.ofWord (word depth limit : Nat) : Ending :=
  if ¬ InTable word then unknownOpcode
  else if Fits word "00EE" ∧ depth = 0 then stackUnderflow
  else if Fits word "2NNN" ∧ depth = limit then stackOverflow
  else done

namespace State

variable {w h : Nat}

/-- The three ways in which a word fails, told by the digits of the word and the depth of the
stack. -/
theorem execute_eq_error_iff_fits {s : State w h} {op : Opcode} {f : Fault} :
    s.execute op = .error f ↔
      (¬ InTable op.word.toNat ∧ f = .unknownOpcode op.hex s.origin.toNat) ∨
      ((Fits op.word.toNat "00EE" ∧ s.stack.depth = 0) ∧ f = .stackUnderflow s.origin.toNat) ∨
      ((Fits op.word.toNat "2NNN" ∧ s.stack.depth = s.stack.limit) ∧
        f = .stackOverflow s.origin.toNat s.stack.limit) := by
  have hword := op.word.toNat_lt
  have hdepth := s.stack.depth_le
  rw [execute_eq_error_iff, ← Opcode.isSome_instruction?_iff, Option.not_isSome_iff_eq_none,
    fits_return_iff hword, fits_call_iff hword, ← Opcode.instruction?_eq_ret_iff,
    ← Opcode.instruction?_eq_call_iff]
  refine or_congr Iff.rfl ?_
  constructor
  · rintro ⟨i, hi, hperform⟩
    rcases perform_eq_error_iff.mp hperform with ⟨rfl, hempty, rfl⟩ | ⟨⟨target, rfl⟩, hfull, rfl⟩
    · exact Or.inl ⟨⟨hi, hempty⟩, rfl⟩
    · exact Or.inr ⟨⟨⟨target, hi⟩, Nat.le_antisymm hdepth hfull⟩, rfl⟩
  · rintro (⟨⟨hi, hempty⟩, rfl⟩ | ⟨⟨⟨target, hi⟩, hfull⟩, rfl⟩)
    · exact ⟨_, hi, perform_eq_error_iff.mpr (Or.inl ⟨rfl, hempty, rfl⟩)⟩
    · exact ⟨_, hi, perform_eq_error_iff.mpr (Or.inr ⟨⟨target, rfl⟩, Nat.le_of_eq hfull.symm, rfl⟩)⟩

theorem execute_unknownOpcode_iff {s : State w h} {op : Opcode} :
    (∃ text address, s.execute op = .error (.unknownOpcode text address)) ↔
      ¬ InTable op.word.toNat := by
  simp [execute_eq_error_iff_fits]

theorem execute_stackUnderflow_iff {s : State w h} {op : Opcode} :
    (∃ address, s.execute op = .error (.stackUnderflow address)) ↔
      Fits op.word.toNat "00EE" ∧ s.stack.depth = 0 := by
  simp [execute_eq_error_iff_fits]

theorem execute_stackOverflow_iff {s : State w h} {op : Opcode} :
    (∃ address limit, s.execute op = .error (.stackOverflow address limit)) ↔
      Fits op.word.toNat "2NNN" ∧ s.stack.depth = s.stack.limit := by
  simp [execute_eq_error_iff_fits]

/-- When a word succeeds, told in the same way. -/
theorem exists_execute_eq_ok_iff {s : State w h} {op : Opcode} :
    (∃ t, s.execute op = .ok t) ↔ InTable op.word.toNat ∧
      ¬ (Fits op.word.toNat "00EE" ∧ s.stack.depth = 0) ∧
      ¬ (Fits op.word.toNat "2NNN" ∧ s.stack.depth = s.stack.limit) := by
  have hok : (∃ t, s.execute op = .ok t) ↔ ¬ ∃ f, s.execute op = .error f := by
    cases s.execute op <;> simp
  rw [hok]
  simp only [execute_eq_error_iff_fits, exists_or, exists_and_left, exists_eq, and_true, not_or,
    not_not]

/-- The ending of a word depends on nothing but the word, and the depth and limit of the stack. -/
theorem ending_execute (s : State w h) (op : Opcode) :
    Ending.of (s.execute op) = Ending.ofWord op.word.toNat s.stack.depth s.stack.limit := by
  unfold Ending.ofWord
  split
  case isTrue hunknown =>
    obtain ⟨text, address, hexecute⟩ := execute_unknownOpcode_iff.mpr hunknown
    rw [hexecute]
    rfl
  case isFalse hknown =>
    split
    case isTrue hempty =>
      obtain ⟨address, hexecute⟩ := execute_stackUnderflow_iff.mpr hempty
      rw [hexecute]
      rfl
    case isFalse hempty =>
      split
      case isTrue hfull =>
        obtain ⟨address, limit, hexecute⟩ := execute_stackOverflow_iff.mpr hfull
        rw [hexecute]
        rfl
      case isFalse hfull =>
        obtain ⟨t, hexecute⟩ := exists_execute_eq_ok_iff.mpr ⟨not_not.mp hknown, hempty, hfull⟩
        rw [hexecute]
        rfl

/-- How the execution of an opcode ends that has this word. -/
structure EndsByPattern (s : State w h) (op : Opcode) (word : Nat) : Prop where
  unknownOpcode_iff :
    (∃ text address, s.execute op = .error (.unknownOpcode text address)) ↔ ¬ InTable word
  text_shows : ∀ text address,
    s.execute op = .error (.unknownOpcode text address) → Opcode.ShowsWord text word
  stackUnderflow_iff : (∃ address, s.execute op = .error (.stackUnderflow address)) ↔
    Fits word "00EE" ∧ s.stack.depth = 0
  stackOverflow_iff : (∃ address limit, s.execute op = .error (.stackOverflow address limit)) ↔
    Fits word "2NNN" ∧ s.stack.depth = s.stack.limit
  ok_iff : (∃ t, s.execute op = .ok t) ↔ InTable word ∧
    ¬ (Fits word "00EE" ∧ s.stack.depth = 0) ∧ ¬ (Fits word "2NNN" ∧ s.stack.depth = s.stack.limit)
  ending_eq : ∀ {w' h' : Nat} (t : State w' h'), t.stack.depth = s.stack.depth →
    t.stack.limit = s.stack.limit → Ending.of (t.execute op) = Ending.of (s.execute op)

/-- In every state, every integer ends the way in which the pattern of its low sixteen bits says. -/
theorem execute_ends_by_pattern (s : State w h) (n : Int) :
    s.EndsByPattern (Opcode.ofInt n) (n % 65536).toNat := by
  rw [← Opcode.toNat_word_ofInt]
  refine ⟨execute_unknownOpcode_iff, ?_, execute_stackUnderflow_iff, execute_stackOverflow_iff,
    exists_execute_eq_ok_iff, ?_⟩
  · intro text address hexecute
    have hfault := execute_eq_error_iff_fits.mp hexecute
    simp only [Fault.unknownOpcode.injEq, reduceCtorEq, and_false, or_false] at hfault
    obtain ⟨-, rfl, -⟩ := hfault
    exact Opcode.showsWord_hex _
  · intro w' h' t hdepth hlimit
    rw [ending_execute, ending_execute, hdepth, hlimit]

end State

end ChipEight
