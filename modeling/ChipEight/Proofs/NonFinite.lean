import ChipEight.Amount

/-!
# Floats that are not finite

Two floats are infinite and one is no number, and none of them has an integer near it. Arithmetic
does not lead back from them: a sum with one of them is one of them again, and the number of times
that a span goes into one of them is no number.

* `unpack_cases`: the parts that `ofFloat` finds are those of the arithmetic.
* `truncated_eq_error_iff`: which floats have no integer, and why.
* `isFinite_add_right`: sums keep what is not finite.
* `isNaN_floorQuotient`: so does the quotient rounded down.
-/

namespace ChipEight.Binary64

open Float.Model (Format UnpackedFloat)
open Float.Model.UnpackedFloat (unpackExponent unpackMantissa)

/-! ## Parts -/

theorem exponentField_eq_iff (x : Float) : x.toBits.toNat / Nat.pow 2 52 % 2048 = 2047 ↔
    @unpackExponent Format.binary64 x.toBits.toBitVec = -1#11 := by
  have hfield : (@unpackExponent Format.binary64 x.toBits.toBitVec).toNat =
      x.toBits.toNat / Nat.pow 2 52 % 2048 := by
    simp only [unpackExponent, BitVec.toNat_cast, BitVec.extractLsb_toNat,
      Nat.shiftRight_eq_div_pow]
    rfl
  rw [← hfield]
  exact BitVec.toNat_inj (y := -1#11)

theorem fractionField_eq_iff (x : Float) : x.toBits.toNat % Nat.pow 2 52 = 0 ↔
    @unpackMantissa Format.binary64 x.toBits.toBitVec = 0#52 := by
  have hfield : (@unpackMantissa Format.binary64 x.toBits.toBitVec).toNat =
      x.toBits.toNat % Nat.pow 2 52 := by
    simp only [unpackMantissa, BitVec.toNat_cast, BitVec.extractLsb_toNat, Nat.shiftRight_zero]
    rfl
  rw [← hfield]
  exact BitVec.toNat_inj (y := 0#52)

/-- A float is no number, or infinite, or finite, and the arithmetic and `ofFloat` agree on it. -/
theorem unpack_cases (x : Float) :
    (x.toModel.unpack = .notANumber ∧ ofFloat x = nan) ∨
      (∃ sign negative, x.toModel.unpack = .infinity sign ∧ ofFloat x = infinite negative) ∨
      (x.toModel.unpack.isFinite = true ∧
        ∃ negative significand exponent, ofFloat x = finite negative significand exponent) := by
  have hunpack : x.toModel.unpack = UnpackedFloat.unpack Format.binary64 x.toBits.toBitVec := rfl
  rw [hunpack]
  unfold UnpackedFloat.unpack ofFloat
  dsimp only
  by_cases hones : @unpackExponent Format.binary64 x.toBits.toBitVec = -1#11
  · have hbiased := (exponentField_eq_iff x).mpr hones
    rw [if_pos hones, if_pos hbiased]
    by_cases hzero : @unpackMantissa Format.binary64 x.toBits.toBitVec = 0#52
    · have hfraction := (fractionField_eq_iff x).mpr hzero
      rw [if_pos hzero, if_pos hfraction]
      exact Or.inr (Or.inl ⟨_, _, rfl, rfl⟩)
    · have hfraction := mt (fractionField_eq_iff x).mp hzero
      rw [if_neg hzero, if_neg hfraction]
      exact Or.inl ⟨rfl, rfl⟩
  · have hbiased := mt (exponentField_eq_iff x).mp hones
    rw [if_neg hones, if_neg hbiased]
    refine Or.inr (Or.inr ⟨?_, ?_⟩)
    -- Both sides ask whether the exponent is the lowest one, but only the arithmetic knows zeros.
    · by_cases hlowest : @unpackExponent Format.binary64 x.toBits.toBitVec = 0#11
      · rw [if_pos hlowest]
        by_cases hzero : @unpackMantissa Format.binary64 x.toBits.toBitVec = 0#52
        · rw [dif_pos hzero]
          rfl
        · rw [dif_neg hzero]
          rfl
      · rw [if_neg hlowest]
        rfl
    · split
      · exact ⟨_, _, _, rfl⟩
      · exact ⟨_, _, _, rfl⟩

theorem isNaN_iff {x : Float} : x.isNaN = true ↔ x.toModel.unpack = .notANumber := by
  change x.toModel.unpack.isNaN = true ↔ _
  cases x.toModel.unpack with
  | notANumber => exact iff_of_true rfl rfl
  | infinity | zero | finite => exact iff_of_false Bool.false_ne_true nofun

theorem isInf_iff {x : Float} : x.isInf = true ↔ ∃ sign, x.toModel.unpack = .infinity sign := by
  change x.toModel.unpack.isInf = true ↔ _
  cases x.toModel.unpack with
  | infinity sign => exact iff_of_true rfl ⟨sign, rfl⟩
  | notANumber | zero | finite => exact iff_of_false Bool.false_ne_true nofun

theorem isFinite_eq_false_iff {x : Float} : x.isFinite = false ↔
    x.toModel.unpack = .notANumber ∨ ∃ sign, x.toModel.unpack = .infinity sign := by
  change x.toModel.unpack.isFinite = false ↔ _
  cases x.toModel.unpack with
  | notANumber => exact iff_of_true rfl (Or.inl rfl)
  | infinity sign => exact iff_of_true rfl (Or.inr ⟨sign, rfl⟩)
  | zero | finite => exact iff_of_false Bool.noConfusion (by rintro (h | ⟨_, h⟩) <;> cases h)

theorem ofFloat_of_isNaN {x : Float} (hx : x.isNaN = true) : ofFloat x = nan := by
  rw [isNaN_iff] at hx
  rcases unpack_cases x with ⟨-, hparts⟩ | ⟨sign, negative, hunpack, -⟩ | ⟨hfinite, -⟩
  · exact hparts
  · rw [hx] at hunpack
    cases hunpack
  · rw [hx] at hfinite
    cases hfinite

/-- A float without an integer near it is no number or infinite, and the fault says which. -/
theorem truncated_eq_error_iff {x : Float} {fault : NumberFault} :
    truncated x = .error fault ↔
      (x.isNaN = true ∧ fault = .notANumber) ∨ (x.isInf = true ∧ fault = .endless) := by
  rw [isNaN_iff, isInf_iff]
  unfold truncated
  rcases unpack_cases x with ⟨hunpack, hparts⟩ | ⟨sign, negative, hunpack, hparts⟩ |
      ⟨hfinite, negative, significand, exponent, hparts⟩
  · rw [hunpack, hparts]
    change (.error .notANumber : Except NumberFault Int) = _ ↔ _
    simp [eq_comm]
  · rw [hunpack, hparts]
    change (.error .endless : Except NumberFault Int) = _ ↔ _
    simp [eq_comm]
  · rw [hparts]
    cases hunpack : x.toModel.unpack with
    | notANumber | infinity =>
      rw [hunpack] at hfinite
      cases hfinite
    | zero | finite =>
      refine iff_of_false nofun ?_
      rintro (⟨h, -⟩ | ⟨⟨_, h⟩, -⟩) <;> cases h

/-! ## Arithmetic -/

theorem unpack_pack_notANumber : (Float.Model.pack .notANumber).unpack = .notANumber := rfl

theorem unpack_pack_infinity (sign : UnpackedFloat.Sign) :
    (Float.Model.pack (.infinity sign)).unpack = .infinity sign := by
  cases sign <;> rfl

theorem isNaN_of_toModel {x : Float} (hx : x.toModel = Float.Model.pack .notANumber) :
    x.isNaN = true := by
  rw [isNaN_iff, hx]
  exact unpack_pack_notANumber

theorem isNaN_add_left {x : Float} (hx : x.isNaN = true) (y : Float) : (x + y).isNaN = true := by
  refine isNaN_of_toModel ?_
  change Float.Model.pack (UnpackedFloat.add _ x.toModel.unpack y.toModel.unpack) = _
  rw [isNaN_iff.mp hx]
  rfl

theorem isNaN_sub_left {x : Float} (hx : x.isNaN = true) (y : Float) : (x - y).isNaN = true := by
  refine isNaN_of_toModel ?_
  change Float.Model.pack (UnpackedFloat.sub _ x.toModel.unpack y.toModel.unpack) = _
  rw [isNaN_iff.mp hx]
  rfl

theorem isNaN_sub_right (x : Float) {y : Float} (hy : y.isNaN = true) : (x - y).isNaN = true := by
  refine isNaN_of_toModel ?_
  change Float.Model.pack (UnpackedFloat.sub _ x.toModel.unpack y.toModel.unpack) = _
  rw [isNaN_iff.mp hy]
  cases x.toModel.unpack <;> rfl

theorem isNaN_div_left {x : Float} (hx : x.isNaN = true) (y : Float) : (x / y).isNaN = true := by
  refine isNaN_of_toModel ?_
  change Float.Model.pack (UnpackedFloat.div _ x.toModel.unpack y.toModel.unpack) = _
  rw [isNaN_iff.mp hx]
  rfl

theorem beq_of_isNaN {x : Float} (hx : x.isNaN = true) (y : Float) : (x == y) = false := by
  change x.toModel.unpack.beq y.toModel.unpack = false
  rw [isNaN_iff.mp hx]
  rfl

/-- Opposite infinities have no sum, but in no case is the sum finite. -/
theorem isFinite_add_right (x : Float) {y : Float} (hy : y.isFinite = false) :
    (x + y).isFinite = false := by
  have hsum : (x + y).toModel.unpack = (Float.Model.pack
      (UnpackedFloat.add Format.binary64 x.toModel.unpack y.toModel.unpack)).unpack := rfl
  rw [isFinite_eq_false_iff] at hy ⊢
  rw [hsum]
  rcases hy with hy | ⟨sign, hy⟩
  · rw [hy]
    cases x.toModel.unpack <;> exact Or.inl unpack_pack_notANumber
  · rw [hy]
    cases x.toModel.unpack with
    | notANumber => exact Or.inl unpack_pack_notANumber
    | infinity sign' =>
      have hinfinities : UnpackedFloat.add Format.binary64 (.infinity sign') (.infinity sign) =
          if sign' == sign then .infinity sign' else .notANumber := rfl
      rw [hinfinities]
      split
      · exact Or.inr ⟨sign', unpack_pack_infinity sign'⟩
      · exact Or.inl unpack_pack_notANumber
    | zero | finite => exact Or.inr ⟨sign, unpack_pack_infinity sign⟩

/-! ## Division with remainder -/

theorem remainder_eq_nan {x : Float} (hx : x.isFinite = false) (b : Binary64) :
    remainder (ofFloat x) b = nan := by
  rcases unpack_cases x with ⟨-, hparts⟩ | ⟨sign, negative, -, hparts⟩ | ⟨hfinite, -⟩
  · rw [hparts]
    rfl
  · rw [hparts]
    rfl
  · have hsame : x.isFinite = true := hfinite
    rw [hx] at hsame
    cases hsame

/-- There is no number of times that a span goes into what is not finite: the remainder is no
number, and nothing that is done to it afterwards makes it one. -/
theorem isNaN_floorQuotient {x : Float} (hx : x.isFinite = false) (y : Float) :
    (floorQuotient x y).isNaN = true := by
  have hrest : nan.toFloat.isNaN = true := rfl
  unfold floorQuotient
  rw [remainder_eq_nan hx]
  extract_lets rest first quotient below
  -- No number passes through each of the steps by which the quotient is put right.
  have hfirst : first.isNaN = true := isNaN_div_left (isNaN_sub_right x hrest) y
  have hquotient : quotient.isNaN = true := by
    dsimp only [quotient]
    split
    · exact isNaN_sub_left hfirst 1.0
    · exact hfirst
  have hbelow : below = quotient := by
    dsimp only [below]
    unfold floor
    rw [ofFloat_of_isNaN hquotient]
  rw [beq_of_isNaN hquotient, hbelow]
  simp only [Bool.false_eq_true, if_false]
  split
  · exact isNaN_add_left hquotient 1.0
  · exact hquotient

end ChipEight.Binary64
