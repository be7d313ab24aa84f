import ChipEight.Word

/-!
# Hexadecimal text

Addresses and instructions are shown in upper-case hexadecimal. `Hex.digits` writes a number with
as many digits as it needs, `Hex.number?` reads digits of either case back, and `Hex.padded` fills
a number up with zeros on the left, a minus sign counting as one of the places: `-5` in three
places is `-05`.
-/

namespace ChipEight.Hex

/-- The digit of a number below sixteen. -/
def digit (d : Nibble) : Char :=
  if d.val < 10 then Char.ofNat (48 + d.val) else Char.ofNat (55 + d.val)

/-- The value of a digit of either case. -/
def value? (c : Char) : Option Nibble :=
  if '0' ≤ c ∧ c ≤ '9' then some (Fin.ofNat 16 (c.toNat - 48))
  else if 'A' ≤ c ∧ c ≤ 'F' then some (Fin.ofNat 16 (c.toNat - 55))
  else if 'a' ≤ c ∧ c ≤ 'f' then some (Fin.ofNat 16 (c.toNat - 87))
  else none

/-- The digits of a number, the highest first and no zero in front. -/
def digits (n : Nat) : List Char :=
  if h : n < 16 then [digit ⟨n, h⟩] else digits (n / 16) ++ [digit (Fin.ofNat 16 n)]

/-- The number that a text of digits writes, or nothing where a character is no digit. -/
def number? (cs : List Char) : Option Nat :=
  cs.foldl (fun total c => do return 16 * (← total) + (← value? c).val) (some 0)

/-- A number in at least `width` places, zeros coming after the sign. -/
def padded (width : Nat) (n : Int) : String :=
  let body := digits n.natAbs
  let sign := if n < 0 then ['-'] else []
  String.ofList (sign ++ List.replicate (width - (sign.length + body.length)) '0' ++ body)

@[simp] theorem value?_digit (d : Nibble) : value? (digit d) = some d := by
  revert d
  decide

theorem number?_append_singleton (cs : List Char) (c : Char) :
    number? (cs ++ [c]) = (number? cs).bind fun n => (value? c).map fun d => 16 * n + d.val := by
  simp only [number?, List.foldl_append, List.foldl_cons, List.foldl_nil]
  cases List.foldl _ _ cs <;> cases value? c <;> rfl

/-- Reading the digits of a number gives it back. -/
@[simp] theorem number?_digits (n : Nat) : number? (digits n) = some n := by
  induction n using digits.induct with
  | case1 n h => rw [digits, dif_pos h]; simp [number?]
  | case2 n h ih =>
    rw [digits, dif_neg h, number?_append_singleton, ih, value?_digit]
    simp only [Option.bind_some, Option.map_some, Fin.ofNat, Option.some.injEq]
    omega

end ChipEight.Hex
