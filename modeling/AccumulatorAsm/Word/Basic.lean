/-
  AccumulatorAsm.Word.Basic

  Machine words as integers. Every integer stands for the word it is congruent to modulo `2 ^ 32`.
  An instruction word has three fields: bit 31 marks indirect addressing, bits 30 to 24 hold
  the operation code, bits 23 to 0 the value. The fields are taken and put by division and
  remainder, which for negative integers agree with two's complement of unbounded width.
-/

import AccumulatorAsm.InvalidValue

namespace AccumulatorAsm.Word

/-! ## Sizes -/

/-- Width of the value field of an instruction word. -/
abbrev valueBits : Nat := 24

/-- The number of words, `2 ^ 32`. -/
abbrev modulus : Int := 0x100000000

/-- The weight of the indirect bit, `2 ^ 31`. -/
abbrev indirectWeight : Int := 0x80000000

/-- The number of values of the value field, `2 ^ 24`, which is also the weight of the lowest bit
    of the operation field. -/
abbrev valueCount : Int := 0x1000000

/-- The number of values of the operation field, `2 ^ 7`. -/
abbrev opcodeCount : Int := 0x80

/-! ## Words and unsigned numbers -/

/-- The word an integer stands for, in `[0, 2 ^ 32)`. -/
def wrap (x : Int) : Int :=
  x % modulus

/-- Whether an integer is an unsigned number of `n` bits: nothing is left behind the lowest `n`. -/
def fits (x : Int) (n : Nat) : Bool :=
  0 ≤ x && x.toNat >>> n == 0

/-- `fits` for a width given as an integer, which has to be positive. A number that is not negative
    is compared with `2 ^ n`, and `obstacle?` tells of a width why a machine cannot have that bound,
    if it cannot. -/
def fits? (obstacle? : Int → Option InvalidValue) (x n : Int) : Except InvalidValue Bool :=
  if n ≤ 0 then .error .nonPositiveWidth
  else if x < 0 then .ok false
  else
    match obstacle? n with
    | some v => .error v
    | none => .ok (fits x n.toNat)

theorem wrap_nonneg (x : Int) : 0 ≤ wrap x :=
  Int.emod_nonneg _ (by decide)

theorem wrap_lt (x : Int) : wrap x < modulus :=
  Int.emod_lt_of_pos _ (by decide)

theorem fits_iff {x : Int} {n : Nat} : fits x n = true ↔ 0 ≤ x ∧ x < (1 <<< n : Nat) := by
  simp only [fits, Bool.and_eq_true, decide_eq_true_eq, beq_iff_eq, Nat.shiftRight_eq_div_pow,
    Nat.shiftLeft_eq, Nat.one_mul, Nat.div_eq_zero_iff]
  have := Nat.two_pow_pos n
  omega

/-- At a positive width whose bound the machine can have, only the number decides. -/
theorem fits?_eq_ok {obstacle? : Int → Option InvalidValue} {n : Int} (hn : 0 < n)
    (h : obstacle? n = none) (x : Int) : fits? obstacle? x n = .ok (fits x n.toNat) := by
  unfold fits?
  rw [if_neg (Int.not_le.mpr hn), h]
  by_cases hx : x < 0
  · rw [if_pos hx, fits, decide_eq_false (Int.not_le.mpr hx), Bool.false_and]
  · rw [if_neg hx]

/-! ## Fields of an instruction word -/

structure Fields where
  indirect : Bool
  opcode : Int
  value : Int
  deriving DecidableEq, Repr

def pack (value opcode : Int) (indirect : Bool) : Int :=
  (if indirect then indirectWeight else 0) + opcode % opcodeCount * valueCount
    + value % valueCount

def unpack (w : Int) : Fields where
  indirect := w / indirectWeight % 2 == 1
  opcode := w / valueCount % opcodeCount
  value := w % valueCount

/-- Writes an address into the value field and keeps all bits above it. -/
def withAddress (w address : Int) : Int :=
  w / valueCount * valueCount + address % valueCount

end AccumulatorAsm.Word
