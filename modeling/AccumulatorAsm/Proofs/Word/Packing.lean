/-
  AccumulatorAsm.Proofs.Word.Packing

  Instruction words by their bits. In two's complement of unbounded width a mask takes the
  remainder (`land_mask`) and its complement the rest (`land_lnot_mask`), a shift to the right the
  quotient, and fields that are shifted to places of their own are joined as they are added
  (`lor_shiftLeft`). So a packed word is the three masked fields next to each other
  (`pack_eq_lor`), unpacking shifts and masks them out again (`unpack_eq_land`), and an address is
  joined to the word without its value field (`withAddress_eq_lor`). Packing and unpacking are
  inverse up to the widths of the fields and of the word (`pack_unpack_inverse`).
-/

import Mathlib.Data.Int.Bitwise
import AccumulatorAsm.Proofs.Word.Fields

namespace AccumulatorAsm.Word

/-! ## Masks and shifts -/

/-- The bits of a mask that a number does not have. -/
theorem mask_ldiff (n m : Nat) : Nat.ldiff (2 ^ n - 1) m = 2 ^ n - 1 - m % 2 ^ n := by
  have hlt : m % 2 ^ n < 2 ^ n := Nat.mod_lt m (Nat.two_pow_pos n)
  have hsub : 2 ^ n - 1 - m % 2 ^ n = 2 ^ n - (m % 2 ^ n + 1) := by omega
  refine Nat.eq_of_testBit_eq fun k => ?_
  rw [hsub, Nat.testBit_two_pow_sub_succ hlt, Nat.testBit_ldiff, Nat.testBit_two_pow_sub_one,
    Nat.testBit_mod_two_pow]
  by_cases h : k < n <;> simp [h]

/-- What is shifted down and up again has lost its lowest bits. -/
theorem testBit_shiftRight_shiftLeft (m n k : Nat) :
    ((m >>> n) <<< n).testBit k = (decide (n ≤ k) && m.testBit k) := by
  rw [Nat.testBit_shiftLeft, Nat.testBit_shiftRight]
  by_cases h : n ≤ k
  · rw [Nat.add_sub_cancel' h]
  · simp [h]

/-- The bits of a number that a mask does not have. -/
theorem ldiff_mask (m n : Nat) : Nat.ldiff m (2 ^ n - 1) = (m >>> n) <<< n := by
  refine Nat.eq_of_testBit_eq fun k => ?_
  rw [Nat.testBit_ldiff, Nat.testBit_two_pow_sub_one, testBit_shiftRight_shiftLeft,
    Bool.and_comm, ← decide_not, decide_eq_decide.mpr Nat.not_lt]

/-- Of a number that a mask is joined to only the bits behind the mask are left. -/
theorem lor_mask (m n : Nat) : m ||| (2 ^ n - 1) = (m >>> n) <<< n ||| (2 ^ n - 1) := by
  refine Nat.eq_of_testBit_eq fun k => ?_
  rw [Nat.testBit_or, Nat.testBit_or, Nat.testBit_two_pow_sub_one, testBit_shiftRight_shiftLeft]
  by_cases h : k < n
  · simp [h]
  · simp [Nat.not_lt.mp h]

/-- A negative number is shifted with ones in its complement, where it takes in zeros itself. -/
theorem negSucc_shiftLeft (m n : Nat) :
    Int.negSucc m <<< n = Int.negSucc (m <<< n ||| (2 ^ n - 1)) := by
  have hmask : 2 ^ n - 1 < 2 ^ n := Nat.sub_lt (Nat.two_pow_pos n) Nat.one_pos
  rw [← Nat.shiftLeft_add_eq_or_of_lt hmask, Int.shiftLeft_eq, Int.negSucc_eq, Int.negSucc_eq,
    Nat.shiftLeft_eq, Int.neg_mul, Int.add_mul, Int.one_mul]
  push_cast [Nat.cast_sub (@Nat.one_le_two_pow n)]
  omega

/-- A mask of the lowest bits takes the remainder, of negative integers too. -/
theorem land_mask (x : Int) (n : Nat) : Int.land x (2 ^ n - 1 : Nat) = x % (2 ^ n : Nat) := by
  have hpos := Nat.two_pow_pos n
  cases x with
  | ofNat m =>
    show ((m &&& (2 ^ n - 1) : Nat) : Int) = ((m % 2 ^ n : Nat) : Int)
    rw [Nat.and_two_pow_sub_one_eq_mod]
  | negSucc m =>
    -- the bits of `-(m + 1)` are those that `m` does not have
    show ((Nat.ldiff (2 ^ n - 1) m : Nat) : Int) = _
    have hlt : m % 2 ^ n < 2 ^ n := Nat.mod_lt m hpos
    rw [mask_ldiff, Int.negSucc_emod _ (by omega)]
    omega

/-- The complement of a mask takes the bits behind it. -/
theorem land_lnot_mask (x : Int) (n : Nat) :
    Int.land x (Int.lnot (2 ^ n - 1 : Nat)) = (x >>> n) <<< n := by
  cases x with
  | ofNat m =>
    show ((Nat.ldiff m (2 ^ n - 1) : Nat) : Int) = (((m >>> n) <<< n : Nat) : Int)
    rw [ldiff_mask]
  | negSucc m =>
    show Int.negSucc (m ||| (2 ^ n - 1)) = Int.negSucc (m >>> n) <<< n
    rw [negSucc_shiftLeft, lor_mask]

/-- What is shifted behind the bits of a number is joined to it as it is added. -/
theorem lor_shiftLeft {a b : Int} {n : Nat} (hb : 0 ≤ b) (h : b < (2 ^ n : Nat)) :
    Int.lor (a <<< n) b = a * (2 ^ n : Nat) + b := by
  obtain ⟨b, rfl⟩ := Int.eq_ofNat_of_zero_le hb
  have hlt : b < 2 ^ n := Int.ofNat_lt.mp h
  cases a with
  | ofNat a =>
    show ((a <<< n ||| b : Nat) : Int) = _
    rw [← Nat.shiftLeft_add_eq_or_of_lt hlt, Nat.shiftLeft_eq]
    push_cast
    rfl
  | negSucc a =>
    -- the complement of the sum lacks the bits of `b`, all of which are below the shift
    have hbits : Nat.ldiff (a <<< n ||| (2 ^ n - 1)) b =
        a <<< n ||| Nat.ldiff (2 ^ n - 1) b := by
      refine Nat.eq_of_testBit_eq fun k => ?_
      rw [Nat.testBit_ldiff, Nat.testBit_or, Nat.testBit_or, Nat.testBit_ldiff,
        Nat.testBit_shiftLeft]
      by_cases hk : n ≤ k
      · have hle : 2 ^ n ≤ 2 ^ k := Nat.pow_le_pow_right Nat.two_pos hk
        have hzero : b.testBit k = false := Nat.testBit_lt_two_pow (Nat.lt_of_lt_of_le hlt hle)
        simp [hzero]
      · simp [hk]
    have hlow : 2 ^ n - 1 - b < 2 ^ n := by omega
    rw [negSucc_shiftLeft]
    show Int.negSucc (Nat.ldiff (a <<< n ||| (2 ^ n - 1)) b) = _
    rw [hbits, mask_ldiff, Nat.mod_eq_of_lt hlt, ← Nat.shiftLeft_add_eq_or_of_lt hlow,
      Nat.shiftLeft_eq, Int.negSucc_eq, Int.negSucc_eq, Int.neg_mul, Int.add_mul, Int.one_mul,
      Int.natCast_add, Int.natCast_mul]
    omega

/-! ## Fields -/

/-- The three fields are masked, shifted to their places and joined. -/
theorem pack_eq_lor (value opcode : Int) (indirect : Bool) :
    pack value opcode indirect =
      wrap (Int.lor (Int.lor ((indirect.toNat : Int) <<< (31 : Nat))
        (Int.land opcode 0x7F <<< (24 : Nat))) (Int.land value 0xFFFFFF)) := by
  have hopcode : Int.land opcode 0x7F = opcode % 0x80 := land_mask opcode 7
  have hvalue : Int.land value 0xFFFFFF = value % 0x1000000 := land_mask value 24
  have hshift : (opcode % 0x80) <<< (24 : Nat) = opcode % 0x80 * 0x1000000 := Int.shiftLeft_eq ..
  have hupper : Int.lor ((indirect.toNat : Int) <<< (31 : Nat)) (opcode % 0x80 * 0x1000000) =
      (indirect.toNat * 0x80 + opcode % 0x80) <<< (24 : Nat) := by
    rw [lor_shiftLeft (by omega) (by omega), Int.shiftLeft_eq]
    omega
  have hbit : indirect.toNat ≤ 1 := indirect.toNat_le
  rw [hopcode, hvalue, hshift, hupper, lor_shiftLeft (by omega) (by omega), pack_eq]
  -- nothing is left for the reduction to a word
  show _ = ((indirect.toNat * 0x80 + opcode % 0x80) * 0x1000000 + value % 0x1000000) % 0x100000000
  omega

/-- The three fields are shifted down and masked. -/
theorem unpack_eq_land (w : Int) :
    unpack w = ⟨Int.land (w >>> (31 : Nat)) 1 == 1, Int.land (w >>> (24 : Nat)) 0x7F,
      Int.land w 0xFFFFFF⟩ := by
  have hindirect : Int.land (w >>> (31 : Nat)) 1 = w / 0x80000000 % 2 := by
    rw [Int.shiftRight_eq_div_pow]
    exact land_mask _ 1
  have hopcode : Int.land (w >>> (24 : Nat)) 0x7F = w / 0x1000000 % 0x80 := by
    rw [Int.shiftRight_eq_div_pow]
    exact land_mask _ 7
  have hvalue : Int.land w 0xFFFFFF = w % 0x1000000 := land_mask w 24
  rw [hindirect, hopcode, hvalue]
  rfl

/-- The value field is masked out and the masked address joined. -/
theorem withAddress_eq_lor (w address : Int) :
    withAddress w address =
      Int.lor (Int.land w (Int.lnot 0xFFFFFF)) (Int.land address 0xFFFFFF) := by
  have hupper : Int.land w (Int.lnot 0xFFFFFF) = (w >>> (24 : Nat)) <<< (24 : Nat) :=
    land_lnot_mask w 24
  have haddress : Int.land address 0xFFFFFF = address % 0x1000000 := land_mask address 24
  rw [hupper, haddress, lor_shiftLeft (by omega) (by omega), Int.shiftRight_eq_div_pow]
  rfl

/-! ## Inverse laws -/

/-- Packing any integers gives a word, whose fields are the integers reduced to the widths of the
    fields; the fields of any integer make the word that it stands for. The word is made and taken
    apart by masks, shifts and joins. -/
theorem pack_unpack_inverse (value opcode w : Int) (indirect : Bool) :
    (0 ≤ pack value opcode indirect ∧ pack value opcode indirect < 0x100000000) ∧
    unpack (pack value opcode indirect) = ⟨indirect, opcode % 0x80, value % 0x1000000⟩ ∧
    pack (unpack w).value (unpack w).opcode (unpack w).indirect = w % 0x100000000 ∧
    pack value opcode indirect =
      wrap (Int.lor (Int.lor ((indirect.toNat : Int) <<< (31 : Nat))
        (Int.land opcode 0x7F <<< (24 : Nat))) (Int.land value 0xFFFFFF)) ∧
    unpack w = ⟨Int.land (w >>> (31 : Nat)) 1 == 1, Int.land (w >>> (24 : Nat)) 0x7F,
      Int.land w 0xFFFFFF⟩ :=
  ⟨⟨pack_nonneg .., pack_lt ..⟩, unpack_pack .., pack_unpack w, pack_eq_lor .., unpack_eq_land w⟩

end AccumulatorAsm.Word
