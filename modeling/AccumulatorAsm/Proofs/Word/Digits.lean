/-
  AccumulatorAsm.Proofs.Word.Digits

  Words and the digits they are written with. A fixed number of digits holds a number up to the
  power that it cannot reach (`ofDigits_digits`); for a word nothing is lost. Its symbols are
  digits and capital letters, so a written word has neither blanks nor line breaks in it.
-/

import Mathlib.Algebra.GroupWithZero.Nat
import AccumulatorAsm.Text.Blank
import AccumulatorAsm.Text.Line
import AccumulatorAsm.Word.Digits

namespace AccumulatorAsm.Word

/-! ## Numbers -/

theorem ofDigits_digits (base width n : Nat) :
    ofDigits base (digits base width n) = n % base ^ width := by
  induction width generalizing n with
  | zero => simp [digits, Nat.mod_one]
  | succ width ih =>
    -- the last digit is the remainder, the digits before it are those of the quotient
    rw [digits, ofDigits_append_singleton, ih, Nat.pow_succ', Nat.mod_mul, Nat.mul_comm base]
    omega

theorem wrap_eq_self {x : Int} (h : 0 ≤ x ∧ x < modulus) : wrap x = x :=
  Int.emod_eq_of_lt h.1 h.2

theorem toNat_wrap_natCast (n : Nat) : (wrap n).toNat = n % 0x100000000 := by
  show ((n : Int) % 0x100000000).toNat = _
  omega

theorem toNat_wrap_lt (x : Int) : (wrap x).toNat < 0x100000000 := by
  have hnonneg := wrap_nonneg x
  have hlt : wrap x < 0x100000000 := wrap_lt x
  omega

/-! ## Symbols of hexadecimal digits -/

/-- The symbols a word is written with. -/
def hexSymbols : List Char := "0123456789ABCDEF".toList

theorem digitSymbol_mem_hexSymbols {d : Nat} (h : d < 16) : digitSymbol d ∈ hexSymbols :=
  (by decide : ∀ d < 16, digitSymbol d ∈ hexSymbols) d h

theorem mem_hexSymbols_of_mem_digits {base width n : Nat} (hbase : 0 < base) (h : base ≤ 16)
    {c : Char} (hc : c ∈ (digits base width n).map digitSymbol) : c ∈ hexSymbols := by
  obtain ⟨d, hd, rfl⟩ := List.mem_map.mp hc
  exact digitSymbol_mem_hexSymbols (Nat.lt_of_lt_of_le (lt_of_mem_digits hbase hd) h)

theorem mem_hexSymbols_of_mem_toHexChars {x : Int} {c : Char} (h : c ∈ toHexChars x) :
    c ∈ hexSymbols :=
  mem_hexSymbols_of_mem_digits (by decide) (by decide) h

/-- No symbol is a blank or ends a line. -/
theorem plain_of_mem_hexSymbols {c : Char} (h : c ∈ hexSymbols) :
    Text.isBlank c = false ∧ Text.isLineBreak c = false := by
  have hall : hexSymbols.all (fun d => !Text.isBlank d && !Text.isLineBreak d) = true := by
    decide
  simpa using List.all_eq_true.mp hall c h

@[simp] theorem toHexChars_length (x : Int) : (toHexChars x).length = 8 := by
  rw [toHexChars, List.length_map, digits_length]

end AccumulatorAsm.Word
