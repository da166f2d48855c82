/-
  AccumulatorAsm.Proofs.Word.Fields

  The three fields of an instruction word do not reach into each other: what is packed is
  unpacked again, reduced to the width of its field, and writing an address changes the value
  field only. All of it holds for every integer, negative ones included.
-/

import AccumulatorAsm.Word.Basic

namespace AccumulatorAsm.Word

/-- A packed word as a number of three digits, with the indirect bit as a number too. -/
theorem pack_eq (value opcode : Int) (indirect : Bool) :
    pack value opcode indirect =
      indirect.toNat * 0x80000000 + opcode % 0x80 * 0x1000000 + value % 0x1000000 := by
  cases indirect <;> simp [pack]

theorem pack_nonneg (value opcode : Int) (indirect : Bool) : 0 ≤ pack value opcode indirect := by
  rw [pack_eq]
  omega

theorem pack_lt (value opcode : Int) (indirect : Bool) : pack value opcode indirect < modulus := by
  have hbit : indirect.toNat ≤ 1 := indirect.toNat_le
  rw [pack_eq]
  show _ < (0x100000000 : Int)
  omega

theorem unpack_pack (value opcode : Int) (indirect : Bool) :
    unpack (pack value opcode indirect) =
      ⟨indirect, opcode % opcodeCount, value % valueCount⟩ := by
  have hbit : indirect.toNat ≤ 1 := indirect.toNat_le
  have hindirect : pack value opcode indirect / 0x80000000 % 2 = indirect.toNat := by
    rw [pack_eq]
    omega
  have hopcode : pack value opcode indirect / 0x1000000 % 0x80 = opcode % 0x80 := by
    rw [pack_eq]
    omega
  have hvalue : pack value opcode indirect % 0x1000000 = value % 0x1000000 := by
    rw [pack_eq]
    omega
  rw [unpack, hindirect, hopcode, hvalue]
  cases indirect <;> rfl

/-- The fields of a word make the word again, reduced to its 32 bits. -/
theorem pack_unpack (w : Int) :
    pack (unpack w).value (unpack w).opcode (unpack w).indirect = wrap w := by
  have hindirect : ((unpack w).indirect.toNat : Int) = w / 0x80000000 % 2 := by
    have hbit := Int.emod_two_eq (w / 0x80000000)
    rcases hbit with hbit | hbit <;> simp [unpack, hbit]
  rw [pack_eq, hindirect]
  show _ + w / 0x1000000 % 0x80 % 0x80 * 0x1000000 + w % 0x1000000 % 0x1000000 = w % 0x100000000
  omega

/-- An address written into a packed word is as if it had been packed. -/
theorem withAddress_pack (value opcode address : Int) (indirect : Bool) :
    withAddress (pack value opcode indirect) address = pack address opcode indirect := by
  rw [withAddress, pack_eq, pack_eq]
  show _ / 0x1000000 * 0x1000000 + address % 0x1000000 = _
  omega

/-- An address that fits is what the value field holds afterwards. -/
theorem withAddress_emod {w address : Int} (h0 : 0 ≤ address) (h : address < valueCount) :
    withAddress w address % valueCount = address := by
  have hlt : address < 0x1000000 := h
  rw [withAddress]
  show (w / 0x1000000 * 0x1000000 + address % 0x1000000) % 0x1000000 = address
  omega

/-- The bits above the value field stay, however many there are. -/
theorem withAddress_ediv (w address : Int) :
    withAddress w address / valueCount = w / valueCount := by
  rw [withAddress]
  show (w / 0x1000000 * 0x1000000 + address % 0x1000000) / 0x1000000 = w / 0x1000000
  omega

/-- An unsigned number of the width of the value field is its own remainder. -/
theorem emod_valueCount_of_fits {value : Int} (h : fits value valueBits = true) :
    value % valueCount = value := by
  obtain ⟨h0, h1⟩ := fits_iff.mp h
  have hcount : ((1 <<< valueBits : Nat) : Int) = valueCount := by decide
  rw [hcount] at h1
  exact Int.emod_eq_of_lt h0 h1

end AccumulatorAsm.Word
