/-
  AccumulatorAsm.Proofs.Emission.ValueField

  What the value field of an operation holds of its literal. A literal is a word before it goes
  into the field: a hexadecimal number is reduced to its lowest 32 bits, a decimal one of more is
  refused. A word that is too wide for the field is cut with a warning, so without a warning the
  field holds the word (`field_or_warning`). The reduction to a word comes with no warning: a
  number that loses no bits in the field may have lost some before (`reduced_without_warning`).
-/

import AccumulatorAsm.Proofs.Emission
import AccumulatorAsm.Proofs.Word.Fields

namespace AccumulatorAsm.Instruction

/-- The emission of an instruction warns of a value that is cut. -/
def WarnsOfTruncation (i : Instruction) : Prop :=
  ∃ value, Notice.valueTruncated i.line value ∈ i.emit.log

variable {i : Instruction} {o : Opcode} {text : String} {value : Nat}

/-- The notices of an operation with a literal. -/
theorem log_emit_of_literal (hk : i.kind = .opcode o)
    (ho : i.firstOperand = .imm text ∨ i.firstOperand = .ind text)
    (hv : Literal.read text (some i.line) = .ok value) :
    i.emit.log = i.extraOperandNotices ++
      if Word.fits value Word.valueBits then [] else [.valueTruncated i.line value] := by
  have hfield : (i.fieldValue text).result = .ok value := (result_fieldValue i text).trans hv
  rw [← log_fieldValue hv]
  rcases ho with ho | ho <;>
    simp [emit, hk, ho, emitOpcode, Logged.bind_of_ok hfield]

theorem warnsOfTruncation_iff (hk : i.kind = .opcode o)
    (ho : i.firstOperand = .imm text ∨ i.firstOperand = .ind text)
    (hv : Literal.read text (some i.line) = .ok value) :
    i.WarnsOfTruncation ↔ Word.fits value Word.valueBits = false := by
  -- the other notices are of operands that are not used
  have hextra : ∀ v, Notice.valueTruncated i.line v ∉ i.extraOperandNotices := by
    intro v
    unfold extraOperandNotices
    split <;> simp
  simp only [WarnsOfTruncation, log_emit_of_literal hk ho hv, List.mem_append, hextra, false_or]
  cases Word.fits value Word.valueBits <;> simp

/-- The word of an operation with a literal. -/
theorem Emits.exists_field {cells : List Cell} (h : i.Emits cells) (hk : i.kind = .opcode o)
    (ho : i.firstOperand = .imm text ∨ i.firstOperand = .ind text) :
    ∃ value c, Literal.read text (some i.line) = .ok value ∧ cells = [c] ∧
      (Word.unpack c.value).value = value % Word.valueCount := by
  cases h with
  | @direct o' text' value hk' ho' hv =>
    rw [ho'] at ho
    obtain rfl : text' = text := by simpa using ho
    exact ⟨value, _, hv, rfl, by rw [cell_value, Word.unpack_pack]⟩
  | @indirect o' text' value hk' ho' hv =>
    rw [ho'] at ho
    obtain rfl : text' = text := by simpa using ho
    exact ⟨value, _, hv, rfl, by rw [cell_value, Word.unpack_pack]⟩
  | zero hk' | string hk' | address hk' | literal hk' =>
    rw [hk] at hk'
    cases hk'
  | reference hk' ho' =>
    rw [ho'] at ho
    simp at ho

/-- An operation that is accepted with a literal has the number of the literal in its value field,
    reduced to a word, or a warning is given. For the number of a word it is given exactly if the
    number is too wide for the field, and a decimal number is always that of a word. -/
theorem field_or_warning {radix n : Nat} {cells : List Cell} (hk : i.kind = .opcode o)
    (ho : i.firstOperand = .imm text ∨ i.firstOperand = .ind text)
    (hn : Literal.Denotes radix (Text.trim text.toList) n) (h : i.emit.result = .ok cells) :
    ∃ c, cells = [c] ∧
      ((Word.unpack c.value).value = (n % 0x100000000 : Nat) ∨ i.WarnsOfTruncation) ∧
      (n < 0x100000000 → (i.WarnsOfTruncation ↔ 0x1000000 ≤ n)) ∧
      (radix = 10 → n < 0x100000000) := by
  obtain ⟨value, c, hv, rfl, hfield⟩ := (emit_eq_ok_iff.mp h).exists_field hk ho
  obtain ⟨rfl, hdecimal⟩ := hn.value_eq hv
  have hwarns := warnsOfTruncation_iff hk ho hv
  refine ⟨c, rfl, ?_, fun hlt => ?_, hdecimal⟩
  · -- the number fits into the field, or the warning is there
    cases hfits : Word.fits (n % 0x100000000 : Nat) Word.valueBits with
    | true => exact .inl (hfield.trans (Word.emod_valueCount_of_fits hfits))
    | false => exact .inr (hwarns.mpr hfits)
  · have hcount : ((1 <<< Word.valueBits : Nat) : Int) = 0x1000000 := by decide
    rw [hwarns, ← Bool.not_eq_true, Word.fits_iff, hcount, Nat.mod_eq_of_lt hlt]
    omega

/-- An indirect decimal number of 29 bits. -/
theorem field_or_warning_indirect :
    let text := " 0d305419896 "
    let i : Instruction := { kind := .opcode .lac, operands := [.ind text], line := 3 }
    let cells := [i.cell 0xFE345678]
    i.kind = .opcode .lac ∧ (i.firstOperand = .imm text ∨ i.firstOperand = .ind text) ∧
      Literal.Denotes 10 (Text.trim text.toList) 0x12345678 ∧ i.emit.result = .ok cells ∧
      i.WarnsOfTruncation := by
  intro text i cells
  have ho : i.firstOperand = .imm text ∨ i.firstOperand = .ind text := .inr rfl
  have hdigits : Literal.decimalValue "305419896".toList = 0x12345678 := by decide
  have htrim : Text.trim text.toList = '0' :: 'd' :: "305419896".toList := by decide
  have hn : Literal.Denotes 10 (Text.trim text.toList) 0x12345678 := by
    rw [htrim, ← hdigits]
    exact .decimal (by decide)
  have h : i.emit.result = .ok cells := by decide
  obtain ⟨-, -, -, hwarns, -⟩ := field_or_warning rfl ho hn h
  exact ⟨rfl, ho, hn, h, (hwarns (by decide)).mpr (by decide)⟩

/-- The lowest word of a hexadecimal number of nine digits goes into the field without a
    warning. -/
theorem reduced_without_warning :
    let i : Instruction :=
      { kind := .opcode .lac, operands := [.imm "0x100000001"], line := 1 }
    Literal.Denotes 16 (Text.trim "0x100000001".toList) 0x100000001 ∧
      i.emit.result = .ok [i.cell 0x7E000001] ∧
      (Word.unpack (i.cell 0x7E000001).value).value ≠ (0x100000001 : Nat) ∧
      ¬ i.WarnsOfTruncation := by
  intro i
  refine ⟨?_, by decide, by decide, ?_⟩
  · exact @Literal.Denotes.hexadecimal "100000001".toList [1, 0, 0, 0, 0, 0, 0, 0, 1] (by decide)
  · rintro ⟨value, hvalue⟩
    have hlog : i.emit.log = [] := by decide
    rw [hlog] at hvalue
    cases hvalue

end AccumulatorAsm.Instruction
