/-
  AccumulatorAsm.Proofs.Emission.Warnings

  What is noted while a program is emitted. The warnings of an instruction can be told from it
  alone: of the operands behind its first, then of an empty string or of a literal that is too
  wide for the value field. `.zero` takes no operand and is warned of nothing.

  An emitted program notes the warnings of its instructions one after the other and then the number
  of its cells. A program that is refused notes those of the instructions in front of the refused
  one, and of this one the operands behind its first: they are counted before the first is looked
  at, and a first operand that is the reason to refuse is not warned of (`notices_of_run`).
-/

import AccumulatorAsm.Proofs.Emission

namespace AccumulatorAsm

namespace Instruction

/-! ## Warnings of an instruction -/

/-- The warning of operands that are not used. -/
def unusedOperandWarnings (i : Instruction) : List Notice :=
  if i.kind = .directive .zero ∨ i.operands.length ≤ 1 then []
  else [.operandsIgnored i.line (i.operands.length - 1)]

/-- The warning of a literal of more than 24 bits. -/
def wideLiteralWarnings (i : Instruction) (text : String) : List Notice :=
  match Literal.read text (some i.line) with
  | .ok value => if 0x1000000 ≤ value then [.valueTruncated i.line value] else []
  | .error _ => []

/-- The warning of the operand that is used. -/
def firstOperandWarnings (i : Instruction) : List Notice :=
  match i.kind, i.firstOperand with
  | .directive .data, .str text => if text = "" then [.emptyString i.line] else []
  | .opcode _, .imm text => i.wideLiteralWarnings text
  | .opcode _, .ind text => i.wideLiteralWarnings text
  | _, _ => []

def warnings (i : Instruction) : List Notice :=
  i.unusedOperandWarnings ++ i.firstOperandWarnings

theorem level_of_mem_warnings {i : Instruction} {n : Notice} (h : n ∈ i.warnings) :
    n.level = .warning := by
  -- each of the lists is empty or has a single notice in it
  have hkinds : (∃ count, n = .operandsIgnored i.line count) ∨ n = .emptyString i.line ∨
      ∃ value, n = .valueTruncated i.line value := by
    grind [warnings, unusedOperandWarnings, firstOperandWarnings, wideLiteralWarnings]
  rcases hkinds with ⟨count, rfl⟩ | rfl | ⟨value, rfl⟩ <;> rfl

/-! ## Notices of an emission -/

/-- Whether or not the literal can be read. -/
theorem log_fieldValue_eq (i : Instruction) (text : String) :
    (i.fieldValue text).log = i.wideLiteralWarnings text := by
  unfold wideLiteralWarnings
  cases hv : Literal.read text (some i.line) with
  | ok value =>
    have hcount : ((1 <<< Word.valueBits : Nat) : Int) = 0x1000000 := by decide
    have hfits : Word.fits value Word.valueBits = true ↔ ¬ 0x1000000 ≤ value := by
      rw [Word.fits_iff, hcount]
      omega
    rw [log_fieldValue hv]
    by_cases hwide : 0x1000000 ≤ value <;> simp [hfits, hwide]
  | error fault =>
    have hliteral : (i.literal text).result = .error fault := hv
    rw [fieldValue, Logged.bind_of_error hliteral]
    rfl

theorem extraOperandNotices_eq {i : Instruction} (hk : i.kind ≠ .directive .zero) :
    i.extraOperandNotices = i.unusedOperandWarnings := by
  unfold extraOperandNotices unusedOperandWarnings
  by_cases hlength : i.operands.length ≤ 1
  · rw [if_neg (Nat.not_lt.mpr hlength), if_pos (.inr hlength)]
  · rw [if_pos (Nat.lt_of_not_le hlength), if_neg (not_or.mpr ⟨hk, hlength⟩)]

/-- An instruction with a known directive or an operation notes its warnings and nothing else,
    also when it is refused. -/
theorem log_emit {i : Instruction} (hknown : ∀ name, i.kind ≠ .directive (.other name)) :
    i.emit.log = i.warnings := by
  unfold warnings firstOperandWarnings
  cases hk : i.kind with
  | directive d =>
    cases d with
    | zero => simp [emit, hk, unusedOperandWarnings]
    | other name => exact absurd hk (hknown name)
    | data =>
      rw [← extraOperandNotices_eq (by simp [hk])]
      cases ho : i.firstOperand <;>
        simp [emit, hk, ho, emitData, literal, Logged.ofExcept, fail, Logged.fail]
  | opcode o =>
    rw [← extraOperandNotices_eq (by simp [hk])]
    cases ho : i.firstOperand <;>
      simp [emit, hk, ho, emitOpcode, log_fieldValue_eq, fail, Logged.fail]

/-- The operand that is used is not warned of where it is the reason to refuse. -/
theorem Refuses.firstOperandWarnings_eq {i : Instruction} {fault : Fault} (h : i.Refuses fault) :
    i.firstOperandWarnings = [] := by
  cases h with
  | unknownDirective hk => simp [firstOperandWarnings, hk]
  | indirectData hk ho => simp [firstOperandWarnings, hk, ho]
  | dataExpression hk ho => simp [firstOperandWarnings, hk, ho]
  | expression hk ho => simp [firstOperandWarnings, hk, ho]
  | opcodeString hk ho => simp [firstOperandWarnings, hk, ho]
  | badLiteral hu hl =>
    unfold usedLiteral? at hu
    split at hu
    · next hk ho => simp [firstOperandWarnings, hk, ho]
    · next hk ho =>
      obtain rfl := Option.some.inj hu
      simp [firstOperandWarnings, hk, ho, wideLiteralWarnings, hl]
    · next hk ho =>
      obtain rfl := Option.some.inj hu
      simp [firstOperandWarnings, hk, ho, wideLiteralWarnings, hl]
    · cases hu

theorem Refuses.log {i : Instruction} {fault : Fault} (h : i.Refuses fault)
    (hknown : ∀ name, i.kind ≠ .directive (.other name)) :
    i.emit.log = i.unusedOperandWarnings := by
  rw [log_emit hknown, warnings, h.firstOperandWarnings_eq, List.append_nil]

end Instruction

/-! ## Notices of a program -/

namespace Emission

open Instruction

variable {is : List Instruction}

/-- What an instruction notes stands in front of what the others note, even if one of these is
    refused. -/
theorem log_emitAll_cons {i : Instruction} {cells : List Cell} (hi : i.Emits cells) :
    (emitAll (i :: is)).log = i.emit.log ++ (emitAll is).log := by
  rw [emitAll, Logged.bind_of_ok hi.result]
  simp

theorem log_emitAll_of_emits {parts : List (List Cell)} (h : List.Forall₂ Emits is parts)
    (hknown : ∀ i ∈ is, ∀ name, i.kind ≠ .directive (.other name)) :
    (emitAll is).log = is.flatMap warnings := by
  induction h with
  | nil => rfl
  | cons hi _ ih =>
    obtain ⟨hiknown, hknown⟩ := List.forall_mem_cons.mp hknown
    rw [log_emitAll_cons hi, log_emit hiknown, ih hknown, List.flatMap_cons]

/-- The instructions behind the first that refuses are not looked at. -/
theorem log_emitAll_of_first {before after : List Instruction} {i : Instruction} {fault : Fault}
    (hbefore : ∀ j ∈ before, ∃ cells, j.Emits cells) (hi : i.Refuses fault)
    (hknown : ∀ j ∈ before ++ i :: after, ∀ name, j.kind ≠ .directive (.other name)) :
    (emitAll (before ++ i :: after)).log = before.flatMap warnings ++ i.unusedOperandWarnings := by
  induction before with
  | nil =>
    rw [List.nil_append, emitAll, Logged.bind_of_error hi.result]
    exact hi.log (hknown i List.mem_cons_self)
  | cons j before ih =>
    obtain ⟨⟨cells, hj⟩, hbefore⟩ := List.forall_mem_cons.mp hbefore
    obtain ⟨hjknown, hknown⟩ := List.forall_mem_cons.mp hknown
    rw [List.cons_append, log_emitAll_cons hj, log_emit hjknown, ih hbefore hknown,
      List.flatMap_cons, List.append_assoc]

theorem log_run_of_ok {cells : List Cell} (h : (emitAll is).result = .ok cells) :
    (run is).log = (emitAll is).log ++ [.cellsEmitted cells.length] := by
  rw [run, Logged.bind_of_ok h]
  rfl

theorem log_run_of_error {fault : Fault} (h : (emitAll is).result = .error fault) :
    (run is).log = (emitAll is).log := by
  rw [run, Logged.bind_of_error h]

/-- A program that is emitted notes the warnings of its instructions and then the number of its
    cells. A program that is refused has a first instruction that is, and notes the warnings of
    those in front of it and of its unused operands. -/
theorem notices_of_run (hknown : ∀ i ∈ is, ∀ name, i.kind ≠ .directive (.other name)) :
    (∀ cells, (run is).result = .ok cells →
        (run is).log = is.flatMap warnings ++ [.cellsEmitted cells.length]) ∧
      (∀ fault, (run is).result = .error fault →
        ∃ before i after, is = before ++ i :: after ∧
          (∀ j ∈ before, ∃ cells, j.emit.result = .ok cells) ∧ i.emit.result = .error fault ∧
          (run is).log = before.flatMap warnings ++ i.unusedOperandWarnings) ∧
      ∀ n ∈ is.flatMap warnings, n.level = .warning := by
  refine ⟨fun cells hok => ?_, fun fault herror => ?_, fun n hn => ?_⟩
  · rw [result_run] at hok
    obtain ⟨parts, hparts, -⟩ := emitAll_eq_ok_iff.mp hok
    rw [log_run_of_ok hok, log_emitAll_of_emits hparts hknown]
  · rw [result_run] at herror
    rcases emits_or_first_refuses is with
      ⟨parts, hparts⟩ | ⟨before, i, after, fault', rfl, hbefore, hi⟩
    · rw [emitAll_eq_ok_iff.mpr ⟨parts, hparts, rfl⟩] at herror
      cases herror
    · have hfirst : (emitAll (before ++ i :: after)).result = .error fault' :=
        emitAll_eq_error_of_first hbefore hi
      obtain rfl : fault' = fault := Except.error.inj (hfirst.symm.trans herror)
      refine ⟨before, i, after, rfl, fun j hj => ?_, hi.result, ?_⟩
      · obtain ⟨cells, hcells⟩ := hbefore j hj
        exact ⟨cells, hcells.result⟩
      · rw [log_run_of_error herror, log_emitAll_of_first hbefore hi hknown]
  · obtain ⟨i, -, hi⟩ := List.mem_flatMap.mp hn
    exact level_of_mem_warnings hi

/-- Every kind of warning, and a program that is refused at a string with an operand behind it. -/
theorem notices_of_run_refused :
    let accepted : List Instruction :=
      [{ kind := .directive .zero, operands := [.imm "", .imm ""], line := 1 },
       { kind := .directive .data, operands := [.str "", .imm "0x1"], line := 2 },
       { kind := .opcode .lac, operands := [.ind "0x1000000", .sym "a", .sym "b"], line := 3 }]
    let string : Instruction :=
      { kind := .opcode .jmp, operands := [.str "x", .imm "0x1000000"], line := 4 }
    let refused := accepted ++ [string, { kind := .opcode .jmp, line := 5 }]
    let fault : Fault := .failure ((Cause.opcodeOperand .jmp (.str "x")).atLine (some 4))
    (∀ i ∈ refused, ∀ name, i.kind ≠ .directive (.other name)) ∧
      (run accepted).log = [.operandsIgnored 2 1, .emptyString 2, .operandsIgnored 3 2,
        .valueTruncated 3 0x1000000, .cellsEmitted 2] ∧
      (run refused).result = .error fault ∧
      ∃ before i after, refused = before ++ i :: after ∧
        (∀ j ∈ before, ∃ cells, j.emit.result = .ok cells) ∧ i.emit.result = .error fault ∧
        (run refused).log = before.flatMap warnings ++ i.unusedOperandWarnings := by
  intro accepted string refused fault
  have hknown : ∀ i ∈ refused, ∀ name, i.kind ≠ .directive (.other name) := by
    simp [refused, accepted, string]
  have haccepted : ∀ i ∈ accepted, ∀ name, i.kind ≠ .directive (.other name) :=
    fun i hi => hknown i (List.mem_append_left _ hi)
  have hfault : (run refused).result = .error fault := by decide
  obtain ⟨hok, -, -⟩ := notices_of_run haccepted
  obtain ⟨-, herror, -⟩ := notices_of_run hknown
  exact ⟨hknown, hok [{ value := 0, line := some 1 }, { value := 0xFE000000, line := some 3 }]
    (by decide), hfault, herror fault hfault⟩

end Emission

end AccumulatorAsm
