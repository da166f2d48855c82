/-
  AccumulatorAsm.Proofs.Emission

  Which cells an instruction emits, and which fault it ends in. `Emits` and `Refuses` list the
  forms of an instruction with one constructor each; every instruction has one of them
  (`emits_or_refuses`), so both describe `emit` exactly. A program emits the cells of its
  instructions one behind the other, or ends in the fault of the first that refuses.
-/

import Mathlib.Data.List.Forall2
import AccumulatorAsm.Emission
import AccumulatorAsm.Proofs.Literal
import AccumulatorAsm.Proofs.SymbolTable

namespace AccumulatorAsm

namespace Instruction

/-! ## Forms of an instruction -/

/-- The literal whose value an instruction needs, if it needs one. -/
def usedLiteral? (i : Instruction) : Option String :=
  match i.kind, i.firstOperand with
  | .directive .data, .imm text => some text
  | .opcode _, .imm text => some text
  | .opcode _, .ind text => some text
  | _, _ => none

/-- The cells of an instruction that can be emitted. -/
inductive Emits (i : Instruction) : List Cell → Prop
  | zero (hk : i.kind = .directive .zero) : Emits i [i.cell 0]
  | string {text : String} (hk : i.kind = .directive .data) (ho : i.firstOperand = .str text) :
      Emits i (i.stringCells text.toList)
  | address {name : String} (hk : i.kind = .directive .data) (ho : i.firstOperand = .sym name) :
      Emits i [i.cell 0 (some name)]
  | literal {text : String} {value : Nat} (hk : i.kind = .directive .data)
      (ho : i.firstOperand = .imm text) (hv : Literal.read text (some i.line) = .ok value) :
      Emits i [i.cell value]
  | direct {o : Opcode} {text : String} {value : Nat} (hk : i.kind = .opcode o)
      (ho : i.firstOperand = .imm text) (hv : Literal.read text (some i.line) = .ok value) :
      Emits i [i.cell (Word.pack value o.number i.indirect)]
  | indirect {o : Opcode} {text : String} {value : Nat} (hk : i.kind = .opcode o)
      (ho : i.firstOperand = .ind text) (hv : Literal.read text (some i.line) = .ok value) :
      Emits i [i.cell (Word.pack value o.number true)]
  | reference {o : Opcode} {name : String} (hk : i.kind = .opcode o)
      (ho : i.firstOperand = .sym name) :
      Emits i [i.cell (Word.pack 0 o.number i.indirect) (some name)]

/-- The fault of an instruction that cannot be emitted. -/
inductive Refuses (i : Instruction) : Fault → Prop
  | unknownDirective {name : String} (hk : i.kind = .directive (.other name)) :
      Refuses i (.failure ((Cause.unknownDirective name).atLine (some i.line)))
  | indirectData {text : String} (hk : i.kind = .directive .data)
      (ho : i.firstOperand = .ind text) :
      Refuses i (.failure ((Cause.dataOperand (.ind text)).atLine (some i.line)))
  | dataExpression {inner : Operand} (hk : i.kind = .directive .data)
      (ho : i.firstOperand = .expr inner) :
      Refuses i (.failure ((Cause.dataOperand (.expr inner)).atLine (some i.line)))
  | expression {o : Opcode} {inner : Operand} (hk : i.kind = .opcode o)
      (ho : i.firstOperand = .expr inner) :
      Refuses i (.failure (Cause.expressionOperand.atLine (some i.line)))
  | opcodeString {o : Opcode} {text : String} (hk : i.kind = .opcode o)
      (ho : i.firstOperand = .str text) :
      Refuses i (.failure ((Cause.opcodeOperand o (.str text)).atLine (some i.line)))
  | badLiteral {text : String} {fault : Fault} (hu : i.usedLiteral? = some text)
      (hl : Literal.read text (some i.line) = .error fault) : Refuses i fault

theorem result_fieldValue (i : Instruction) (text : String) :
    (i.fieldValue text).result = Literal.read text (some i.line) := by
  cases h : Literal.read text (some i.line) with
  | ok value =>
    exact Logged.result_bind_eq_ok.mpr ⟨value, by simp [literal, h], rfl⟩
  | error fault =>
    exact Logged.result_bind_eq_error.mpr (.inl (by simp [literal, h]))

/-- The warning that a value is too wide for the value field. -/
theorem log_fieldValue {i : Instruction} {text : String} {value : Nat}
    (h : Literal.read text (some i.line) = .ok value) :
    (i.fieldValue text).log =
      if Word.fits value Word.valueBits then [] else [.valueTruncated i.line value] := by
  have hliteral : (i.literal text).result = .ok value := h
  rw [fieldValue, Logged.bind_of_ok hliteral]
  simp [literal, Logged.ofExcept]

theorem Emits.result {i : Instruction} {cells : List Cell} (h : i.Emits cells) :
    i.emit.result = .ok cells := by
  cases h with
  | zero hk => simp [emit, hk]
  | string hk ho => simp [emit, hk, ho, emitData]
  | address hk ho => simp [emit, hk, ho, emitData]
  | literal hk ho hv =>
    simp [emit, hk, ho, emitData, Logged.result_map_eq_ok, Instruction.literal, hv]
  | direct hk ho hv =>
    simp [emit, hk, ho, emitOpcode, Logged.result_map_eq_ok, result_fieldValue, hv]
  | indirect hk ho hv =>
    simp [emit, hk, ho, emitOpcode, Logged.result_map_eq_ok, result_fieldValue, hv]
  | reference hk ho => simp [emit, hk, ho, emitOpcode]

theorem Refuses.result {i : Instruction} {fault : Fault} (h : i.Refuses fault) :
    i.emit.result = .error fault := by
  cases h with
  | unknownDirective hk => simp [emit, hk, fail]
  | indirectData hk ho => simp [emit, hk, ho, emitData, fail]
  | dataExpression hk ho => simp [emit, hk, ho, emitData, fail]
  | expression hk ho => simp [emit, hk, ho, emitOpcode, Logged.result_map_eq_error, fail]
  | opcodeString hk ho => simp [emit, hk, ho, emitOpcode, Logged.result_map_eq_error, fail]
  | badLiteral hu hl =>
    -- the three forms of an instruction that reads a literal
    unfold usedLiteral? at hu
    split at hu
    · next hk ho =>
      obtain rfl := Option.some.inj hu
      simp [emit, hk, ho, emitData, Logged.result_map_eq_error, Instruction.literal, hl]
    · next hk ho =>
      obtain rfl := Option.some.inj hu
      simp [emit, hk, ho, emitOpcode, Logged.result_map_eq_error, result_fieldValue, hl]
    · next hk ho =>
      obtain rfl := Option.some.inj hu
      simp [emit, hk, ho, emitOpcode, Logged.result_map_eq_error, result_fieldValue, hl]
    · cases hu

/-- Every instruction has one of the forms. -/
theorem emits_or_refuses (i : Instruction) :
    (∃ cells, i.Emits cells) ∨ ∃ fault, i.Refuses fault := by
  cases hk : i.kind with
  | directive d =>
    cases d with
    | zero => exact .inl ⟨_, .zero hk⟩
    | other name => exact .inr ⟨_, .unknownDirective hk⟩
    | data =>
      cases ho : i.firstOperand with
      | imm text =>
        cases hv : Literal.read text (some i.line) with
        | ok value => exact .inl ⟨_, .literal hk ho hv⟩
        | error fault => exact .inr ⟨fault, .badLiteral (by simp [usedLiteral?, hk, ho]) hv⟩
      | sym name => exact .inl ⟨_, .address hk ho⟩
      | ind text => exact .inr ⟨_, .indirectData hk ho⟩
      | str text => exact .inl ⟨_, .string hk ho⟩
      | expr inner => exact .inr ⟨_, .dataExpression hk ho⟩
  | opcode o =>
    cases ho : i.firstOperand with
    | imm text =>
      cases hv : Literal.read text (some i.line) with
      | ok value => exact .inl ⟨_, .direct hk ho hv⟩
      | error fault => exact .inr ⟨fault, .badLiteral (by simp [usedLiteral?, hk, ho]) hv⟩
    | sym name => exact .inl ⟨_, .reference hk ho⟩
    | ind text =>
      cases hv : Literal.read text (some i.line) with
      | ok value => exact .inl ⟨_, .indirect hk ho hv⟩
      | error fault => exact .inr ⟨fault, .badLiteral (by simp [usedLiteral?, hk, ho]) hv⟩
    | str text => exact .inr ⟨_, .opcodeString hk ho⟩
    | expr inner => exact .inr ⟨_, .expression hk ho⟩

theorem emit_eq_ok_iff {i : Instruction} {cells : List Cell} :
    i.emit.result = .ok cells ↔ i.Emits cells := by
  refine ⟨fun h => ?_, Emits.result⟩
  rcases i.emits_or_refuses with ⟨cells', he⟩ | ⟨fault, hr⟩
  · rw [he.result] at h
    exact Except.ok.inj h ▸ he
  · rw [hr.result] at h
    cases h

/-- An instruction is refused for a cause at its line or a number with too many digits. -/
theorem Refuses.caused {i : Instruction} {fault : Fault} (h : i.Refuses fault) :
    fault.Caused none := by
  cases h with
  | unknownDirective hk => exact .failure ..
  | indirectData hk ho => exact .failure ..
  | dataExpression hk ho => exact .failure ..
  | expression hk ho => exact .failure ..
  | opcodeString hk ho => exact .failure ..
  | badLiteral hu hl =>
    rcases Literal.read_eq_error_cases hl with ⟨count, -, rfl⟩ | ⟨cause, -, rfl⟩
    · exact .overlong count
    · exact .failure cause _

/-! ## Size, label and line of the cells -/

/-- The number of words an instruction takes: one for each character of a string, else one. -/
def size (i : Instruction) : Nat :=
  match i.kind, i.firstOperand with
  | .directive .data, .str text => text.toList.length
  | _, _ => 1

@[simp] theorem cell_line (i : Instruction) (value : Int) (ref : Option String) :
    (i.cell value ref).line = some i.line := rfl

@[simp] theorem cell_defines (i : Instruction) (value : Int) (ref : Option String) :
    (i.cell value ref).defines = i.label := rfl

@[simp] theorem cell_ref (i : Instruction) (value : Int) (ref : Option String) :
    (i.cell value ref).ref = ref := rfl

@[simp] theorem cell_value (i : Instruction) (value : Int) (ref : Option String) :
    (i.cell value ref).value = value := rfl

@[simp] theorem stringCells_length (i : Instruction) (cs : List Char) :
    (i.stringCells cs).length = cs.length := by
  cases cs <;> simp [stringCells]

theorem Emits.length_eq {i : Instruction} {cells : List Cell} (h : i.Emits cells) :
    cells.length = i.size := by
  cases h with
  | zero hk => simp [size, hk]
  | string hk ho => simp [size, hk, ho]
  | address hk ho => simp [size, hk, ho]
  | literal hk ho => simp [size, hk, ho]
  | direct hk => simp [size, hk]
  | indirect hk => simp [size, hk]
  | reference hk => simp [size, hk]

/-- The first cell of an instruction, if there is one, carries its label, and no other does. -/
theorem Emits.definition?_eq {i : Instruction} {cells : List Cell} (h : i.Emits cells)
    (name : String) :
    Cell.definition? cells name = if i.label = some name ∧ 0 < i.size then some 0 else none := by
  -- everything but a string has one cell, which carries the label
  have hpos : (∃ c, cells = [c] ∧ c.defines = i.label) →
      Cell.definition? cells name =
        if i.label = some name ∧ 0 < i.size then some 0 else none := by
    rintro ⟨c, rfl, hc⟩
    have hsize : i.size = 1 := h.length_eq.symm
    rw [Cell.definition?_singleton, hc, hsize]
    simp
  cases h with
  | @string text hk ho =>
    cases htext : text.toList with
    | nil => simp [stringCells, size, hk, ho, htext]
    | cons a cs =>
      -- behind the first character no cell carries a label
      have htail : Cell.definition?
          (cs.map fun c => { i.cell (c.toNat % 0x100) with defines := none }) name = none := by
        simp [Cell.definition?, Cell.definitions, List.findIdxs_eq_nil_iff]
      rw [stringCells, ← List.singleton_append, Cell.definition?_append, htail,
        Cell.definition?_singleton]
      by_cases hl : i.label = some name <;> simp [size, hk, ho, htext, hl]
  | zero | address | literal | direct | indirect | reference => exact hpos ⟨_, rfl, rfl⟩

end Instruction

/-! ## Programs -/

namespace Emission

open Instruction

theorem emitAll_eq_ok_iff {is : List Instruction} {cells : List Cell} :
    (emitAll is).result = .ok cells ↔
      ∃ parts, List.Forall₂ Emits is parts ∧ cells = parts.flatten := by
  induction is generalizing cells with
  | nil =>
    constructor
    · intro h
      exact ⟨[], .nil, (Except.ok.inj h).symm⟩
    · rintro ⟨parts, hparts, rfl⟩
      cases hparts
      rfl
  | cons i is ih =>
    simp only [emitAll, Logged.result_bind_eq_ok, Logged.result_pure, Except.ok.injEq,
      emit_eq_ok_iff, ih]
    constructor
    · rintro ⟨part, hpart, more, ⟨parts, hparts, rfl⟩, rfl⟩
      exact ⟨part :: parts, .cons hpart hparts, rfl⟩
    · rintro ⟨_, hparts, rfl⟩
      cases hparts with
      | cons hpart hparts => exact ⟨_, hpart, _, ⟨_, hparts, rfl⟩, rfl⟩

/-- A program fails with the fault of the first instruction that refuses. -/
theorem emitAll_eq_error_of_first {before after : List Instruction} {i : Instruction}
    {fault : Fault} (hbefore : ∀ j ∈ before, ∃ cells, j.Emits cells) (hi : i.Refuses fault) :
    (emitAll (before ++ i :: after)).result = .error fault := by
  induction before with
  | nil => exact Logged.result_bind_eq_error.mpr (.inl hi.result)
  | cons j before ih =>
    -- the cells of `j` are there, and the rest fails as it does without them
    obtain ⟨cells, hj⟩ := hbefore j List.mem_cons_self
    have hrest := ih fun k hk => hbefore k (List.mem_cons_of_mem _ hk)
    exact Logged.result_bind_eq_error.mpr
      (.inr ⟨cells, hj.result, Logged.result_bind_eq_error.mpr (.inl hrest)⟩)

/-- A program is emitted or has a first instruction that refuses. -/
theorem emits_or_first_refuses (is : List Instruction) :
    (∃ parts, List.Forall₂ Emits is parts) ∨
      ∃ before i after fault, is = before ++ i :: after ∧
        (∀ j ∈ before, ∃ cells, j.Emits cells) ∧ i.Refuses fault := by
  induction is with
  | nil => exact .inl ⟨[], .nil⟩
  | cons i is ih =>
    rcases i.emits_or_refuses with ⟨part, hpart⟩ | ⟨fault, hfault⟩
    · rcases ih with ⟨parts, hparts⟩ | ⟨before, k, after, fault, rfl, hbefore, hk⟩
      · exact .inl ⟨part :: parts, .cons hpart hparts⟩
      · refine .inr ⟨i :: before, k, after, fault, rfl, ?_, hk⟩
        exact List.forall_mem_cons.mpr ⟨⟨part, hpart⟩, hbefore⟩
    · exact .inr ⟨[], i, is, fault, rfl, by simp, hfault⟩

@[simp] theorem result_run (is : List Instruction) : (run is).result = (emitAll is).result := by
  cases h : (emitAll is).result with
  | ok cells => exact Logged.result_bind_eq_ok.mpr ⟨cells, h, rfl⟩
  | error fault => exact Logged.result_bind_eq_error.mpr (.inl h)

/-- A program fails with the fault of an instruction. -/
theorem caused_of_run {is : List Instruction} {fault : Fault}
    (h : (run is).result = .error fault) : fault.Caused none := by
  rw [result_run] at h
  rcases emits_or_first_refuses is with
    ⟨parts, hparts⟩ | ⟨before, i, after, fault', rfl, hbefore, hi⟩
  · rw [emitAll_eq_ok_iff.mpr ⟨parts, hparts, rfl⟩] at h
    cases h
  · rw [emitAll_eq_error_of_first hbefore hi] at h
    exact Except.error.inj h ▸ hi.caused

end Emission

end AccumulatorAsm
