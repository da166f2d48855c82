/-
  AccumulatorAsm.Proofs.Assembly.Disassembly

  Any memory can be listed as source text. A word is listed as data, or, if its operation field
  has the number of an operation, as the instruction with its fields; either line is read as an
  instruction that emits the word and notes nothing. A listing is therefore assembled to the words
  it was made of, whichever form each of them has (`assemble_of_listed`).
-/

import Mathlib.Data.List.Forall2
import AccumulatorAsm.Proofs.Assembly.Stages
import AccumulatorAsm.Proofs.Literal
import AccumulatorAsm.Proofs.Source.Listing
import AccumulatorAsm.Proofs.Word.Fields

namespace AccumulatorAsm

/-- The lines that list a word. -/
inductive Word.Listed (w : Int) : String → Prop
  | data : Listed w (".data 0x" ++ toHex w)
  | direct {o : Opcode} (ho : (unpack w).opcode = o.number) (hi : (unpack w).indirect = false) :
      Listed w (o.name ++ " 0x" ++ toHex (unpack w).value)
  | indirect {o : Opcode} (ho : (unpack w).opcode = o.number) (hi : (unpack w).indirect = true) :
      Listed w (o.name ++ " [0x" ++ toHex (unpack w).value ++ "]")

/-! ## Lines with one literal -/

namespace Instruction

/-- A literal of eight hexadecimal digits. -/
def hexLiteral (x : Int) : String := "0x" ++ Word.toHex x

theorem hexLiteral_toList (x : Int) : (hexLiteral x).toList = '0' :: 'x' :: Word.toHexChars x := by
  simp [hexLiteral, Word.toHex]

/-- No character of a literal, and no bracket around it, means anything to the reader. -/
theorem plain_of_mem_hexLiteral {x : Int} {c : Char}
    (h : c ∈ '[' :: ((hexLiteral x).toList ++ [']'])) :
    Text.isBlank c = false ∧ Text.isLineBreak c = false ∧ Operand.escapeChar c = [c] := by
  have hall : ('[' :: ']' :: '0' :: 'x' :: Word.hexSymbols).all (fun d =>
      !Text.isBlank d && !Text.isLineBreak d && Operand.escapeChar d == [d]) = true := by
    decide
  rw [hexLiteral_toList] at h
  simp only [List.mem_cons, List.mem_append, List.not_mem_nil, or_false] at h
  have hmem : c ∈ '[' :: ']' :: '0' :: 'x' :: Word.hexSymbols := by
    rcases h with rfl | (rfl | rfl | h) | rfl
    · simp
    · simp
    · simp
    · simp [Word.mem_hexSymbols_of_mem_toHexChars h]
    · simp
  simpa [and_assoc] using List.all_eq_true.mp hall c hmem

/-- The operand of a listed word. -/
def IsHexOperand (op : Operand) (x : Int) : Prop :=
  op = .imm (hexLiteral x) ∨ op = .ind (hexLiteral x)

theorem IsHexOperand.plain {op : Operand} {x : Int} (h : IsHexOperand op x) :
    ∀ c ∈ op.token,
      Text.isBlank c = false ∧ Text.isLineBreak c = false ∧ Operand.escapeChar c = [c] := by
  intro c hc
  apply plain_of_mem_hexLiteral (x := x)
  rcases h with rfl | rfl
  · exact List.mem_cons_of_mem _ (List.mem_append_left _ hc)
  · exact hc

theorem IsHexOperand.readable {op : Operand} {x : Int} (h : IsHexOperand op x) : op.Readable := by
  rcases h with rfl | rfl
  · have htrim : Text.trim (hexLiteral x).toList = (hexLiteral x).toList :=
      Text.trim_eq_self_of_not_blank fun c hc => (IsHexOperand.plain (.inl rfl) c hc).1
    -- it starts with a digit, so no other class claims it
    have hclass : Operand.ofTokenChars? ('0' :: 'x' :: Word.toHexChars x) =
        some (.imm (String.ofList ('0' :: 'x' :: Word.toHexChars x))) := by
      simp [Operand.ofTokenChars?, Operand.enclosed?]
    refine ⟨by rw [Text.trimmed, htrim, String.ofList_toList], ?_⟩
    rw [Operand.ofToken?, htrim, hexLiteral_toList, hclass, ← hexLiteral_toList,
      String.ofList_toList]
  · exact trivial

/-- An instruction with a literal as its only operand. -/
theorem writable_of_isHexOperand {kind : StatementKind} {op : Operand} {x : Int}
    (hkind : (⟨kind, false⟩ : Mnemonic) ∈ Mnemonic.table.map Prod.snd)
    (h : IsHexOperand op x) : ({ kind, operands := [op] } : Instruction).Writable where
  mnemonic := hkind
  label := by simp
  readable := by simpa using h.readable
  lineFeed := by
    intro op' hop c hc hbreak
    rw [List.mem_singleton.mp hop] at hc
    rw [(h.plain c hc).2.1] at hbreak
    cases hbreak
  single := by
    rcases h with rfl | rfl <;> simp [← String.toList_inj, hexLiteral_toList]

/-- It is written as its mnemonic and the token of the operand. -/
theorem lines_of_isHexOperand {kind : StatementKind} {op : Operand} {x : Int} {name : String}
    (hname : (⟨kind, false⟩ : Mnemonic).name? = some name) (h : IsHexOperand op x) :
    ({ kind, operands := [op] } : Instruction).lines = [name.toList ++ ' ' :: op.token] := by
  have hescape : Operand.escape op.token = op.token := by
    rw [Operand.escape, List.flatMap_congr fun c hc => (h.plain c hc).2.2, List.flatMap_singleton']
  simp [Instruction.lines, statementLine, mnemonic, hname, operandText, Operand.written, hescape]

/-! ## Instructions that emit one word -/

/-- An instruction that emits one word without a name or a notice, wherever it stands. -/
def EmitsWord (i : Instruction) (w : Int) : Prop :=
  ∀ line, ({ i with line } : Instruction).emit = pure [{ value := w, line := some line }]

theorem literal_hexLiteral (i : Instruction) {x : Int} (h : 0 ≤ x ∧ x < Word.modulus) :
    i.literal (hexLiteral x) = pure x.toNat := by
  rw [literal, hexLiteral, Literal.read_marked_toHex, Word.wrap_eq_self h]
  rfl

/-- A value of the width of its field is not cut. -/
theorem fieldValue_hexLiteral (i : Instruction) {x : Int} (h : 0 ≤ x ∧ x < Word.valueCount) :
    i.fieldValue (hexLiteral x) = pure x.toNat := by
  have hword : 0 ≤ x ∧ x < Word.modulus := ⟨h.1, Int.lt_trans h.2 (by decide)⟩
  have hfits : Word.fits x Word.valueBits = true := by
    have hcount : ((1 <<< Word.valueBits : Nat) : Int) = Word.valueCount := by decide
    rw [Word.fits_iff, hcount]
    exact h
  have hvalue : ((x.toNat : Nat) : Int) = x := Int.toNat_of_nonneg h.1
  rw [fieldValue, literal_hexLiteral i hword, pure_bind, hvalue, if_pos hfits, Logged.noting_nil]

theorem emitsWord_data {w : Int} (h : 0 ≤ w ∧ w < Word.modulus) :
    ({ kind := .directive .data, operands := [.imm (hexLiteral w)] } :
      Instruction).EmitsWord w := by
  intro line
  have hvalue : ((w.toNat : Nat) : Int) = w := Int.toNat_of_nonneg h.1
  simp [emit, firstOperand, emitData, literal_hexLiteral _ h, extraOperandNotices, hvalue,
    Instruction.cell]

/-- The fields of a word, emitted as an instruction, make the word again. -/
theorem emitsWord_opcode {w : Int} (h : 0 ≤ w ∧ w < Word.modulus) {o : Opcode}
    (ho : (Word.unpack w).opcode = o.number) :
    ({ kind := .opcode o,
       operands := [if (Word.unpack w).indirect then .ind (hexLiteral (Word.unpack w).value)
         else .imm (hexLiteral (Word.unpack w).value)] } : Instruction).EmitsWord w := by
  intro line
  have hfield : 0 ≤ (Word.unpack w).value ∧ (Word.unpack w).value < Word.valueCount :=
    ⟨Int.emod_nonneg _ (by decide), Int.emod_lt_of_pos _ (by decide)⟩
  have hvalue : (((Word.unpack w).value.toNat : Nat) : Int) = (Word.unpack w).value :=
    Int.toNat_of_nonneg hfield.1
  have hword := Word.pack_unpack w
  rw [ho, Word.wrap_eq_self h] at hword
  cases hi : (Word.unpack w).indirect <;> rw [hi] at hword <;>
    simp [emit, firstOperand, emitOpcode, fieldValue_hexLiteral _ hfield, extraOperandNotices,
      hvalue, hword, Instruction.cell]

end Instruction

open Instruction

theorem Mnemonic.name?_opcode (o : Opcode) :
    (⟨.opcode o, false⟩ : Mnemonic) ∈ table.map Prod.snd ∧
      (⟨.opcode o, false⟩ : Mnemonic).name? = some o.name := by
  cases o <;> decide

/-- A listed word is the line of an instruction that emits it. -/
theorem Word.Listed.exists_instruction {w : Int} {line : String}
    (hw : 0 ≤ w ∧ w < Word.modulus) (h : Word.Listed w line) :
    ∃ i : Instruction, i.Writable ∧ i.lines = [line.toList] ∧ i.EmitsWord w := by
  have hwritten : ∀ {kind : StatementKind} {name : String} {op : Operand} {x : Int},
      (⟨kind, false⟩ : Mnemonic) ∈ Mnemonic.table.map Prod.snd ∧
        (⟨kind, false⟩ : Mnemonic).name? = some name →
      IsHexOperand op x → ({ kind, operands := [op] } : Instruction).EmitsWord w →
      line.toList = name.toList ++ ' ' :: op.token →
      ∃ i : Instruction, i.Writable ∧ i.lines = [line.toList] ∧ i.EmitsWord w := by
    rintro kind name op x ⟨hmem, hname⟩ hop hemits hline
    exact ⟨_, writable_of_isHexOperand hmem hop, by rw [lines_of_isHexOperand hname hop, hline],
      hemits⟩
  cases h with
  | data =>
    refine hwritten ⟨by decide, rfl⟩ (.inl rfl) (emitsWord_data hw) ?_
    simp [Operand.token, hexLiteral, Directive.name]
  | @direct o ho hi =>
    have hemits := emitsWord_opcode hw ho
    rw [hi, if_neg Bool.false_ne_true] at hemits
    refine hwritten (Mnemonic.name?_opcode o) (.inl rfl) hemits ?_
    simp [Operand.token, hexLiteral]
  | @indirect o ho hi =>
    have hemits := emitsWord_opcode hw ho
    rw [hi, if_pos rfl] at hemits
    refine hwritten (Mnemonic.name?_opcode o) (.inr rfl) hemits ?_
    simp [Operand.token, hexLiteral]

theorem exists_instructions_of_listed {ws : List Int} {lines : List String}
    (hws : ∀ w ∈ ws, 0 ≤ w ∧ w < Word.modulus) (h : List.Forall₂ Word.Listed ws lines) :
    ∃ is : List Instruction, (∀ i ∈ is, i.Writable) ∧
      is.flatMap Instruction.lines = lines.map String.toList ∧ List.Forall₂ EmitsWord is ws := by
  induction h with
  | nil => exact ⟨[], by simp, rfl, .nil⟩
  | @cons w line ws lines hline _ ih =>
    obtain ⟨hw, hws⟩ := List.forall_mem_cons.mp hws
    obtain ⟨i, hi, hlines, hemits⟩ := hline.exists_instruction hw
    obtain ⟨is, his, hrest, hall⟩ := ih hws
    refine ⟨i :: is, List.forall_mem_cons.mpr ⟨hi, his⟩, ?_, .cons hemits hall⟩
    rw [List.flatMap_cons, hlines, hrest]
    rfl

/-! ## Programs without labels -/

/-- A cell that neither refers to a label nor defines one. -/
def Cell.IsPlain (c : Cell) : Prop :=
  c.ref = none ∧ c.defines = none

theorem Emission.emitAll_of_emitsWord {is : List Instruction} {ws : List Int}
    (h : List.Forall₂ EmitsWord is ws) :
    ∃ cells, emitAll is = pure cells ∧ (∀ c ∈ cells, c.IsPlain) ∧ cells.map (·.value) = ws := by
  induction h with
  | nil => exact ⟨[], rfl, by simp, rfl⟩
  | @cons i w is ws hi _ ih =>
    obtain ⟨cells, hcells, hplain, rfl⟩ := ih
    refine ⟨{ value := w, line := some i.line } :: cells, ?_, ?_, rfl⟩
    · rw [emitAll, hi i.line, hcells, pure_bind, pure_bind, List.singleton_append]
    · exact List.forall_mem_cons.mpr ⟨⟨rfl, rfl⟩, hplain⟩

theorem SymbolTable.addAll_of_plain {cells : List Cell} (h : ∀ c ∈ cells, c.IsPlain)
    (t : SymbolTable) (index : Nat) : t.addAll index cells = ([], t) := by
  induction cells generalizing index with
  | nil => rfl
  | cons c cells ih =>
    obtain ⟨⟨href, hdefines⟩, hcells⟩ := List.forall_mem_cons.mp h
    have hadd : t.add index c = t := by simp [add, href, hdefines]
    have hnotices : t.redefinition index c = [] := by simp [redefinition, hdefines]
    simp only [addAll, hadd, hnotices, ih hcells, List.nil_append]

theorem Linking.run_of_plain {cells : List Cell} (h : ∀ c ∈ cells, c.IsPlain)
    (file : Option String) : run cells file = ⟨[.referencesResolved 0 0], .ok cells⟩ := by
  have htable : SymbolTable.ofCells cells = {} := by
    rw [SymbolTable.ofCells, SymbolTable.addAll_of_plain h]
  have hnotices : SymbolTable.redefinitions cells = [] := by
    rw [SymbolTable.redefinitions, SymbolTable.addAll_of_plain h]
  simp only [run, htable, hnotices]
  rfl

theorem Image.ofCells_of_plain (room : Room) {cells : List Cell} (hne : cells ≠ [])
    (h : ∀ c ∈ cells, c.IsPlain) (file : Option String) :
    ofCells room cells cells.length file = pure ⟨cells.map (·.value)⟩ := by
  have hlength : ¬ (cells.length : Int) ≤ 0 := by
    have := List.length_pos_iff.mpr hne
    omega
  have href : firstReference? cells = none :=
    List.findSome?_eq_none_iff.mpr fun c hc => (h c hc).1
  rw [ofCells, if_neg hlength, href]
  simp [zeros_of_holds room.holds_zero]

/-! ## Listings -/

namespace Assembly

/-- A program that emits a memory of given words and nothing else. -/
theorem stages_of_emitsWord (room : Room) {text : String} {file : Option String}
    {is : List Instruction} {ws : List Int} (hne : ws ≠ [])
    (hread : Source.read text file = (⟨is, none⟩ : Source.Reading).finish)
    (h : List.Forall₂ EmitsWord is ws) :
    stages room text ws.length file =
      ⟨[.instructionsRead is.length, .cellsEmitted ws.length, .referencesResolved 0 0],
        .ok ⟨ws⟩⟩ := by
  obtain ⟨cells, hcells, hplain, rfl⟩ := Emission.emitAll_of_emitsWord h
  rw [List.length_map]
  have hcells' : cells ≠ [] := fun hnil => hne (by rw [hnil]; rfl)
  have hrun : Emission.run is = ⟨[.cellsEmitted cells.length], .ok cells⟩ := by
    rw [Emission.run, hcells, pure_bind]
    rfl
  rw [stages, hread, Logged.bind_of_ok rfl, hrun, Logged.bind_of_ok rfl,
    Linking.run_of_plain hplain, Logged.bind_of_ok rfl, Image.ofCells_of_plain room hcells' hplain]
  rfl

/-- A listing of words is assembled to these words, without a warning. -/
theorem assemble_of_listed (room : Room) {ws : List Int} (hne : ws ≠ [])
    (hws : ∀ w ∈ ws, 0 ≤ w ∧ w < Word.modulus) {lines : List String}
    (hlines : List.Forall₂ Word.Listed ws lines) (file : Option String) :
    (assemble room ("\n".intercalate lines) ws.length file).result = .ok ⟨ws⟩ ∧
      ∀ notice ∈ (assemble room ("\n".intercalate lines) ws.length file).log,
        notice.isWarning = false := by
  obtain ⟨is, hwritable, hflat, hemits⟩ := exists_instructions_of_listed hws hlines
  -- the text has the lines of the instructions, none of which is empty or broken
  have htext : Text.lines ("\n".intercalate lines).toList = is.flatMap Instruction.lines := by
    rw [String.toList_intercalate, ← hflat]
    refine Text.lines_intercalate_lineFeed (fun l hl => ?_) fun l hl => ?_
    · obtain ⟨i, hi, hl⟩ := List.mem_flatMap.mp hl
      exact Source.ne_nil_of_mem_lines (hwritable i hi) hl
    · obtain ⟨i, hi, hl⟩ := List.mem_flatMap.mp hl
      exact Source.isLineBreak_of_mem_lines (hwritable i hi) hl
  obtain ⟨js, hread, hsame⟩ := Source.read_of_lines hwritable htext file
  -- the place of an instruction does not matter
  have hjs : List.Forall₂ EmitsWord js ws := by
    have hunplaced : List.Forall₂ EmitsWord (js.map unplaced) ws := by
      rw [hsame]
      exact (List.forall₂_map_left_iff (f := unplaced)).mpr hemits
    exact (List.forall₂_map_left_iff (f := unplaced)).mp hunplaced
  have hlength : ¬ (ws.length : Int) ≤ 0 := by
    have := List.length_pos_iff.mpr hne
    omega
  have hassemble : assemble room ("\n".intercalate lines) ws.length file =
      ⟨[.instructionsRead js.length, .cellsEmitted ws.length, .referencesResolved 0 0],
        .ok ⟨ws⟩⟩ := by
    rw [assemble, if_neg hlength, stages_of_emitsWord room hne hread hjs]
    rfl
  rw [hassemble]
  refine ⟨rfl, ?_⟩
  simp [Notice.isWarning, Notice.level]

/-- Both forms of an instruction, a word without an operation, and an operation listed as data. -/
theorem assemble_of_listed_mixed :
    let ws : List Int := [0x11000002, 0xFE00000A, 0x18ABCDEF, 0xFF000000]
    let lines := ["jmp 0x00000002", "lac [0x0000000A]", ".data 0x18ABCDEF", ".data 0xFF000000"]
    ws ≠ [] ∧ (∀ w ∈ ws, 0 ≤ w ∧ w < Word.modulus) ∧ List.Forall₂ Word.Listed ws lines ∧
      (assemble .countable ("\n".intercalate lines) ws.length (some "x.asm")).result = .ok ⟨ws⟩ ∧
      ∀ notice ∈ (assemble .countable ("\n".intercalate lines) ws.length (some "x.asm")).log,
        notice.isWarning = false := by
  intro ws lines
  have hne : ws ≠ [] := by decide
  have hws : ∀ w ∈ ws, 0 ≤ w ∧ w < Word.modulus := by decide
  have hlines : List.Forall₂ Word.Listed ws lines :=
    .cons (.direct (o := .jmp) rfl rfl) (.cons (.indirect (o := .lac) rfl rfl)
      (.cons .data (.cons .data .nil)))
  exact ⟨hne, hws, hlines, assemble_of_listed .countable hne hws hlines (some "x.asm")⟩

end Assembly

end AccumulatorAsm
