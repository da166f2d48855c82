/-
  AccumulatorAsm.Proofs.Assembly.Definitions

  What becomes of the labels of instructions. The first cell of an instruction takes its label
  along, so the table has an address for every label of an instruction with a cell, and for no
  other name (`labels_of_emits`, `mem_definedNames_iff`). The one form without a cell is `.data`
  with an empty string: there the label has no cell to stand for, and if no other instruction
  carries it too, a reference to it is undefined (`label_lost_of_empty_string`).
-/

import AccumulatorAsm.Proofs.Assembly.Stages
import AccumulatorAsm.Proofs.Emission
import AccumulatorAsm.Proofs.Source.Reading

namespace AccumulatorAsm

/-! ## Labels of cells -/

namespace Instruction

/-- The directive that emits no cell. -/
def IsEmptyString (i : Instruction) : Prop :=
  i.kind = .directive .data ∧ i.firstOperand = .str ""

/-- The label that the cells of an instruction define, if it has cells. -/
def definedLabel? (i : Instruction) : Option String :=
  if i.size = 0 then none else i.label

theorem size_eq_zero_iff {i : Instruction} : i.size = 0 ↔ i.IsEmptyString := by
  unfold size IsEmptyString
  split
  · next text hk ho =>
    rw [List.length_eq_zero_iff, String.toList_eq_nil_iff]
    simp [hk, ho]
  · next hother =>
    simp only [Nat.one_ne_zero, false_iff, not_and]
    intro hk ho
    exact hother "" hk ho

theorem definedLabel?_eq_some_iff {i : Instruction} {name : String} :
    i.definedLabel? = some name ↔ i.label = some name ∧ ¬ i.IsEmptyString := by
  rw [← size_eq_zero_iff, definedLabel?]
  by_cases hsize : i.size = 0
  · simp [hsize]
  · simp [hsize]

/-- The first cell of an instruction takes the label along, and no other cell does. -/
theorem Emits.labels_eq {i : Instruction} {cells : List Cell} (h : i.Emits cells) :
    Cell.labels cells = i.definedLabel?.toList := by
  -- everything but a string has one cell
  have hsingle : ∀ (value : Int) (ref : Option String), i.size = 1 →
      Cell.labels [i.cell value ref] = i.definedLabel?.toList := by
    intro value ref hsize
    rw [definedLabel?, hsize]
    cases hl : i.label <;> simp [Cell.labels, hl]
  have hlength := h.length_eq
  cases h with
  | @string text hk ho =>
    cases htext : text.toList with
    | nil =>
      have hsize : i.size = 0 := by simp [size, hk, ho, htext]
      rw [definedLabel?, if_pos hsize]
      rfl
    | cons c cs =>
      have hsize : i.size ≠ 0 := by simp [size, hk, ho, htext]
      rw [definedLabel?, if_neg hsize]
      cases hl : i.label <;> simp [Cell.labels, stringCells, hl]
  | zero | address | literal | direct | indirect | reference => exact hsingle _ _ hlength.symm

end Instruction

open Instruction

/-- The labels that the cells of a program define are those of its instructions with cells, in
    their order. -/
theorem labels_of_emits {is : List Instruction} {parts : List (List Cell)}
    (h : List.Forall₂ Emits is parts) :
    Cell.labels parts.flatten = is.filterMap (·.definedLabel?) := by
  induction h with
  | nil => rfl
  | @cons i part is parts hpart _ ih =>
    have hsplit : Cell.labels (part ++ parts.flatten) =
        Cell.labels part ++ Cell.labels parts.flatten := List.filterMap_append
    rw [List.flatten_cons, hsplit, hpart.labels_eq, ih]
    cases hl : i.definedLabel? <;> simp [hl]

/-- The names with an address are the labels of the instructions with cells. -/
theorem mem_definedNames_iff {is : List Instruction} {cells : List Cell}
    (hcells : (Emission.run is).result = .ok cells) {name : String} :
    name ∈ (SymbolTable.ofCells cells).pointees.map Prod.fst ↔
      ∃ i ∈ is, i.label = some name ∧ ¬ i.IsEmptyString := by
  rw [Emission.result_run] at hcells
  obtain ⟨parts, hparts, rfl⟩ := Emission.emitAll_eq_ok_iff.mp hcells
  rw [SymbolTable.definedNames_ofCells, List.mem_eraseDups, labels_of_emits hparts,
    List.mem_filterMap]
  simp only [definedLabel?_eq_some_iff]

/-! ## Undefined labels -/

/-- The message for an undefined label names it. -/
theorem Cause.undefinedLabel_message_inj {name name' : String}
    (h : (undefinedLabel name).message = (undefinedLabel name').message) : name = name' := by
  have htext : "etiqueta no definida: '" ++ name ++ "'" =
      "etiqueta no definida: '" ++ name' ++ "'" := h
  exact (String.append_right_inj _).mp ((String.append_left_inj _).mp htext)

/-- Linking finds a label undefined only if no cell defines it. -/
theorem Cell.not_mem_labels_of_linkFailure? {cells : List Cell} {c : Cell}
    {file file' : Option String} {line : Option Int} {name : String}
    (h : c.linkFailure? cells file = some ((Cause.undefinedLabel name).atLine line file')) :
    name ∉ labels cells := by
  unfold linkFailure? at h
  split at h
  · cases h
  · next name' href =>
    split at h
    · next hundefined =>
      have hmessage := congrArg (·.diagnostic.message) (Option.some.inj h)
      obtain rfl := Cause.undefinedLabel_message_inj hmessage
      rw [definition?_eq_none_iff] at hundefined
      intro hmem
      obtain ⟨d, hd, hdefines⟩ := List.mem_filterMap.mp hmem
      exact hundefined d hd hdefines
    · split at h
      · cases h
      · have hkind := congrArg (·.kind) (Option.some.inj h)
        cases hkind

namespace Assembly

variable {text : String} {is : List Instruction} {cells : List Cell}

/-- A text that can be read and emitted fails for an undefined label only if no cell defines the
    label. -/
theorem not_mem_labels_of_assemble (hread : (Source.read text).result = .ok is)
    (hcells : (Emission.run is).result = .ok cells) {room : Room} {length : Int}
    {file file' : Option String} {line : Option Int} {name : String}
    (h : (assemble room text length file).result =
      .error (.failure ((Cause.undefinedLabel name).atLine line file'))) :
    name ∉ Cell.labels cells := by
  have hlength : 0 < length := by
    by_contra hneg
    rw [assemble, if_pos (Int.not_lt.mp hneg)] at h
    cases h
  have hread' : (Source.read text file).result = .ok is :=
    Source.read_eq_ok_iff.mpr (Source.read_eq_ok_iff.mp hread)
  cases hfind : cells.findSome? (·.linkFailure? cells file) with
  | some failure =>
    rw [assemble_of_linkFailure hlength hread' hcells hfind] at h
    obtain rfl := Fault.failure.inj (Except.error.inj h)
    obtain ⟨c, -, hc⟩ := List.exists_of_findSome?_eq_some hfind
    exact Cell.not_mem_labels_of_linkFailure? hc
  | none =>
    -- then the length decides, and its failures are of another kind
    rw [assemble_of_linked hlength hread' hcells (List.findSome?_eq_none_iff.mp hfind)] at h
    split at h
    · have hkind := congrArg (·.kind) (Fault.failure.inj (Except.error.inj h))
      cases hkind
    · split at h <;> cases h

/-- The table has an address for the labels of all instructions but empty strings and for no other
    name, so none of these labels is ever reported undefined. -/
theorem labels_defined (hread : (Source.read text).result = .ok is)
    (hcells : (Emission.run is).result = .ok cells) :
    (∀ name, name ∈ (SymbolTable.ofCells cells).pointees.map Prod.fst ↔
        ∃ i ∈ is, i.label = some name ∧ ¬ i.IsEmptyString) ∧
      ∀ (room : Room) (length : Int) (file file' : Option String) (line : Option Int)
        (name : String),
        (∃ i ∈ is, i.label = some name ∧ ¬ i.IsEmptyString) →
        (assemble room text length file).result ≠
          .error (.failure ((Cause.undefinedLabel name).atLine line file')) := by
  refine ⟨fun name => mem_definedNames_iff hcells, ?_⟩
  intro room length file file' line name hcarried hfailure
  have hmem := (mem_definedNames_iff hcells).mpr hcarried
  rw [SymbolTable.definedNames_ofCells, List.mem_eraseDups] at hmem
  exact not_mem_labels_of_assemble hread hcells hfailure hmem

/-- A label on a string, and one on an empty string that a later instruction carries too. -/
theorem labels_defined_strings :
    let text := "$a:\n.data \"hi\"\n$b:\n.data \"\"\n$b:\njmp $b"
    let is : List Instruction :=
      [{ kind := .directive .data, operands := [.str "hi"], label := some "a", line := 2 },
       { kind := .directive .data, operands := [.str ""], label := some "b", line := 4 },
       { kind := .opcode .jmp, operands := [.sym "b"], label := some "b", line := 6 }]
    let cells : List Cell :=
      [{ value := 0x68, defines := some "a", line := some 2 }, { value := 0x69, line := some 2 },
       { value := 0x11000000, ref := some "b", defines := some "b", line := some 6 }]
    (Source.read text).result = .ok is ∧ (Emission.run is).result = .ok cells ∧
      (∀ name, name ∈ (SymbolTable.ofCells cells).pointees.map Prod.fst ↔
        ∃ i ∈ is, i.label = some name ∧ ¬ i.IsEmptyString) ∧
      (∃ i ∈ is, i.label = some "b" ∧ ¬ i.IsEmptyString) ∧
      (assemble .countable text 2 none).result ≠
        .error (.failure ((Cause.undefinedLabel "b").atLine (some 6) none)) := by
  intro text is cells
  have hread : (Source.read text).result = .ok is := by decide
  have hcells : (Emission.run is).result = .ok cells := by decide
  obtain ⟨hnames, hdefined⟩ := labels_defined hread hcells
  have hcarried : ∃ i ∈ is, i.label = some "b" ∧ ¬ i.IsEmptyString :=
    (hnames "b").mp (by decide)
  exact ⟨hread, hcells, hnames, hcarried, hdefined .countable 2 none none (some 6) "b" hcarried⟩

/-- The label of an empty string is lost, and the reference to it undefined. -/
theorem label_lost_of_empty_string :
    ∃ is cells, (Source.read "$a:\n.data \"\"\njmp $a").result = .ok is ∧
      (Emission.run is).result = .ok cells ∧
      (∃ i ∈ is, i.label = some "a") ∧
      "a" ∉ (SymbolTable.ofCells cells).pointees.map Prod.fst ∧
      (assemble .countable "$a:\n.data \"\"\njmp $a" 4 none).result =
        .error (.failure ((Cause.undefinedLabel "a").atLine (some 3) none)) :=
  ⟨_, _, rfl, rfl, ⟨_, List.mem_cons_self, rfl⟩, by decide, rfl⟩

end Assembly

end AccumulatorAsm
