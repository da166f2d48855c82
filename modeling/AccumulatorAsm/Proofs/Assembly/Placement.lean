/-
  AccumulatorAsm.Proofs.Assembly.Placement

  What an assembled image holds, said of the instructions alone. The words of an instruction
  start behind those of all instructions before it; a label stands for the start of the last
  instruction that carries it and takes a word; and every word can be told from its instruction
  and these addresses, without cells, tables or links (`words_of_assemble`).
-/

import Mathlib.Algebra.GroupWithZero.Nat
import AccumulatorAsm.Proofs.Assembly.Stages
import AccumulatorAsm.Proofs.Emission
import AccumulatorAsm.Proofs.Word.Fields

namespace AccumulatorAsm

/-! ## Addresses in a program -/

namespace Program

/-- The address of the first word of an instruction: the sizes before it, added up. -/
def start (is : List Instruction) (index : Nat) : Nat :=
  ((is.take index).map Instruction.size).sum

/-- The number of words of a program. -/
def length (is : List Instruction) : Nat :=
  (is.map Instruction.size).sum

/-- The address of a label: the start of the last instruction that carries it and takes a
    word. -/
def IsAddress (is : List Instruction) (name : String) (address : Nat) : Prop :=
  ∃ j i, is[j]? = some i ∧ i.label = some name ∧ 0 < i.size ∧ address = start is j ∧
    ∀ k i', j < k → is[k]? = some i' → i'.label = some name → i'.size = 0

@[simp] theorem start_zero (is : List Instruction) : start is 0 = 0 := by
  simp [start]

@[simp] theorem start_cons_succ (i : Instruction) (is : List Instruction) (j : Nat) :
    start (i :: is) (j + 1) = i.size + start is j := by
  simp [start]

/-- An address in the rest of a program moves on by the size of the first instruction. -/
theorem IsAddress.cons {is : List Instruction} {name : String} {address : Nat}
    (h : IsAddress is name address) (i : Instruction) :
    IsAddress (i :: is) name (address + i.size) := by
  obtain ⟨j, i', hj, hl, hpos, rfl, hlast⟩ := h
  refine ⟨j + 1, i', hj, hl, hpos, by rw [start_cons_succ, Nat.add_comm], ?_⟩
  intro k i'' hk hk' hl'
  obtain ⟨k, rfl⟩ : ∃ m, k = m + 1 := ⟨k - 1, by omega⟩
  exact hlast k i'' (by omega) hk' hl'

end Program

/-! ## Words of an instruction -/

namespace Instruction

/-- Whether an instruction word has the indirect bit. -/
def isIndirect (i : Instruction) : Bool :=
  match i.firstOperand with
  | .ind _ => true
  | _ => i.indirect

/-- The number in the value field of an instruction word. -/
inductive FieldValue (is : List Instruction) (i : Instruction) : Int → Prop
  | imm {text : String} {value : Nat} (ho : i.firstOperand = .imm text)
      (hv : Literal.read text (some i.line) = .ok value) :
      FieldValue is i (value % Word.valueCount)
  | ind {text : String} {value : Nat} (ho : i.firstOperand = .ind text)
      (hv : Literal.read text (some i.line) = .ok value) :
      FieldValue is i (value % Word.valueCount)
  | sym {name : String} {address : Nat} (ho : i.firstOperand = .sym name)
      (ha : Program.IsAddress is name address) : FieldValue is i address

/-- The words an instruction stands for in a program. -/
inductive Denotes (is : List Instruction) (i : Instruction) : List Int → Prop
  | zero (hk : i.kind = .directive .zero) : Denotes is i [0]
  | string {text : String} (hk : i.kind = .directive .data) (ho : i.firstOperand = .str text) :
      Denotes is i (text.toList.map fun c => ((c.toNat % 0x100 : Nat) : Int))
  | address {name : String} {address : Nat} (hk : i.kind = .directive .data)
      (ho : i.firstOperand = .sym name) (ha : Program.IsAddress is name address) :
      Denotes is i [(address : Int)]
  | literal {text : String} {value : Nat} (hk : i.kind = .directive .data)
      (ho : i.firstOperand = .imm text) (hv : Literal.read text (some i.line) = .ok value) :
      Denotes is i [(value : Int)]
  | operation {o : Opcode} {word value : Int} (hk : i.kind = .opcode o)
      (hrange : 0 ≤ word ∧ word < Word.modulus)
      (hfields : Word.unpack word = ⟨i.isIndirect, o.number, value⟩)
      (hvalue : FieldValue is i value) : Denotes is i [word]

end Instruction

/-! ## From cells to words -/

open Instruction Program

variable {is : List Instruction} {parts : List (List Cell)}

theorem size_eq_zero_of_definition?_eq_none (h : List.Forall₂ Emits is parts) {name : String}
    (hnone : Cell.definition? parts.flatten name = none) :
    ∀ i ∈ is, i.label = some name → i.size = 0 := by
  induction h with
  | nil => simp
  | @cons i part is parts hpart _ ih =>
    rw [List.flatten_cons, Cell.definition?_append, Option.or_eq_none_iff, Option.map_eq_none_iff,
      hpart.definition?_eq] at hnone
    obtain ⟨hrest, hhead⟩ := hnone
    refine List.forall_mem_cons.mpr ⟨fun hl => ?_, ih hrest⟩
    by_contra hsize
    rw [if_pos ⟨hl, Nat.pos_of_ne_zero hsize⟩] at hhead
    cases hhead

/-- The cell that defines a label is the first of the last instruction that carries it. -/
theorem isAddress_of_definition? (h : List.Forall₂ Emits is parts) {name : String}
    {address : Nat} (hd : Cell.definition? parts.flatten name = some address) :
    IsAddress is name address := by
  induction h generalizing address with
  | nil => simp at hd
  | @cons i part is parts hpart hparts ih =>
    -- a later definition wins; only without one does that of `i` count
    rw [List.flatten_cons, Cell.definition?_append, hpart.length_eq, hpart.definition?_eq] at hd
    cases hrest : Cell.definition? parts.flatten name with
    | some later =>
      rw [hrest] at hd
      obtain rfl := Option.some.inj hd
      exact (ih hrest).cons i
    | none =>
      rw [hrest, Option.map_none, Option.none_or] at hd
      split at hd
      · next hhead =>
        obtain rfl := Option.some.inj hd
        have hnone := size_eq_zero_of_definition?_eq_none hparts hrest
        refine ⟨0, i, rfl, hhead.1, hhead.2, by simp, ?_⟩
        intro k i' hk hk' hl
        obtain ⟨k, rfl⟩ : ∃ m, k = m + 1 := ⟨k - 1, by omega⟩
        exact hnone i' (List.mem_of_getElem? hk') hl
      · cases hd

/-- The words of the cells of an instruction, once they are linked. -/
theorem denotes_of_emits {i : Instruction} {part cells : List Cell} {file : Option String}
    (hpart : i.Emits part)
    (haddress : ∀ name address, Cell.definition? cells name = some address →
      IsAddress is name address)
    (hlinked : ∀ c ∈ part, c.linkFailure? cells file = none) :
    Denotes is i (part.map fun c => (c.linked cells).value) := by
  have hnumber : ∀ o : Opcode, (o.number : Int) % Word.opcodeCount = o.number := fun o =>
    Int.emod_eq_of_lt (Int.natCast_nonneg _) (Int.ofNat_lt.mpr o.number_lt)
  -- a cell without reference is linked as it is
  have hcell : ∀ value : Int, ((i.cell value).linked cells).value = value := fun value => by
    rw [Cell.linked_of_ref_eq_none (cell_ref ..), cell_value]
  cases hpart with
  | zero hk =>
    rw [List.map_singleton, hcell]
    exact .zero hk
  | @string text hk ho =>
    have hwords : (i.stringCells text.toList).map (fun c => (c.linked cells).value) =
        text.toList.map fun c => ((c.toNat % 0x100 : Nat) : Int) := by
      cases text.toList with
      | nil => rfl
      | cons a cs =>
        simp [stringCells, Cell.linked, Instruction.cell]
    rw [hwords]
    exact .string hk ho
  | @address name hk ho =>
    obtain ⟨address, hd, hfits⟩ := Cell.exists_definition_of_linkFailure?_eq_none
      (hlinked _ List.mem_cons_self) (i.cell_ref 0 (some name))
    -- the address fits, so writing it into an empty word gives the address
    have hvalue : Word.withAddress 0 address = address := by
      rw [Word.withAddress, Word.emod_valueCount_of_fits hfits]
      simp
    rw [List.map_singleton, Cell.linked_of_definition (i.cell_ref 0 (some name)) hd, Cell.resolve,
      cell_value, hvalue]
    exact .address hk ho (haddress name address hd)
  | literal hk ho hv =>
    rw [List.map_singleton, hcell]
    exact .literal hk ho hv
  | @direct o text value hk ho hv =>
    rw [List.map_singleton, hcell]
    refine .operation hk ⟨Word.pack_nonneg .., Word.pack_lt ..⟩ ?_ (.imm ho hv)
    rw [Word.unpack_pack, hnumber]
    simp [isIndirect, ho]
  | @indirect o text value hk ho hv =>
    rw [List.map_singleton, hcell]
    refine .operation hk ⟨Word.pack_nonneg .., Word.pack_lt ..⟩ ?_ (.ind ho hv)
    rw [Word.unpack_pack, hnumber]
    simp [isIndirect, ho]
  | @reference o name hk ho =>
    obtain ⟨address, hd, hfits⟩ := Cell.exists_definition_of_linkFailure?_eq_none
      (hlinked _ List.mem_cons_self) (i.cell_ref (Word.pack 0 o.number i.indirect) (some name))
    -- writing an address into a packed word is packing the address
    have hvalue : ((i.cell (Word.pack 0 o.number i.indirect) (some name)).linked cells).value =
        Word.pack address o.number i.indirect := by
      rw [Cell.linked_of_definition (cell_ref ..) hd, Cell.resolve, cell_value,
        Word.withAddress_pack]
    rw [List.map_singleton, hvalue]
    refine .operation hk ⟨Word.pack_nonneg .., Word.pack_lt ..⟩ ?_
      (.sym ho (haddress name address hd))
    rw [Word.unpack_pack, hnumber, Word.emod_valueCount_of_fits hfits]
    simp [isIndirect, ho]

/-! ## Words in their place -/

theorem length_of_emits (h : List.Forall₂ Emits is parts) :
    parts.flatten.length = Program.length is := by
  induction h with
  | nil => rfl
  | cons hpart _ ih =>
    rw [List.flatten_cons, List.length_append, hpart.length_eq, ih]
    rfl

/-- The cells of an instruction stand at its start. -/
theorem exists_place_of_emits (h : List.Forall₂ Emits is parts) {j : Nat} {i : Instruction}
    (hj : is[j]? = some i) :
    ∃ before part after, parts.flatten = before ++ (part ++ after) ∧
      before.length = start is j ∧ i.Emits part := by
  induction h generalizing j with
  | nil => simp at hj
  | @cons i₀ part₀ is parts hpart _ ih =>
    cases j with
    | zero =>
      obtain rfl := Option.some.inj hj
      exact ⟨[], part₀, parts.flatten, rfl, by simp, hpart⟩
    | succ j =>
      obtain ⟨before, part, after, hparts, hlength, hemits⟩ := ih hj
      refine ⟨part₀ ++ before, part, after, ?_, ?_, hemits⟩
      · rw [List.flatten_cons, hparts, List.append_assoc]
      · rw [List.length_append, hlength, hpart.length_eq, start_cons_succ]

namespace Assembly

/-- An image has the words that the instructions denote, each at the start of its instruction,
    and zeros behind them. -/
theorem words_of_assemble (room : Room) {text : String} {length : Int} {file : Option String}
    {image : Image} (h : (assemble room text length file).result = .ok image) :
    ∃ is, (Source.read text file).result = .ok is ∧ (image.words.length : Int) = length ∧
      (∀ j i, is[j]? = some i →
        Denotes is i ((image.words.drop (Program.start is j)).take i.size)) ∧
      ∀ k, Program.length is ≤ k → k < image.words.length → image.words[k]? = some 0 := by
  obtain ⟨hlength, is, cells, zeros, hread, hcells, hlinked, hfits, hzeros, rfl⟩ :=
    exists_linked_of_assemble_ok h
  rw [Emission.result_run] at hcells
  obtain ⟨parts, hparts, rfl⟩ := Emission.emitAll_eq_ok_iff.mp hcells
  refine ⟨is, hread, ?_, ?_, ?_⟩
  · rw [List.length_append, List.length_map, Image.length_of_zeros hzeros]
    omega
  · intro j i hj
    obtain ⟨before, part, after, hplace, hstart, hpart⟩ := exists_place_of_emits hparts hj
    -- for every `f`, since the words of cells depend on the whole program
    have hslice : ∀ f : Cell → Int,
        ((parts.flatten.map f ++ zeros).drop (Program.start is j)).take i.size = part.map f := by
      intro f
      rw [hplace, ← hstart, ← hpart.length_eq]
      simp
    have hmem : ∀ c ∈ part, c ∈ parts.flatten := by
      intro c hc
      rw [hplace]
      exact List.mem_append_right _ (List.mem_append_left _ hc)
    rw [hslice]
    exact denotes_of_emits hpart (fun _ _ => isAddress_of_definition? hparts)
      fun c hc => hlinked c (hmem c hc)
  · -- behind the program there is only what fills the memory up
    intro k hk hlt
    rw [← length_of_emits hparts, ← List.length_map (fun c => (Cell.linked _ c).value)] at hk
    rw [List.getElem?_append_right hk, Image.eq_replicate_of_zeros hzeros]
    rw [List.length_append, Image.length_of_zeros hzeros] at hlt
    exact List.getElem?_replicate_of_lt (by omega)

/-- A label defined three times, the last time without a word; a string with a comma; a wide
    literal; both ways to address indirectly. -/
theorem words_of_assemble_redefined :
    (assemble .countable
      "$a:\n.zero\n$a:\n.data \"h,\"\njmpi $a // up\nlac [0x1000002], 7\n$a:\n.data \"\""
      6 none).result = .ok ⟨[0, 0x68, 0x2C, 0x91000001, 0xFE000002, 0]⟩ ∧
    ∃ is, (Source.read
        "$a:\n.zero\n$a:\n.data \"h,\"\njmpi $a // up\nlac [0x1000002], 7\n$a:\n.data \"\""
        none).result = .ok is ∧
      (([0, 0x68, 0x2C, 0x91000001, 0xFE000002, 0] : List Int).length : Int) = 6 ∧
      (∀ j i, is[j]? = some i → Denotes is i
        (([0, 0x68, 0x2C, 0x91000001, 0xFE000002, 0].drop (Program.start is j)).take i.size)) ∧
      ∀ k, Program.length is ≤ k → k < 6 →
        ([0, 0x68, 0x2C, 0x91000001, 0xFE000002, 0] : List Int)[k]? = some 0 :=
  ⟨rfl, words_of_assemble .countable rfl⟩

end Assembly

end AccumulatorAsm
