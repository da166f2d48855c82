/-
  AccumulatorAsm.Proofs.Assembly.Output

  The text that is written of an image says which image it is. Nothing but the emission keeps the
  cells of a program words: every form of an instruction emits words, and an address goes into a
  value field only, so an image is made of words (`words_range_of_assemble`) and none of them
  loses a bit when it is written (`hexText_of_assemble`).
-/

import AccumulatorAsm.Proofs.Assembly.Stages
import AccumulatorAsm.Proofs.Emission
import AccumulatorAsm.Proofs.ImageFormat
import AccumulatorAsm.Proofs.Literal
import AccumulatorAsm.Proofs.Word.Fields

namespace AccumulatorAsm

/-! ## Cells that are words -/

/-- An address goes into the value field and stays in it. -/
theorem Word.withAddress_range {w : Int} (h : 0 ≤ w ∧ w < modulus) (address : Int) :
    0 ≤ withAddress w address ∧ withAddress w address < modulus := by
  obtain ⟨hnonneg, hlt⟩ := h
  have hlt' : w < 0x100000000 := hlt
  rw [withAddress]
  show 0 ≤ w / 0x1000000 * 0x1000000 + address % 0x1000000 ∧
    w / 0x1000000 * 0x1000000 + address % 0x1000000 < 0x100000000
  omega

/-- Every form of an instruction emits words. -/
theorem Instruction.Emits.value_range {i : Instruction} {cells : List Cell} (h : i.Emits cells) :
    ∀ c ∈ cells, 0 ≤ c.value ∧ c.value < Word.modulus := by
  -- everything but a string has one cell
  have hsingle : ∀ (value : Int) (ref : Option String), 0 ≤ value ∧ value < Word.modulus →
      ∀ c ∈ [i.cell value ref], 0 ≤ c.value ∧ c.value < Word.modulus := by
    intro value ref hvalue c hc
    rwa [List.mem_singleton.mp hc, cell_value]
  have hpack : ∀ (value : Int) (o : Opcode) (indirect : Bool),
      0 ≤ Word.pack value o.number indirect ∧ Word.pack value o.number indirect < Word.modulus :=
    fun value o indirect => ⟨Word.pack_nonneg .., Word.pack_lt ..⟩
  cases h with
  | zero hk => exact hsingle 0 none (by decide)
  | @string text hk ho =>
    have hcell : ∀ d : Char, 0 ≤ ((d.toNat % 0x100 : Nat) : Int) ∧
        ((d.toNat % 0x100 : Nat) : Int) < Word.modulus := by
      intro d
      show _ ∧ _ < (0x100000000 : Int)
      omega
    intro c hc
    cases htext : text.toList with
    | nil => simp [htext, stringCells] at hc
    | cons a cs =>
      rw [htext, stringCells, List.mem_cons, List.mem_map] at hc
      rcases hc with rfl | ⟨d, -, rfl⟩
      · exact hcell a
      · exact hcell d
  | address hk ho => exact hsingle 0 _ (by decide)
  | @literal text value hk ho hv =>
    have hlt := Literal.read_lt hv
    refine hsingle value none ⟨Int.natCast_nonneg value, ?_⟩
    show _ < (0x100000000 : Int)
    omega
  | direct hk ho hv => exact hsingle _ none (hpack ..)
  | indirect hk ho hv => exact hsingle _ none (hpack ..)
  | reference hk ho => exact hsingle _ _ (hpack ..)

theorem value_range_of_emits {is : List Instruction} {parts : List (List Cell)}
    (h : List.Forall₂ Instruction.Emits is parts) :
    ∀ c ∈ parts.flatten, 0 ≤ c.value ∧ c.value < Word.modulus := by
  induction h with
  | nil => simp
  | cons hpart _ ih =>
    rw [List.flatten_cons]
    exact List.forall_mem_append.mpr ⟨hpart.value_range, ih⟩

theorem Cell.linked_value_range {cells : List Cell} {c : Cell}
    (h : 0 ≤ c.value ∧ c.value < Word.modulus) :
    0 ≤ (c.linked cells).value ∧ (c.linked cells).value < Word.modulus := by
  unfold linked
  split
  · exact Word.withAddress_range h _
  · exact h

namespace Assembly

variable {room : Room} {text : String} {length : Int} {file : Option String} {image : Image}

/-- An image is as long as the memory it was made for. -/
theorem length_of_assemble (h : (assemble room text length file).result = .ok image) :
    (image.words.length : Int) = length := by
  obtain ⟨hlength, is, cells, zeros, -, -, -, hfits, hzeros, rfl⟩ := exists_linked_of_assemble_ok h
  rw [List.length_append, List.length_map, Image.length_of_zeros hzeros]
  omega

/-- An image is made of words. -/
theorem words_range_of_assemble (h : (assemble room text length file).result = .ok image) :
    ∀ w ∈ image.words, 0 ≤ w ∧ w < Word.modulus := by
  obtain ⟨-, is, cells, zeros, -, hcells, -, -, hzeros, rfl⟩ := exists_linked_of_assemble_ok h
  rw [Emission.result_run] at hcells
  obtain ⟨parts, hparts, rfl⟩ := Emission.emitAll_eq_ok_iff.mp hcells
  intro w hw
  rcases List.mem_append.mp hw with hw | hw
  · obtain ⟨c, hc, rfl⟩ := List.mem_map.mp hw
    exact Cell.linked_value_range (value_range_of_emits hparts c hc)
  · rw [Image.eq_replicate_of_zeros hzeros] at hw
    rw [List.eq_of_mem_replicate hw]
    decide

/-- The written output holds the whole image: one line for each word of the memory, read back as
    that word. -/
theorem hexText_of_assemble (h : (assemble room text length file).result = .ok image) :
    (∀ w ∈ image.words, 0 ≤ w ∧ w < Word.modulus) ∧
      ∃ output, (assembleHex room text length file).result = .ok output ∧
        ImageFormat.HexText output length image.words := by
  have hrange := words_range_of_assemble h
  have htext := ImageFormat.hexText_render hrange
  rw [length_of_assemble h] at htext
  exact ⟨hrange, _, Logged.result_map_eq_ok.mpr ⟨image, h, rfl⟩, htext⟩

/-- A word with all bits set, an address beside the indirect bit, and a zero behind the program. -/
theorem hexText_of_assemble_all_bits :
    (assemble .countable "$a:\n.data 0xFFFFFFFF\n$b:\njmpi $b" 3 (some "x.asm")).result =
        .ok ⟨[0xFFFFFFFF, 0x91000001, 0]⟩ ∧
      (∀ w ∈ ([0xFFFFFFFF, 0x91000001, 0] : List Int), 0 ≤ w ∧ w < Word.modulus) ∧
      ∃ output,
        (assembleHex .countable "$a:\n.data 0xFFFFFFFF\n$b:\njmpi $b" 3 (some "x.asm")).result =
          .ok output ∧
        ImageFormat.HexText output 3 [0xFFFFFFFF, 0x91000001, 0] :=
  ⟨rfl, hexText_of_assemble rfl⟩

end Assembly

end AccumulatorAsm
