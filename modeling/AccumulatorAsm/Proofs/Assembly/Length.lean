/-
  AccumulatorAsm.Proofs.Assembly.Length

  What the length of the memory decides. It reaches neither addresses nor labels nor the choice of
  an earlier fault: a text either fails in one way for every length, or it has words that every
  length treats alike. A shorter memory refuses them and a longer one has zeros behind them
  (`pads_or_refuses`), as many as the machine can store. Where it cannot store them there is no
  image, so at a length that is too great to be counted a text with words is neither padded nor
  refused (`not_padded_beyond_count`).
-/

import Mathlib.Logic.Basic
import AccumulatorAsm.Proofs.Assembly.Outcome

namespace AccumulatorAsm

/-! ## Faults -/

/-- A lack of room in the memory. -/
def Fault.IsCapacity : Fault → Prop
  | .failure f => ∃ generated length, f.kind = .capacity generated length
  | .invalid _ => False

theorem Fault.Caused.not_isCapacity {fault : Fault} {file : Option String}
    (h : fault.Caused file) : ¬ fault.IsCapacity := by
  cases h with
  | failure cause line =>
    rintro ⟨generated, length, hkind⟩
    exact cause.kind_ne_capacity generated length hkind
  | overlong count => exact id

namespace Assembly

/-! ## One text at all lengths -/

/-- The same fault at every length, and not a lack of room. -/
def FailsAtEveryLength (room : Room) (text : String) (file : Option String) : Prop :=
  ∃ fault : Fault, ¬ fault.IsCapacity ∧
    ∀ length, 0 < length → (assemble room text length file).result = .error fault

/-- The words of a text at every length: a memory that is long enough has zeros behind the words, if
    the number of these is `storable`, and otherwise the zeros are the fault; any other memory
    refuses the words. -/
structure FilledUp (room : Room) (storable : Nat → Prop) (text : String) (file : Option String)
    (words : List Int) : Prop where
  image : ∀ length : Int, 0 < length → words.length ≤ length →
    storable (length.toNat - words.length) →
    (assemble room text length file).result =
      .ok ⟨words ++ List.replicate (length.toNat - words.length) 0⟩
  unstorable : ∀ length : Int, 0 < length → words.length ≤ length →
    ¬ storable (length.toNat - words.length) →
    (assemble room text length file).result =
      .error (.invalid (Room.refusal (length.toNat - words.length)))
  refused : ∀ length : Int, 0 < length → length < words.length →
    (assemble room text length file).result =
      .error (.failure (.overCapacity words.length length none none file))

variable {room : Room} {text : String} {file : Option String} {words : List Int}
  {storable : Nat → Prop}

/-- Words that are filled up are an image at the least length that has room for them, so a text
    that has words does not fail at every length. -/
theorem FilledUp.not_failsAtEveryLength (h : FilledUp room storable text file words)
    (hzero : storable 0) (hone : storable 1) : ¬ FailsAtEveryLength room text file := by
  rintro ⟨fault, -, hfails⟩
  -- an empty program needs one word all the same
  have hpos : 0 < max (words.length : Int) 1 := by omega
  have hroom : (words.length : Int) ≤ max (words.length : Int) 1 := by omega
  have hpad : (max (words.length : Int) 1).toNat - words.length = 0 ∨
      (max (words.length : Int) 1).toNat - words.length = 1 := by omega
  have hstorable : storable ((max (words.length : Int) 1).toNat - words.length) := by
    rcases hpad with hpad | hpad
    · rw [hpad]
      exact hzero
    · rw [hpad]
      exact hone
  have himage := h.image _ hpos hroom hstorable
  rw [hfails _ hpos] at himage
  cases himage

/-- A text whose cells can be linked has words. -/
theorem filledUp_of_linked {is : List Instruction} {cells : List Cell}
    (hread : (Source.read text file).result = .ok is)
    (hcells : (Emission.run is).result = .ok cells)
    (hlinked : ∀ c ∈ cells, c.linkFailure? cells file = none) :
    FilledUp room (room.holds ·) text file (cells.map fun c => (c.linked cells).value) := by
  refine ⟨?_, ?_, ?_⟩
  · intro length hpos hroom hzeros
    rw [List.length_map] at hroom hzeros ⊢
    rw [assemble_of_linked hpos hread hcells hlinked, if_neg (Int.not_lt.mpr hroom),
      Image.zeros_of_holds hzeros]
  · intro length hpos hroom hzeros
    rw [List.length_map] at hroom hzeros ⊢
    rw [assemble_of_linked hpos hread hcells hlinked, if_neg (Int.not_lt.mpr hroom),
      Image.zeros_of_not_holds hzeros]
  · intro length hpos hlong
    rw [List.length_map] at hlong ⊢
    rw [assemble_of_linked hpos hread hcells hlinked, if_pos hlong]

/-- A text fails at every length or has words. -/
theorem failsAtEveryLength_or_filledUp (room : Room) (hsize : WordsAtMost Word.valueCount text)
    (file : Option String) :
    FailsAtEveryLength room text file ∨ ∃ words, FilledUp room (room.holds ·) text file words := by
  rcases stages_cases text file with ⟨fault, hread⟩ | ⟨is, hread, hrest⟩
  · -- a line is rejected
    have hcaused := Source.caused_of_read hread
    refine .inl ⟨fault, hcaused.not_isCapacity, fun length hpos => ?_⟩
    rw [assemble_of_read_error hpos hread, hcaused.withFile_self]
  rcases hrest with ⟨fault, hcells⟩ | ⟨cells, hcells, hrest⟩
  · -- an instruction is refused
    have hcaused := (Emission.caused_of_run hcells).withFile file
    exact .inl ⟨_, hcaused.not_isCapacity, fun length hpos =>
      assemble_of_emission_error hpos hread hcells⟩
  rcases hrest with ⟨failure, hfailure⟩ | hlinked
  · -- a label is undefined; since all addresses fit, linking has no other failure
    obtain ⟨c, -, hc⟩ := List.exists_of_findSome?_eq_some hfailure
    obtain ⟨name, -, -, rfl⟩ :=
      (Cell.linkFailure?_eq_some_iff (hsize.length_le hread hcells)).mp hc
    exact .inl ⟨_, (Fault.Caused.failure _ _).not_isCapacity, fun length hpos =>
      assemble_of_linkFailure hpos hread hcells hfailure⟩
  · exact .inr ⟨_, filledUp_of_linked hread hcells hlinked⟩

/-- No value but a number in the text or the length itself is ever invalid. -/
theorem invalid_of_assemble {length : Int} {v : InvalidValue} (hlength : 0 < length)
    (h : (assemble room text length file).result = .error (.invalid v)) :
    (∃ count, v = .tooManyDigits count) ∨
      (v = .uncountableLength ∨ v = .outOfMemory) ∧ ¬ room.holds length.toNat := by
  rcases stages_cases text file with ⟨fault, hread⟩ | ⟨is, hread, hrest⟩
  · have hcaused := Source.caused_of_read hread
    rw [assemble_of_read_error hlength hread, hcaused.withFile_self] at h
    obtain rfl := Except.error.inj h
    exact .inl hcaused.eq_tooManyDigits
  rcases hrest with ⟨fault, hcells⟩ | ⟨cells, hcells, hrest⟩
  · have hcaused := (Emission.caused_of_run hcells).withFile file
    rw [assemble_of_emission_error hlength hread hcells] at h
    rw [Except.error.inj h] at hcaused
    exact .inl hcaused.eq_tooManyDigits
  rcases hrest with ⟨failure, hfailure⟩ | hlinked
  · rw [assemble_of_linkFailure hlength hread hcells hfailure] at h
    cases h
  · -- only the zeros are left
    rw [assemble_of_linked hlength hread hcells hlinked] at h
    by_cases hlong : length < cells.length
    · rw [if_pos hlong] at h
      cases h
    rw [if_neg hlong] at h
    by_cases hzeros : room.holds (length.toNat - cells.length)
    · rw [Image.zeros_of_holds hzeros] at h
      cases h
    rw [Image.zeros_of_not_holds hzeros] at h
    obtain rfl := Fault.invalid.inj (Except.error.inj h)
    refine .inr ⟨Room.refusal_eq_or _, fun hholds => hzeros ?_⟩
    exact room.holds_of_le (Nat.sub_le ..) hholds

/-- Of two images of one text the longer has zeros behind the words of the shorter. -/
theorem words_append_of_length_le {length length' : Int} {image image' : Image}
    (h : (assemble room text length file).result = .ok image)
    (h' : (assemble room text length' file).result = .ok image') (hle : length ≤ length') :
    image'.words = image.words ++ List.replicate (length' - length).toNat 0 := by
  obtain ⟨hpos, is, cells, zeros, hread, hcells, hlinked, hroom, hzeros, rfl⟩ :=
    exists_linked_of_assemble_ok h
  obtain ⟨-, is', cells', zeros', hread', hcells', -, hroom', hzeros', rfl⟩ :=
    exists_linked_of_assemble_ok h'
  obtain rfl := Except.ok.inj (hread.symm.trans hread')
  obtain rfl := Except.ok.inj (hcells.symm.trans hcells')
  have hcount : length'.toNat - cells.length =
      length.toNat - cells.length + (length' - length).toNat := by omega
  rw [Image.eq_replicate_of_zeros hzeros, Image.eq_replicate_of_zeros hzeros', hcount,
    List.replicate_add, List.append_assoc]

/-! ## The two cases -/

/-- A text fails in one way at every length, or else it has words that are refused by every memory
    that is too short and filled up in every other whose zeros the machine can store. Of two images
    the shorter begins the longer, and the rest of that is zero. -/
theorem pads_or_refuses (room : Room) (hsize : WordsAtMost Word.valueCount text)
    (file : Option String) :
    Xor (FailsAtEveryLength room text file)
        (∃ words, FilledUp room (room.holds ·) text file words) ∧
      ∀ (length length' : Int) (image image' : Image),
        (assemble room text length file).result = .ok image →
        (assemble room text length' file).result = .ok image' → length ≤ length' →
        image'.words = image.words ++ List.replicate (length' - length).toNat 0 := by
  refine ⟨?_, fun _ _ _ _ h h' hle => words_append_of_length_le h h' hle⟩
  rcases failsAtEveryLength_or_filledUp room hsize file with hfails | ⟨words, hfilled⟩
  · refine .inl ⟨hfails, ?_⟩
    rintro ⟨words, hfilled⟩
    exact hfilled.not_failsAtEveryLength room.holds_zero room.holds_one hfails
  · refine .inr ⟨⟨words, hfilled⟩, ?_⟩
    exact hfilled.not_failsAtEveryLength room.holds_zero room.holds_one

/-- Three words of a string and a reference to it, in memories of one word, three and five. -/
theorem pads_or_refuses_string :
    let text := "$s: // text\n.data \"a,\"\njmpi $s"
    WordsAtMost Word.valueCount text ∧
      Xor (FailsAtEveryLength .countable text (some "p.asm"))
        (∃ words, FilledUp .countable (Room.countable.holds ·) text (some "p.asm") words) ∧
      (assemble .countable text 1 (some "p.asm")).result =
        .error (.failure (.overCapacity 3 1 none none (some "p.asm"))) ∧
      (assemble .countable text 3 (some "p.asm")).result = .ok ⟨[0x61, 0x2C, 0x91000000]⟩ ∧
      (assemble .countable text 5 (some "p.asm")).result = .ok ⟨[0x61, 0x2C, 0x91000000, 0, 0]⟩ ∧
      [0x61, 0x2C, 0x91000000, 0, 0] =
        [0x61, 0x2C, 0x91000000] ++ List.replicate (5 - 3 : Int).toNat (0 : Int) := by
  have hsize : WordsAtMost Word.valueCount "$s: // text\n.data \"a,\"\njmpi $s" :=
    wordsAtMost_of_eq rfl rfl (by decide)
  obtain ⟨hxor, hprefix⟩ := pads_or_refuses .countable hsize (some "p.asm")
  exact ⟨hsize, hxor, rfl, rfl, rfl, hprefix 3 5 _ _ rfl rfl (by decide)⟩

/-- No words of the empty text are filled up at every length: it has an image of one zero, but
    there are no images of more zeros than can be counted. -/
theorem not_padded_beyond_count :
    WordsAtMost Word.valueCount "" ∧
      ¬ Xor (FailsAtEveryLength .countable "" none)
        (∃ words, FilledUp .countable (fun _ => True) "" none words) := by
  refine ⟨wordsAtMost_of_eq rfl rfl (by decide), ?_⟩
  have hone : (assemble .countable "" 1 none).result = .ok ⟨[0]⟩ := rfl
  have hlong : (assemble .countable "" 0x8000000000000000 none).result =
      .error (.invalid .uncountableLength) := rfl
  rintro (⟨⟨fault, -, hfails⟩, -⟩ | ⟨⟨words, hfilled⟩, -⟩)
  · rw [hfails 1 (by decide)] at hone
    cases hone
  · -- whatever the words are, that length neither pads nor refuses them
    by_cases hroom : (words.length : Int) ≤ 0x8000000000000000
    · rw [hfilled.image _ (by decide) hroom trivial] at hlong
      cases hlong
    · rw [hfilled.refused _ (by decide) (Int.not_le.mp hroom)] at hlong
      cases hlong

end Assembly

end AccumulatorAsm
