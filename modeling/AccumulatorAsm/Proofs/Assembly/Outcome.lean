/-
  AccumulatorAsm.Proofs.Assembly.Outcome

  How an assembly ends, and which of several faults it reports. `Outcome` lists the endings in
  their order of precedence: a line that is rejected, an instruction that cannot be encoded, a
  reference without definition, too many words, more zeros than can be stored, and the image. Each
  asks that none before it applies, so exactly one does, and it is the result
  (`assemble_eq_iff_outcome`). The zeros are a matter of the machine, but even one that stores
  whatever can be counted does not have them at every length (`not_outcome_beyond_count`).

  The faults that emission and linking keep in reserve (unknown directives, reserved operands,
  addresses too wide for the value field, cells that are to be resolved but wait for no address,
  references left over after linking) do not occur.
-/

import AccumulatorAsm.Proofs.Assembly.Stages
import AccumulatorAsm.Proofs.Emission
import AccumulatorAsm.Proofs.Literal
import AccumulatorAsm.Proofs.Source.Reading

namespace AccumulatorAsm

/-! ## Instructions that cannot be encoded -/

/-- The fault of an instruction that cannot be encoded: a string for an operation, an indirect
    operand for `.data`, or a literal in use that is refused. -/
inductive Instruction.Unencodable (file : Option String) (i : Instruction) : Fault → Prop
  | string {o : Opcode} {text : String} (hk : i.kind = .opcode o)
      (ho : i.firstOperand = .str text) :
      Unencodable file i
        (.failure ((Cause.opcodeOperand o (.str text)).atLine (some i.line) file))
  | indirect {text : String} (hk : i.kind = .directive .data) (ho : i.firstOperand = .ind text) :
      Unencodable file i (.failure ((Cause.dataOperand (.ind text)).atLine (some i.line) file))
  | unsupported {text : String} {failure : Failure} (hu : i.usedLiteral? = some text)
      (hl : Literal.read text (some i.line) = .error (.failure failure))
      (hkind : failure.kind = .unsupported) (hline : failure.diagnostic.line = some i.line) :
      Unencodable file i (.failure (failure.withFile file))
  | overlong {text : String} {count : Nat} (hu : i.usedLiteral? = some text)
      (hl : Literal.IsOverlong text count) :
      Unencodable file i (.invalid (.tooManyDigits count))

theorem Instruction.Unencodable.exists_refuses {file : Option String} {i : Instruction}
    {fault : Fault} (h : i.Unencodable file fault) :
    ∃ fault', i.Refuses fault' ∧ fault'.withFile file = fault := by
  cases h with
  | string hk ho => exact ⟨_, .opcodeString hk ho, by simp⟩
  | indirect hk ho => exact ⟨_, .indirectData hk ho, by simp⟩
  | unsupported hu hl => exact ⟨_, .badLiteral hu hl, rfl⟩
  | overlong hu hl => exact ⟨_, .badLiteral hu (Literal.read_of_isOverlong hl _), rfl⟩

/-- The instructions that the reader makes are refused for no other reason. -/
theorem Instruction.Refuses.unencodable {i : Instruction} {fault : Fault} (h : i.Refuses fault)
    (hi : i.Regular) (file : Option String) : i.Unencodable file (fault.withFile file) := by
  cases h with
  | unknownDirective hk => exact absurd hk (hi.directive _)
  | indirectData hk ho => simpa using Unencodable.indirect hk ho
  | dataExpression hk ho => exact absurd ho (hi.firstOperand_ne_expr _)
  | expression hk ho => exact absurd ho (hi.firstOperand_ne_expr _)
  | opcodeString hk ho => simpa using Unencodable.string hk ho
  | badLiteral hu hl =>
    rcases Literal.read_eq_error_cases hl with ⟨count, hlong, rfl⟩ | ⟨cause, hkind, rfl⟩
    · exact .overlong hu hlong
    · exact .unsupported hu hl hkind rfl

theorem Instruction.exists_emits_of_not_unencodable {i : Instruction} (hi : i.Regular)
    {file : Option String} (h : ∀ fault, ¬ i.Unencodable file fault) :
    ∃ cells, i.Emits cells := by
  rcases i.emits_or_refuses with hcells | ⟨fault, hfault⟩
  · exact hcells
  · exact absurd (hfault.unencodable hi file) (h _)

theorem Instruction.Emits.not_unencodable {i : Instruction} {cells : List Cell}
    (h : i.Emits cells) (file : Option String) (fault : Fault) : ¬ i.Unencodable file fault := by
  intro hfault
  obtain ⟨fault', hrefuses, -⟩ := hfault.exists_refuses
  have hboth := h.result.symm.trans hrefuses.result
  cases hboth

namespace Assembly

/-! ## Endings -/

/-- A text whose program, if it has one, has at most `limit` words. -/
def WordsAtMost (limit : Int) (text : String) : Prop :=
  ∀ is cells, (Source.read text).result = .ok is → (Emission.run is).result = .ok cells →
    (cells.length : Int) ≤ limit

/-- Every reference of a cell is to a label that some cell defines. -/
def Defined (cells : List Cell) (c : Cell) : Prop :=
  ∀ name, c.ref = some name → ∃ d ∈ cells, d.defines = some name

/-- The endings of an assembly, where zeros of a `storable` number fit behind the words. -/
inductive Outcome (storable : Nat → Prop) (text : String) (length : Int) (file : Option String) :
    Except Fault Image → Prop
  /-- The first line that is rejected, by its number. -/
  | rejected {before after : List (Int × String)} {lineno : Int} {raw : String} {cause : Cause}
      (hlines : Text.numberedLines text = before ++ (lineno, raw) :: after)
      (hbefore : ∀ l ∈ before, ∃ line, Source.Line.read l.2 = .ok line)
      (hraw : Source.Line.read raw = .error cause) (hlineno : lineno = before.length + 1) :
      Outcome storable text length file (.error (.failure (cause.atLine (some lineno) file)))
  /-- The first instruction that cannot be encoded. -/
  | unencodable {is before after : List Instruction} {i : Instruction} {fault : Fault}
      (hread : (Source.read text file).result = .ok is) (his : is = before ++ i :: after)
      (hbefore : ∀ j ∈ before, ∀ fault', ¬ j.Unencodable file fault')
      (hi : i.Unencodable file fault) : Outcome storable text length file (.error fault)
  /-- The first word with a reference to a label that no word defines. -/
  | undefined {is : List Instruction} {cells before after : List Cell} {c : Cell} {name : String}
      (hread : (Source.read text file).result = .ok is)
      (hemit : (Emission.run is).result = .ok cells) (hcells : cells = before ++ c :: after)
      (hbefore : ∀ d ∈ before, Defined cells d) (href : c.ref = some name)
      (hname : ∀ d ∈ cells, d.defines ≠ some name) :
      Outcome storable text length file
        (.error (.failure ((Cause.undefinedLabel name).atLine c.line file)))
  /-- More words than the memory has. -/
  | overCapacity {is : List Instruction} {cells : List Cell}
      (hread : (Source.read text file).result = .ok is)
      (hemit : (Emission.run is).result = .ok cells) (hdefined : ∀ c ∈ cells, Defined cells c)
      (hlong : length < cells.length) :
      Outcome storable text length file
        (.error (.failure (.overCapacity cells.length length none none file)))
  /-- The words of the program, each with its address written in, and zeros behind them. -/
  | image {is : List Instruction} {cells : List Cell}
      (hread : (Source.read text file).result = .ok is)
      (hemit : (Emission.run is).result = .ok cells) (hdefined : ∀ c ∈ cells, Defined cells c)
      (hfits : (cells.length : Int) ≤ length) (hzeros : storable (length.toNat - cells.length)) :
      Outcome storable text length file (.ok ⟨cells.map (fun c => (c.linked cells).value) ++
        List.replicate (length.toNat - cells.length) 0⟩)
  /-- A memory with more zeros behind the program than can be stored. -/
  | unstorable {is : List Instruction} {cells : List Cell}
      (hread : (Source.read text file).result = .ok is)
      (hemit : (Emission.run is).result = .ok cells) (hdefined : ∀ c ∈ cells, Defined cells c)
      (hfits : (cells.length : Int) ≤ length)
      (hzeros : ¬ storable (length.toNat - cells.length)) :
      Outcome storable text length file
        (.error (.invalid (Room.refusal (length.toNat - cells.length))))

variable {room : Room} {text : String} {length : Int} {file : Option String}

/-- A cell whose references are defined can be linked, if the addresses fit. -/
theorem linkFailure?_eq_none_of_defined {cells : List Cell} {c : Cell}
    (hsize : (cells.length : Int) ≤ Word.valueCount) (h : Defined cells c)
    (file : Option String) : c.linkFailure? cells file = none := by
  cases hfailure : c.linkFailure? cells file with
  | none => rfl
  | some failure =>
    obtain ⟨name, href, hundefined, -⟩ := (Cell.linkFailure?_eq_some_iff hsize).mp hfailure
    obtain ⟨d, hd, hdefines⟩ := h name href
    exact absurd hdefines (hundefined d hd)

theorem defined_of_linkFailure?_eq_none {cells : List Cell} {c : Cell} {file : Option String}
    (h : c.linkFailure? cells file = none) : Defined cells c := by
  intro name href
  obtain ⟨address, hd, -⟩ := Cell.exists_definition_of_linkFailure?_eq_none h href
  by_contra hnone
  have hundefined : Cell.definition? cells name = none :=
    Cell.definition?_eq_none_iff.mpr fun d hd hdefines => hnone ⟨d, hd, hdefines⟩
  rw [hundefined] at hd
  cases hd

theorem WordsAtMost.length_le {limit : Int} (h : WordsAtMost limit text)
    {is : List Instruction} {cells : List Cell} (hread : (Source.read text file).result = .ok is)
    (hemit : (Emission.run is).result = .ok cells) : (cells.length : Int) ≤ limit :=
  h is cells (Source.read_eq_ok_iff.mpr (Source.read_eq_ok_iff.mp hread)) hemit

/-- A program of defined references can be linked. -/
theorem WordsAtMost.linkFailure?_eq_none (h : WordsAtMost Word.valueCount text)
    {is : List Instruction} {cells : List Cell} (hread : (Source.read text file).result = .ok is)
    (hemit : (Emission.run is).result = .ok cells) (hdefined : ∀ c ∈ cells, Defined cells c) :
    ∀ c ∈ cells, c.linkFailure? cells file = none := by
  intro c hc
  exact linkFailure?_eq_none_of_defined (h.length_le hread hemit) (hdefined c hc) file

theorem wordsAtMost_of_eq {limit : Int} {is : List Instruction} {cells : List Cell}
    (hread : (Source.read text).result = .ok is) (hemit : (Emission.run is).result = .ok cells)
    (h : (cells.length : Int) ≤ limit) : WordsAtMost limit text := by
  intro is' cells' hread' hemit'
  obtain rfl := Except.ok.inj (hread.symm.trans hread')
  obtain rfl := Except.ok.inj (hemit.symm.trans hemit')
  exact h

/-- Every ending is the result where it applies. -/
theorem Outcome.result_eq {r : Except Fault Image} (hlength : 0 < length)
    (hsize : WordsAtMost Word.valueCount text) (h : Outcome (room.holds ·) text length file r) :
    (assemble room text length file).result = r := by
  cases h with
  | @rejected before after lineno raw cause hlines hbefore hraw =>
    -- no line before it is rejected
    have hfirst : (Text.numberedLines text).findSome? Source.rejection? =
        some (cause.atLine (some lineno)) := by
      rw [hlines, List.findSome?_eq_some_iff]
      refine ⟨before, _, after, rfl, Source.rejection?_eq_some_iff.mpr ⟨cause, hraw, rfl⟩, ?_⟩
      exact fun l hl => Source.rejection?_eq_none_iff.mpr (hbefore l hl)
    rw [assemble_of_read_error hlength (Source.read_eq_error hfirst)]
    simp
  | @unencodable is before after i fault hread his hbefore hi =>
    -- the instructions before it are emitted
    obtain ⟨fault', hrefuses, hfile⟩ := hi.exists_refuses
    have hregular := Source.regular_of_read hread
    have hemits : ∀ j ∈ before, ∃ cells, j.Emits cells := fun j hj =>
      Instruction.exists_emits_of_not_unencodable
        (hregular j (his ▸ List.mem_append_left _ hj)) (hbefore j hj)
    have hrun : (Emission.run is).result = .error fault' := by
      rw [his, Emission.result_run]
      exact Emission.emitAll_eq_error_of_first hemits hrefuses
    rw [assemble_of_emission_error hlength hread hrun, hfile]
  | undefined hread hemit hcells hbefore href hname =>
    have hcount := hsize.length_le hread hemit
    refine assemble_of_linkFailure hlength hread hemit (List.findSome?_eq_some_iff.mpr
      ⟨_, _, _, hcells, (Cell.linkFailure?_eq_some_iff hcount).mpr ⟨_, href, hname, rfl⟩, ?_⟩)
    exact fun d hd => linkFailure?_eq_none_of_defined hcount (hbefore d hd) file
  | overCapacity hread hemit hdefined hlong =>
    have hlinked := hsize.linkFailure?_eq_none hread hemit hdefined
    rw [assemble_of_linked hlength hread hemit hlinked, if_pos hlong]
  | image hread hemit hdefined hfits hzeros =>
    have hlinked := hsize.linkFailure?_eq_none hread hemit hdefined
    rw [assemble_of_linked hlength hread hemit hlinked, if_neg (Int.not_lt.mpr hfits),
      Image.zeros_of_holds hzeros]
  | unstorable hread hemit hdefined hfits hzeros =>
    have hlinked := hsize.linkFailure?_eq_none hread hemit hdefined
    rw [assemble_of_linked hlength hread hemit hlinked, if_neg (Int.not_lt.mpr hfits),
      Image.zeros_of_not_holds hzeros]

/-- Some ending always applies. -/
theorem exists_outcome (storable : Nat → Prop) (hsize : WordsAtMost Word.valueCount text)
    (length : Int) (file : Option String) : ∃ r, Outcome storable text length file r := by
  -- a line is rejected
  cases hlines : (Text.numberedLines text).findSome? Source.rejection? with
  | some failure =>
    obtain ⟨before, ⟨lineno, raw⟩, after, hsplit, hl, hbefore⟩ :=
      List.findSome?_eq_some_iff.mp hlines
    obtain ⟨cause, hraw, -⟩ := Source.rejection?_eq_some_iff.mp hl
    refine ⟨_, .rejected hsplit (fun l hl => Source.rejection?_eq_none_iff.mp (hbefore l hl))
      hraw ?_⟩
    exact Text.lineno_of_numberedLines hsplit
  | none =>
    obtain ⟨is, hread⟩ := Source.exists_read_eq_ok file hlines
    have hregular := Source.regular_of_read hread
    -- an instruction cannot be encoded
    rcases Emission.emits_or_first_refuses is with
      ⟨parts, hparts⟩ | ⟨before, i, after, fault, his, hbefore, hi⟩
    swap
    · refine ⟨_, .unencodable hread his ?_ (hi.unencodable (hregular i ?_) file)⟩
      · intro j hj fault'
        obtain ⟨cells, hcells⟩ := hbefore j hj
        exact hcells.not_unencodable file fault'
      · exact his ▸ List.mem_append_right _ List.mem_cons_self
    have hemit : (Emission.run is).result = .ok parts.flatten := by
      rw [Emission.result_run]
      exact Emission.emitAll_eq_ok_iff.mpr ⟨parts, hparts, rfl⟩
    generalize parts.flatten = cells at hemit
    have hcount := hsize.length_le hread hemit
    -- a reference is undefined
    cases hlink : cells.findSome? (·.linkFailure? cells file) with
    | some failure =>
      obtain ⟨before, c, after, hcells, hc, hbefore⟩ := List.findSome?_eq_some_iff.mp hlink
      obtain ⟨name, href, hname, -⟩ := (Cell.linkFailure?_eq_some_iff hcount).mp hc
      exact ⟨_, .undefined hread hemit hcells
        (fun d hd => defined_of_linkFailure?_eq_none (hbefore d hd)) href hname⟩
    | none =>
      have hdefined : ∀ c ∈ cells, Defined cells c := fun c hc =>
        defined_of_linkFailure?_eq_none (List.findSome?_eq_none_iff.mp hlink c hc)
      -- the length decides
      by_cases hlong : length < cells.length
      · exact ⟨_, .overCapacity hread hemit hdefined hlong⟩
      by_cases hzeros : storable (length.toNat - cells.length)
      · exact ⟨_, .image hread hemit hdefined (Int.not_lt.mp hlong) hzeros⟩
      · exact ⟨_, .unstorable hread hemit hdefined (Int.not_lt.mp hlong) hzeros⟩

/-- On every machine the result of an assembly is the one ending that applies. -/
theorem assemble_eq_iff_outcome (hlength : 0 < length)
    (hsize : WordsAtMost Word.valueCount text) (r : Except Fault Image) :
    (assemble room text length file).result = r ↔
      Outcome (room.holds ·) text length file r := by
  constructor
  · rintro rfl
    obtain ⟨r, hr⟩ := exists_outcome (room.holds ·) hsize length file
    exact hr.result_eq hlength hsize ▸ hr
  · exact Outcome.result_eq hlength hsize

/-- Two undefined labels and a memory of one word: the first undefined label wins. -/
theorem outcome_undefined_before_capacity :
    0 < (1 : Int) ∧ WordsAtMost Word.valueCount "$a:\njmp $a\njmp $b // first\n.data $c" ∧
    Outcome (Room.countable.holds ·) "$a:\njmp $a\njmp $b // first\n.data $c" 1 (some "p.asm")
      (.error (.failure ((Cause.undefinedLabel "b").atLine (some 3) (some "p.asm")))) := by
  have hsize : WordsAtMost Word.valueCount "$a:\njmp $a\njmp $b // first\n.data $c" :=
    wordsAtMost_of_eq rfl rfl (by decide)
  exact ⟨by decide, hsize, (assemble_eq_iff_outcome (by decide) hsize _).mp rfl⟩

/-- If every number of zeros were storable, the empty text would have an image at every length; it
    has none where there are more zeros than can be counted. -/
theorem not_outcome_beyond_count :
    0 < (0x8000000000000000 : Int) ∧ WordsAtMost Word.valueCount "" ∧
      (assemble .countable "" 0x8000000000000000 none).result =
        .error (.invalid .uncountableLength) ∧
      ¬ ∀ r, (assemble .countable "" 0x8000000000000000 none).result = r ↔
        Outcome (fun _ => True) "" 0x8000000000000000 none r := by
  have hresult : (assemble .countable "" 0x8000000000000000 none).result =
      .error (.invalid .uncountableLength) := rfl
  refine ⟨by decide, wordsAtMost_of_eq rfl rfl (by decide), hresult, fun h => ?_⟩
  have houtcome := (h _).mp hresult
  generalize hr : Except.error (Fault.invalid .uncountableLength) = r at houtcome
  cases houtcome with
  | unencodable hread his hbefore hi =>
    -- what is refused for its size is a number, not a length
    obtain rfl := Except.error.inj hr
    cases hi
  | unstorable hread hemit hdefined hfits hzeros => exact hzeros trivial
  | _ => cases hr

end Assembly

end AccumulatorAsm
