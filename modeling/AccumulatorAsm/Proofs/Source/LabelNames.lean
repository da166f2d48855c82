/-
  AccumulatorAsm.Proofs.Source.LabelNames

  Label names on the two sides of a label. A label line gives its name as it is written up to the
  colon. A reference is an operand, so that its name goes through the splitter. Every name that a
  label line gives can be given by a line that holds nothing else (`isLabel_iff_exists_pending`),
  and a reference to it gives the name back exactly if the splitter leaves it whole
  (`label_names_agree`).
-/

import AccumulatorAsm.Proofs.Operand.Intact
import AccumulatorAsm.Proofs.Source.Forms

namespace AccumulatorAsm.Source

open Instruction (IsLabel labelLine)

/-- A mnemonic and a reference to a name, as a line. -/
def referenceLine (word name : String) : List Char :=
  word.toList ++ ' ' :: '$' :: name.toList

/-! ## Label lines -/

/-- A line without breaks gives no other names than those that can be written. -/
theorem isLabel_of_read {raw name rest : String}
    (hbreak : ∀ c ∈ raw.toList, Text.isLineBreak c = false)
    (h : Line.read raw = .ok (.label name rest)) : IsLabel name := by
  cases says_of_read h with
  | @label cs rest hcore hcolon hname =>
    -- the name is a part of the line, so that what the line lacks the name lacks too
    have htrim : Text.trim cs <:+: cs := Text.trim_isInfix cs
    have hcs : cs <:+: coreChars raw.toList := ⟨['$'], ':' :: rest, by simp [hcore]⟩
    refine ⟨by simpa using hname, by simp [Text.trimmed], ?_, ?_, ?_⟩
    · rw [String.toList_ofList]
      exact fun hc => hcolon (htrim.subset hc)
    · rw [String.toList_ofList]
      exact fun hslash => not_isInfix_coreChars _ ((hslash.trans htrim).trans hcs)
    · rw [String.toList_ofList]
      intro c hc
      exact hbreak c ((coreChars_isInfix _).subset (hcs.subset (htrim.subset hc)))

theorem isLineBreak_of_mem_labelLine {name : String} (h : IsLabel name) :
    ∀ c ∈ labelLine name, Text.isLineBreak c = false := by
  simpa [labelLine, or_imp, forall_and] using ⟨rfl, h.lineBreak, rfl⟩

theorem Reading.addLine_labelLine {name : String} (h : IsLabel name) (r : Reading) (lineno : Int) :
    (r.addLine lineno (String.ofList (labelLine name))).result =
      .ok { r with pending := some ⟨name, lineno⟩ } := by
  rw [addLine_of_ok (read_labelLine h)]
  rfl

/-- Only a label line leaves a label that waits, if none did before. -/
theorem exists_read_label_of_pending {lineno : Int} {raw name : String} {r : Reading}
    (h : (({} : Reading).addLine lineno raw).result = .ok r)
    (hp : r.pending = some ⟨name, lineno⟩) : ∃ rest, Line.read raw = .ok (.label name rest) := by
  cases hread : Line.read raw with
  | error cause =>
    rw [Reading.addLine, hread] at h
    cases h
  | ok line =>
    rw [Reading.addLine_of_ok hread] at h
    obtain rfl := Except.ok.inj h
    cases line with
    | blank => cases hp
    | label name' rest =>
      obtain rfl := congrArg PendingLabel.name (Option.some.inj hp)
      exact ⟨rest, rfl⟩
    | statement m ops => cases hp

/-- The names that label lines give. -/
theorem isLabel_iff_exists_pending {name : String} :
    IsLabel name ↔
      ∃ text, ∃ l ∈ Text.numberedLines text, ∃ r,
        (({} : Reading).addLine l.1 l.2).result = .ok r ∧ r.pending = some ⟨name, l.1⟩ := by
  constructor
  · intro h
    have hlines : Text.lines (labelLine name) = [labelLine name] :=
      Text.lines_of_not_break (List.cons_ne_nil _ _) (isLineBreak_of_mem_labelLine h)
    refine ⟨String.ofList (labelLine name), (1, String.ofList (labelLine name)), ?_, _,
      Reading.addLine_labelLine h {} 1, rfl⟩
    rw [Text.numberedLines, String.toList_ofList, hlines]
    exact List.mem_singleton_self _
  · rintro ⟨text, l, hl, r, hr, hp⟩
    obtain ⟨rest, hread⟩ := exists_read_label_of_pending hr hp
    have hraw : l.2 ∈ (Text.lines text.toList).map String.ofList := by
      rw [← Text.numberedLines_map_snd]
      exact List.mem_map_of_mem hl
    obtain ⟨cs, hcs, hraw⟩ := List.mem_map.mp hraw
    -- a line of a text has no breaks in it
    refine isLabel_of_read ?_ hread
    rw [← hraw, String.toList_ofList]
    exact Text.isLineBreak_of_mem_lines _ cs hcs

/-! ## References -/

section Reference

variable {word name : String} {m : Mnemonic}

/-- Nothing of the line is a comment or an outer blank. -/
theorem coreChars_referenceLine (hm : Mnemonic.ofName? word = some m) (h : IsLabel name) :
    coreChars (referenceLine word name) = referenceLine word name := by
  obtain ⟨hne, hplain⟩ := Mnemonic.plain_of_mem_table (Mnemonic.mem_table_of_ofName? hm)
  have hslash : '/' ∉ word.toList := fun hc => (hplain _ hc).2.2.1 rfl
  have hblank : ∀ c ∈ word.toList, Text.isBlank c = false := fun c hc => (hplain c hc).1
  have hend : Text.trimEnd (' ' :: '$' :: name.toList) = ' ' :: '$' :: name.toList := by
    have hname : name.toList ≠ [] := by simpa using h.nonempty
    have htrim := (Text.trim_eq_self_iff.mp (Text.trim_toList_of_trimmed h.trimmed)).2
    exact Text.trimEnd_append_of_eq_self htrim hname [' ', '$']
  rw [coreChars, referenceLine, uncomment_append hslash, uncomment_cons_of_ne (by decide),
    uncomment_cons_of_ne (by decide), uncomment_eq_self h.comment, trim_word_append hne hblank,
    hend]

theorem read_referenceLine (hm : Mnemonic.ofName? word = some m) (h : IsLabel name) :
    Line.read (String.ofList (referenceLine word name)) =
      (Operand.readAll (Operand.tokens (String.ofList ('$' :: name.toList)))).map
        (.statement m) := by
  obtain ⟨-, hplain⟩ := Mnemonic.plain_of_mem_table (Mnemonic.mem_table_of_ofName? hm)
  have hreadable : Operand.Readable (.sym name) := h.trimmed
  have htoken : Text.trim ('$' :: name.toList) = '$' :: name.toList := hreadable.trim_token
  have htext : Text.trimmed (String.ofList (' ' :: '$' :: name.toList)) =
      String.ofList ('$' :: name.toList) := by
    rw [Text.trimmed, String.toList_ofList, Text.trim_cons_of_blank rfl, htoken]
  have hcore : coreChars (String.ofList (referenceLine word name)).toList =
      word.toList ++ ' ' :: '$' :: name.toList := by
    rw [String.toList_ofList, coreChars_referenceLine hm h, referenceLine]
  have hrest : ∀ c, (' ' :: '$' :: name.toList).head? = some c → Text.isBlank c = true := by
    intro c hc
    obtain rfl := Option.some.inj hc
    rfl
  have hword : Mnemonic.ofName? (String.ofList word.toList) = some m := by
    rw [String.ofList_toList]
    exact hm
  rw [Line.read_of_mnemonic hcore (fun c hc => (hplain c hc).1) hrest hword, htext]

end Reference

/-- An instruction with a given first operand comes from operands of which it is the first. -/
theorem exists_addLine_head_iff {raw : String} {m : Mnemonic} {result : Except Cause (List Operand)}
    (hread : Line.read raw = result.map (.statement m)) (r : Reading) (lineno : Int)
    (op : Operand) :
    (∃ i : Instruction,
        (r.addLine lineno raw).result = .ok ⟨r.instructions ++ [i], none⟩ ∧ i.mnemonic = m ∧
          i.operands.head? = some op) ↔
      ∃ ops, result = .ok ops ∧ ops.head? = some op := by
  cases result with
  | error cause =>
    refine iff_of_false ?_ (by simp)
    rintro ⟨i, hi, -⟩
    rw [Reading.addLine, hread] at hi
    cases hi
  | ok ops =>
    rw [Reading.addLine_of_ok hread]
    constructor
    · rintro ⟨i, hi, -, hhead⟩
      have his := congrArg Reading.instructions (Except.ok.inj hi)
      obtain rfl := List.singleton_inj.mp (List.append_cancel_left his)
      exact ⟨ops, rfl, hhead⟩
    · rintro ⟨_, ⟨⟩, hhead⟩
      exact ⟨_, rfl, rfl, hhead⟩

/-! ## Both sides -/

/-- Which names label lines give, and which of them a reference gives back: those in which the
    splitter finds no escape and no comma outside of strings. -/
theorem label_names_agree (name : String) :
    (IsLabel name ↔
        ∃ text, ∃ l ∈ Text.numberedLines text, ∃ r,
          (({} : Reading).addLine l.1 l.2).result = .ok r ∧ r.pending = some ⟨name, l.1⟩) ∧
      (IsLabel name → ∀ (r : Reading) (lineno : Int),
        (r.addLine lineno (String.ofList (labelLine name))).result =
            .ok { r with pending := some ⟨name, lineno⟩ } ∧
          ∀ word m, Mnemonic.ofName? word = some m →
            ((∃ i : Instruction,
                (r.addLine lineno (String.ofList (referenceLine word name))).result =
                    .ok ⟨r.instructions ++ [i], none⟩ ∧
                  i.mnemonic = m ∧ i.operands.head? = some (.sym name)) ↔
              '\\' ∉ name.toList.dropLast ∧
                ∀ before after, name.toList = before ++ ',' :: after →
                  before.count '\x22' % 2 = 1)) := by
  refine ⟨isLabel_iff_exists_pending, fun h r lineno => ?_⟩
  refine ⟨Reading.addLine_labelLine h r lineno, fun word m hm => ?_⟩
  rw [exists_addLine_head_iff (read_referenceLine hm h), Operand.exists_readAll_sym_iff h.trimmed,
    Operand.intact_false_iff]

/-- A name with a comma inside quotes and a backslash at its end is given back. One with a bare
    comma is not, though a label line gives it too. -/
theorem label_names_agree_commas :
    let kept := "\"a,b\"\\"
    let cut := "a,b"
    let m : Mnemonic := ⟨.opcode .jmp, true⟩
    IsLabel kept ∧ IsLabel cut ∧ Mnemonic.ofName? "jmpi" = some m ∧
      (∃ text, ∃ l ∈ Text.numberedLines text, ∃ r,
        (({} : Reading).addLine l.1 l.2).result = .ok r ∧ r.pending = some ⟨kept, l.1⟩) ∧
      (({} : Reading).addLine 3 (String.ofList (labelLine cut))).result =
        .ok { pending := some ⟨cut, 3⟩ } ∧
      ('\\' ∉ kept.toList.dropLast ∧
        ∀ before after, kept.toList = before ++ ',' :: after → before.count '\x22' % 2 = 1) ∧
      ¬ ∃ i : Instruction,
        (({} : Reading).addLine 4 (String.ofList (referenceLine "jmpi" cut))).result =
            .ok ⟨[i], none⟩ ∧
          i.mnemonic = m ∧ i.operands.head? = some (.sym cut) := by
  intro kept cut m
  have hkept : IsLabel kept := by decide
  have hcut : IsLabel cut := by decide
  have hm : Mnemonic.ofName? "jmpi" = some m := rfl
  obtain ⟨hgiven, hagree⟩ := label_names_agree kept
  obtain ⟨-, hagree'⟩ := label_names_agree cut
  refine ⟨hkept, hcut, hm, hgiven.mp hkept, (hagree' hcut {} 3).1, ?_, ?_⟩
  · have hread : Line.read (String.ofList (referenceLine "jmpi" kept)) =
        .ok (.statement m [.sym kept]) := by decide
    refine ((hagree hkept {} 4).2 "jmpi" m hm).mp ?_
    rw [Reading.addLine_of_ok hread]
    exact ⟨_, rfl, rfl, rfl⟩
  · intro hread
    have hcommas := (((hagree' hcut {} 4).2 "jmpi" m hm).mp hread).2
    exact absurd (hcommas ['a'] ['b'] (by decide)) (by decide)

end AccumulatorAsm.Source
