/-
  AccumulatorAsm.Proofs.Source.Listing

  Instructions written as a source text. Each has a line of its own, under a line for its label,
  and the text is read back as the same instructions without a warning (`read_listing`). Strings
  keep commas, quotes, slashes, backslashes and line feeds by the escapes of their tokens.
-/

import AccumulatorAsm.Proofs.Operand.Written
import AccumulatorAsm.Proofs.Source.Core

namespace AccumulatorAsm

/-! ## Written lines -/

/-- The name that stands for a mnemonic. -/
def Mnemonic.name? (m : Mnemonic) : Option String :=
  (table.find? (·.2 = m)).map Prod.fst

namespace Instruction

def mnemonic (i : Instruction) : Mnemonic :=
  ⟨i.kind, i.indirect⟩

def labelLine (name : String) : List Char :=
  '$' :: (name.toList ++ [':'])

/-- The operands of an instruction as they stand behind its mnemonic. -/
def operandText (i : Instruction) : List Char :=
  match i.operands with
  | [] => []
  | ops => ' ' :: Operand.written (ops.map Operand.token)

def statementLine (i : Instruction) : List Char :=
  (i.mnemonic.name?.getD "").toList ++ i.operandText

def lines (i : Instruction) : List (List Char) :=
  i.label.toList.map labelLine ++ [i.statementLine]

/-- A name that a label line can give. -/
structure IsLabel (name : String) : Prop where
  nonempty : name ≠ ""
  trimmed : Text.trimmed name = name
  colon : ':' ∉ name.toList
  comment : ¬ ['/', '/'] <:+: name.toList
  lineBreak : ∀ c ∈ name.toList, Text.isLineBreak c = false

/-- Instructions that a text can hold. A single empty literal is left out, since it is written
    like no operand at all. -/
structure Writable (i : Instruction) : Prop where
  mnemonic : i.mnemonic ∈ Mnemonic.table.map Prod.snd
  label : ∀ name ∈ i.label, IsLabel name
  readable : ∀ op ∈ i.operands, op.Readable
  lineFeed : ∀ op ∈ i.operands, ∀ c ∈ op.token, Text.isLineBreak c = true → c = '\n'
  single : i.operands ≠ [.imm ""]

instance (name : String) : Decidable (IsLabel name) :=
  decidable_of_iff (name ≠ "" ∧ Text.trimmed name = name ∧ ':' ∉ name.toList ∧
      ¬ ['/', '/'] <:+: name.toList ∧ name.toList.all (!Text.isLineBreak ·) = true)
    ⟨fun ⟨h₁, h₂, h₃, h₄, h₅⟩ => ⟨h₁, h₂, h₃, h₄, by simpa using h₅⟩,
      fun ⟨h₁, h₂, h₃, h₄, h₅⟩ => ⟨h₁, h₂, h₃, h₄, by simpa using h₅⟩⟩

instance (i : Instruction) : Decidable i.Writable :=
  decidable_of_iff (i.mnemonic ∈ Mnemonic.table.map Prod.snd ∧ (∀ name ∈ i.label, IsLabel name) ∧
      (∀ op ∈ i.operands, op.Readable) ∧
      (∀ op ∈ i.operands, op.token.all (fun c => !Text.isLineBreak c || c = '\n') = true) ∧
      i.operands ≠ [.imm ""])
    ⟨fun ⟨h₁, h₂, h₃, h₄, h₅⟩ => ⟨h₁, h₂, h₃, by simpa [or_iff_not_imp_left] using h₄, h₅⟩,
      fun ⟨h₁, h₂, h₃, h₄, h₅⟩ => ⟨h₁, h₂, h₃, by simpa [or_iff_not_imp_left] using h₄, h₅⟩⟩

/-- An instruction without the place it was written at. -/
def unplaced (i : Instruction) : Instruction :=
  { i with line := 0 }

end Instruction

/-- The source text of instructions; a line feed ends each of its lines. -/
def Source.listing (is : List Instruction) : String :=
  String.ofList ((is.flatMap Instruction.lines).flatMap (· ++ ['\n']))

/-! ## Mnemonics -/

namespace Mnemonic

/-- The names of mnemonics are words that open neither a comment nor a label line. -/
theorem plain_of_mem_table {name : String} {m : Mnemonic} (h : (name, m) ∈ table) :
    name.toList ≠ [] ∧ ∀ c ∈ name.toList,
      Text.isBlank c = false ∧ Text.isLineBreak c = false ∧ c ≠ '/' ∧ c ≠ '$' := by
  have hall : ∀ e ∈ table, e.1.toList ≠ [] ∧ e.1.toList.all (fun c =>
      !Text.isBlank c && !Text.isLineBreak c && c != '/' && c != '$') = true := by
    decide
  obtain ⟨hne, hplain⟩ := hall _ h
  refine ⟨hne, fun c hc => ?_⟩
  simpa [and_assoc] using List.all_eq_true.mp hplain c hc

/-- No two names stand for the same. -/
theorem ofName?_of_mem_table {name : String} {m : Mnemonic} (h : (name, m) ∈ table) :
    ofName? name = some m := by
  have hall : ∀ e ∈ table, ofName? e.1 = some e.2 := by
    decide
  exact hall _ h

theorem exists_name?_eq_some {m : Mnemonic} (h : m ∈ table.map Prod.snd) :
    ∃ name, m.name? = some name ∧ (name, m) ∈ table := by
  obtain ⟨e, he, rfl⟩ := List.mem_map.mp h
  cases hfind : table.find? (·.2 = e.2) with
  | none => exact absurd (List.find?_eq_none.mp hfind e he) (by simp)
  | some e' =>
    have hsame : e'.2 = e.2 := by simpa using List.find?_some hfind
    refine ⟨e'.1, by rw [name?, hfind, Option.map_some], ?_⟩
    rw [← hsame]
    exact List.mem_of_find?_eq_some hfind

end Mnemonic

/-! ## Lines read back -/

namespace Source

open Operand (escape separated written)

theorem uncomment_escape_append (t : List Char) {rest : List Char} (h : rest.head? ≠ some '/') :
    uncomment (escape t ++ rest) = escape t ++ uncomment rest := by
  induction t with
  | nil => rfl
  | cons c t ih =>
    have hhead := Operand.head?_escape_append_ne_slash t h
    rw [Operand.escape_cons, List.append_assoc, List.append_assoc, ← ih, Operand.escapeChar]
    split
    · exact uncomment_append (by decide) _
    split
    · -- the backslash keeps a slash apart from the one before it
      show uncomment ('\\' :: c :: (escape t ++ rest)) = _
      rw [uncomment_cons_of_ne (by decide), uncomment_cons_of_head? hhead]
      rfl
    · exact uncomment_cons_of_head? hhead

theorem head?_flatMap_separated_ne_slash (ts : List (List Char)) :
    (ts.flatMap separated).head? ≠ some '/' := by
  cases ts with
  | nil => simp
  | cons t ts => simp [separated]

theorem uncomment_flatMap_separated (ts : List (List Char)) :
    uncomment (ts.flatMap separated) = ts.flatMap separated := by
  induction ts with
  | nil => rfl
  | cons t ts ih =>
    have hhead := head?_flatMap_separated_ne_slash ts
    have hstart : separated t ++ ts.flatMap separated =
        [',', ' '] ++ (escape t ++ ts.flatMap separated) := rfl
    rw [List.flatMap_cons, hstart, uncomment_append (by decide), uncomment_escape_append t hhead,
      ih]

/-- Written tokens hold no comment. -/
theorem uncomment_written (ts : List (List Char)) : uncomment (written ts) = written ts := by
  cases ts with
  | nil => rfl
  | cons t ts =>
    rw [written, uncomment_escape_append t (head?_flatMap_separated_ne_slash ts),
      uncomment_flatMap_separated]

/-- A word at the front keeps the blanks behind it. -/
theorem trim_word_append {word : List Char} (hword : word ≠ [])
    (hblank : ∀ c ∈ word, Text.isBlank c = false) (rest : List Char) :
    Text.trim (word ++ rest) = word ++ Text.trimEnd rest := by
  have hstart : Text.trimStart (word ++ rest) = word ++ rest := by
    refine Text.trimStart_append_of_eq_self (Text.trimStart_eq_self_iff.mpr ?_) hword rest
    exact fun c hc => hblank c (List.mem_of_mem_head? hc)
  have hend : Text.trimEnd word = word := by
    refine Text.trimEnd_eq_self_iff.mpr ?_
    exact fun c hc => hblank c (List.mem_of_mem_getLast? hc)
  rw [Text.trim, hstart, Text.trimEnd_append, hend]
  split
  · next hnil => rw [hnil, List.append_nil]
  · rfl

/-- A line that starts with a word is read as that word and the rest. -/
theorem splitStatement_append {word rest : List Char} (hword : word ≠ [])
    (hblank : ∀ c ∈ word, Text.isBlank c = false)
    (hrest : ∀ c, rest.head? = some c → Text.isBlank c = true) :
    splitStatement (String.ofList (Text.trim (word ++ rest))) =
      (String.ofList word, String.ofList (Text.trim rest)) := by
  -- what is left behind the word still starts with a blank, if anything is left
  have hend : ∀ c, (Text.trimEnd rest).head? = some c → Text.isBlank c = true := by
    intro c hc
    obtain ⟨tail, htail⟩ := Text.trimEnd_isPrefix rest
    refine hrest c ?_
    rw [← htail, List.head?_append, hc, Option.some_or]
  have hpos : ∀ c ∈ word, (!Text.isBlank c) = true := fun c hc => by rw [hblank c hc]; rfl
  rw [splitStatement, String.toList_ofList, Text.trim_trim, trim_word_append hword hblank,
    statementParts, List.takeWhile_append_of_pos hpos, List.dropWhile_append_of_pos hpos]
  cases htail : Text.trimEnd rest with
  | nil =>
    have hnil : Text.trim rest = [] := by rw [← Text.trim_trimEnd, htail, Text.trim_nil]
    simp [hnil]
  | cons c cs =>
    have hc := hend c (by rw [htail]; rfl)
    rw [List.takeWhile_cons_of_neg (by simp [hc]), List.dropWhile_cons_of_neg (by simp [hc]),
      List.append_nil, ← htail, Text.trim_trimEnd]

/-! ## Lines of an instruction -/

/-- A label line gives its name and nothing else. -/
theorem read_labelLine {name : String} (h : Instruction.IsLabel name) :
    Line.read (String.ofList (Instruction.labelLine name)) = .ok (.label name "") := by
  have htrim : Text.trim (Instruction.labelLine name) = Instruction.labelLine name :=
    Text.trim_between rfl rfl _
  have hcomment : ¬ ['/', '/'] <:+: Instruction.labelLine name := by
    intro hslash
    rcases List.infix_cons_iff.mp hslash with hfront | hlater
    · -- the line starts with the dollar sign
      cases (List.cons_prefix_cons.mp hfront).1
    · rcases List.infix_concat_iff.mp hlater with hback | hname
      · -- and ends with the colon
        obtain ⟨before, hbefore⟩ := hback
        have hlast := congrArg List.getLast? hbefore
        simp at hlast
      · exact h.comment hname
  have hcore : core (String.ofList (Instruction.labelLine name)) =
      String.ofList (Instruction.labelLine name) := by
    rw [core, String.toList_ofList, coreChars_eq_self hcomment htrim]
  have hname : ∀ c ∈ name.toList, decide (c ≠ ':') = true := by
    intro c hc
    rw [decide_eq_true_eq]
    rintro rfl
    exact h.colon hc
  have hparts : labelParts? (Instruction.labelLine name) = some (name.toList, []) := by
    rw [Instruction.labelLine, labelParts?, if_pos (by simp),
      List.takeWhile_append_of_pos hname, List.dropWhile_append_of_pos hname]
    simp [Text.trim_toList_of_trimmed h.trimmed]
  have hlabel : splitLabel (String.ofList (Instruction.labelLine name)) = (some name, "") := by
    rw [splitLabel, String.toList_ofList, htrim, hparts]
    simp
  have hline : isLabelLine (String.ofList (Instruction.labelLine name)) = true := by
    rw [isLabelLine, String.toList_ofList, htrim]
    rfl
  have hne : String.ofList (Instruction.labelLine name) ≠ "" := by
    simp [Instruction.labelLine]
  simp only [Line.read, hcore, if_neg hne, hline, if_true, Line.readLabel, hlabel,
    if_neg h.nonempty]

theorem head?_operandText (i : Instruction) {c : Char} (h : i.operandText.head? = some c) :
    Text.isBlank c = true := by
  unfold Instruction.operandText at h
  split at h
  · cases h
  · obtain rfl := Option.some.inj h
    rfl

theorem uncomment_operandText (i : Instruction) :
    uncomment i.operandText = i.operandText := by
  unfold Instruction.operandText
  split
  · rfl
  · rw [uncomment_cons_of_ne (by decide), uncomment_written]

theorem tokensOf_trim_operandText {i : Instruction} (h : i.Writable) :
    Operand.tokensOf (Text.trim i.operandText) = i.operands.map Operand.token := by
  have htrim : ∀ t ∈ i.operands.map Operand.token, Text.trim t = t := by
    intro t ht
    obtain ⟨op, hop, rfl⟩ := List.mem_map.mp ht
    exact (h.readable op hop).trim_token
  have htokens := Operand.tokensOf_trim_written htrim
    (Operand.map_token_ne_single h.readable h.single)
  unfold Instruction.operandText
  split
  · next hnil => rw [hnil]; rfl
  · rw [Text.trim_cons_of_blank rfl, htokens]

/-- A statement line is read as the statement it was written for. -/
theorem read_statementLine {i : Instruction} (h : i.Writable) :
    Line.read (String.ofList i.statementLine) = .ok (.statement i.mnemonic i.operands) := by
  obtain ⟨name, hname, hmem⟩ := Mnemonic.exists_name?_eq_some h.mnemonic
  obtain ⟨hword, hplain⟩ := Mnemonic.plain_of_mem_table hmem
  have hblank : ∀ c ∈ name.toList, Text.isBlank c = false := fun c hc => (hplain c hc).1
  have hslash : '/' ∉ name.toList := fun hc => (hplain _ hc).2.2.1 rfl
  have hcore : core (String.ofList i.statementLine) =
      String.ofList (Text.trim (name.toList ++ i.operandText)) := by
    rw [core, String.toList_ofList, coreChars, Instruction.statementLine, hname,
      Option.getD_some, uncomment_append hslash, uncomment_operandText]
  have hsplit := splitStatement_append hword hblank fun c hc => head?_operandText i hc
  have hne : String.ofList (Text.trim (name.toList ++ i.operandText)) ≠ "" := by
    intro hempty
    have hnil := String.toList_eq_nil_iff.mpr hempty
    rw [String.toList_ofList, trim_word_append hword hblank] at hnil
    exact hword (List.append_eq_nil_iff.mp hnil).1
  -- mnemonics do not start with the sign of a label line
  have hline : isLabelLine (String.ofList (Text.trim (name.toList ++ i.operandText))) = false := by
    rw [isLabelLine, String.toList_ofList, Text.trim_trim, trim_word_append hword hblank,
      List.head?_append_of_ne_nil _ hword, beq_eq_false_iff_ne]
    exact fun hhead => (hplain _ (List.mem_of_mem_head? hhead)).2.2.2 rfl
  have htokens : Operand.tokens (String.ofList (Text.trim i.operandText)) =
      i.operands.map fun op => String.ofList op.token := by
    rw [Operand.tokens, String.toList_ofList, tokensOf_trim_operandText h, List.map_map]
    rfl
  simp only [Line.read, hcore, if_neg hne, hline, Line.readStatement, hsplit,
    String.ofList_toList, Mnemonic.ofName?_of_mem_table hmem, htokens,
    Operand.readAll_map_token h.readable]
  rfl

/-! ## Texts read back -/

/-- The lines of an instruction are read as the instruction, whatever their numbers. -/
theorem Reading.addLines_lines {i : Instruction} (h : i.Writable) {ls : List (Int × String)}
    (hls : ls.map Prod.snd = i.lines.map String.ofList) (before : List Instruction) :
    ∃ lineno, (⟨before, none⟩ : Reading).addLines ls =
      ⟨[], .ok ⟨before ++ [{ i with line := lineno }], none⟩⟩ := by
  cases hlabel : i.label with
  | none =>
    rw [Instruction.lines, hlabel] at hls
    obtain ⟨l, rfl, hl⟩ := List.map_eq_singleton_iff.mp hls
    refine ⟨l.1, ?_⟩
    rw [addLines_singleton, hl, addLine_of_ok (read_statementLine h)]
    simp [add, Instruction.mnemonic, ← hlabel]
  | some name =>
    -- two lines: the label waits and the statement takes it
    rw [Instruction.lines, hlabel] at hls
    obtain ⟨l, ls', rfl, hl, hls'⟩ := List.map_eq_cons_iff.mp hls
    obtain ⟨m, rfl, hm⟩ := List.map_eq_singleton_iff.mp hls'
    refine ⟨m.1, ?_⟩
    rw [addLines_cons, hl, addLine_of_ok (read_labelLine (h.label name hlabel)),
      Logged.bind_of_ok rfl, addLines_singleton, hm, addLine_of_ok (read_statementLine h)]
    simp [add, labelNotices, Instruction.mnemonic, ← hlabel]

theorem Reading.addLines_flatMap_lines {is : List Instruction} (h : ∀ i ∈ is, i.Writable)
    {ls : List (Int × String)}
    (hls : ls.map Prod.snd = (is.flatMap Instruction.lines).map String.ofList)
    (before : List Instruction) :
    ∃ js, (⟨before, none⟩ : Reading).addLines ls = ⟨[], .ok ⟨before ++ js, none⟩⟩ ∧
      js.map Instruction.unplaced = is.map Instruction.unplaced := by
  induction is generalizing ls before with
  | nil =>
    obtain rfl := List.map_eq_nil_iff.mp hls
    exact ⟨[], by rw [List.append_nil]; rfl, rfl⟩
  | cons i is ih =>
    rw [List.flatMap_cons, List.map_append] at hls
    obtain ⟨first, rest, rfl, hfirst, hrest⟩ := List.map_eq_append_iff.mp hls
    obtain ⟨lineno, hline⟩ := addLines_lines (h i List.mem_cons_self) hfirst before
    obtain ⟨js, hjs, hsame⟩ := ih (fun j hj => h j (List.mem_cons_of_mem i hj)) hrest
      (before ++ [{ i with line := lineno }])
    refine ⟨{ i with line := lineno } :: js, ?_, ?_⟩
    · rw [addLines_append, hline, Logged.bind_of_ok rfl, hjs]
      simp
    · rw [List.map_cons, List.map_cons, hsame]
      rfl

theorem isLineBreak_of_mem_operandText {i : Instruction} (h : i.Writable) :
    ∀ c ∈ i.operandText, Text.isLineBreak c = false := by
  have hwritten : ∀ c ∈ written (i.operands.map Operand.token), Text.isLineBreak c = false := by
    refine Operand.isLineBreak_of_mem_written fun t ht => ?_
    obtain ⟨op, hop, rfl⟩ := List.mem_map.mp ht
    exact h.lineFeed op hop
  unfold Instruction.operandText
  split
  · simp
  · exact List.forall_mem_cons.mpr ⟨rfl, hwritten⟩

/-- No line of an instruction has a line break in it. -/
theorem isLineBreak_of_mem_lines {i : Instruction} (h : i.Writable) {l : List Char}
    (hl : l ∈ i.lines) : ∀ c ∈ l, Text.isLineBreak c = false := by
  rcases List.mem_append.mp hl with hlabel | hstatement
  · obtain ⟨name, hname, rfl⟩ := List.mem_map.mp hlabel
    have hbreak := (h.label name (Option.mem_toList.mp hname)).lineBreak
    intro c hc
    simp only [Instruction.labelLine, List.mem_cons, List.mem_append, List.not_mem_nil,
      or_false] at hc
    rcases hc with rfl | hc | rfl
    · rfl
    · exact hbreak c hc
    · rfl
  · obtain ⟨name, hname, hmem⟩ := Mnemonic.exists_name?_eq_some h.mnemonic
    obtain ⟨-, hplain⟩ := Mnemonic.plain_of_mem_table hmem
    rw [List.mem_singleton.mp hstatement, Instruction.statementLine, hname, Option.getD_some]
    intro c hc
    rcases List.mem_append.mp hc with hc | hc
    · exact (hplain c hc).2.1
    · exact isLineBreak_of_mem_operandText h c hc

/-- No line of an instruction is empty. -/
theorem ne_nil_of_mem_lines {i : Instruction} (h : i.Writable) {l : List Char}
    (hl : l ∈ i.lines) : l ≠ [] := by
  rcases List.mem_append.mp hl with hlabel | hstatement
  · obtain ⟨name, -, rfl⟩ := List.mem_map.mp hlabel
    exact List.cons_ne_nil _ _
  · obtain ⟨name, hname, hmem⟩ := Mnemonic.exists_name?_eq_some h.mnemonic
    rw [List.mem_singleton.mp hstatement, Instruction.statementLine, hname, Option.getD_some]
    exact List.append_ne_nil_of_left_ne_nil (Mnemonic.plain_of_mem_table hmem).1 _

/-- A text with the lines of instructions is read as these instructions, wherever its lines end. -/
theorem read_of_lines {is : List Instruction} (h : ∀ i ∈ is, i.Writable) {text : String}
    (htext : Text.lines text.toList = is.flatMap Instruction.lines) (file : Option String) :
    ∃ js, read text file = (⟨js, none⟩ : Reading).finish ∧
      js.map Instruction.unplaced = is.map Instruction.unplaced := by
  have hlines : (Text.numberedLines text).map Prod.snd =
      (is.flatMap Instruction.lines).map String.ofList := by
    rw [Text.numberedLines_map_snd, htext]
  obtain ⟨js, hread, hsame⟩ := Reading.addLines_flatMap_lines h hlines []
  refine ⟨js, ?_, hsame⟩
  show ((Reading.addLines ⟨[], none⟩ _).withFile file >>= fun r => r.finish) = _
  rw [hread]
  rfl

example :
    listing [{ kind := .directive .data, operands := [.str "a,\n/", .imm ""], label := some "x" }] =
      "$x:\n.data \\\"a\\,\\n\\/\\\", \n" := by
  decide

end Source

end AccumulatorAsm
