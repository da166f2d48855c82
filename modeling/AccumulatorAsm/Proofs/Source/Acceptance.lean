/-
  AccumulatorAsm.Proofs.Source.Acceptance

  Which texts can be read. A text is read if and only if every line has an acceptable core; the
  38 mnemonics and the shape of the core decide this, line by line. A line is refused in the same
  way whatever was read before it, so texts that agree up to a refused line are read alike
  (`acceptance`).
-/

import AccumulatorAsm.Proofs.Source.Forms

namespace AccumulatorAsm

/-! ## Tokens and mnemonics -/

namespace Operand

theorem exists_read_iff {token : String} :
    (∃ op, read token = .ok op) ↔ (Text.trim token.toList).head? ≠ some '%' := by
  rw [Ne, ← ofTokenChars?_eq_none_iff, read, ofToken?]
  cases ofTokenChars? (Text.trim token.toList) <;> simp

/-- Tokens are read if none of them is a register. -/
theorem exists_readAll_iff {tokens : List String} :
    (∃ ops, readAll tokens = .ok ops) ↔
      ∀ t ∈ tokens, (Text.trim t.toList).head? ≠ some '%' := by
  induction tokens with
  | nil => simp [readAll]
  | cons token tokens ih =>
    rw [List.forall_mem_cons, ← ih, ← exists_read_iff, readAll]
    cases read token with
    | error cause => simp
    | ok op => cases readAll tokens <;> simp [Except.map]

theorem trim_of_mem_tokens {text token : String} (h : token ∈ tokens text) :
    Text.trim token.toList = token.toList := by
  obtain ⟨t, ht, rfl⟩ := List.mem_map.mp h
  unfold tokensOf at ht
  split at ht
  · cases ht
  · obtain ⟨piece, -, rfl⟩ := List.mem_map.mp ht
    rw [String.toList_ofList, Text.trim_trim]

theorem exists_readAll_tokens_iff {text : String} :
    (∃ ops, readAll (tokens text) = .ok ops) ↔ ∀ t ∈ tokens text, t.toList.head? ≠ some '%' := by
  rw [exists_readAll_iff]
  refine forall₂_congr fun t ht => ?_
  rw [trim_of_mem_tokens ht]

end Operand

/-- The words that open a statement. -/
def Mnemonic.names : List String :=
  table.map Prod.fst

theorem Mnemonic.exists_ofName?_iff {name : String} :
    (∃ m, ofName? name = some m) ↔ name ∈ names := by
  constructor
  · rintro ⟨m, hm⟩
    exact List.mem_map_of_mem (mem_table_of_ofName? hm)
  · intro h
    obtain ⟨e, he, rfl⟩ := List.mem_map.mp h
    exact ⟨e.2, ofName?_of_mem_table he⟩

namespace Source

/-! ## Lines -/

/-- Cores that can be read: empty ones, labels with a name, and mnemonics with operands none of
    which is a register. -/
inductive Acceptable (core : List Char) : Prop
  | blank (h : core = [])
  | label {name rest : List Char} (h : core = '$' :: (name ++ ':' :: rest)) (hcolon : ':' ∉ name)
      (hname : ∃ c ∈ name, Text.isBlank c = false)
  | statement {word rest : List Char} (h : core = word ++ rest)
      (hword : ∀ c ∈ word, Text.isBlank c = false)
      (hrest : ∀ c, rest.head? = some c → Text.isBlank c = true)
      (hm : String.ofList word ∈ Mnemonic.names)
      (hops : ∀ t ∈ Operand.tokens (Text.trimmed (String.ofList rest)), t.toList.head? ≠ some '%')

theorem exists_says_iff {core : List Char} : (∃ line, Says core line) ↔ Acceptable core := by
  have htrim : ∀ name, Text.trim name ≠ [] ↔ ∃ c ∈ name, Text.isBlank c = false := by
    simp [Text.trim_eq_nil_iff]
  constructor
  · rintro ⟨line, hform⟩
    cases hform with
    | blank h => exact .blank h
    | label h hcolon hname => exact .label h hcolon ((htrim _).mp hname)
    | statement h hword hrest hm hops =>
      exact .statement h hword hrest (Mnemonic.exists_ofName?_iff.mp ⟨_, hm⟩)
        (Operand.exists_readAll_tokens_iff.mp ⟨_, hops⟩)
  · intro hacceptable
    cases hacceptable with
    | blank h => exact ⟨_, .blank h⟩
    | label h hcolon hname => exact ⟨_, .label h hcolon ((htrim _).mpr hname)⟩
    | statement h hword hrest hm hops =>
      obtain ⟨m, hm⟩ := Mnemonic.exists_ofName?_iff.mpr hm
      obtain ⟨ops, hops⟩ := Operand.exists_readAll_tokens_iff.mpr hops
      exact ⟨_, .statement h hword hrest hm hops⟩

theorem Line.exists_read_iff {raw : String} :
    (∃ line, Line.read raw = .ok line) ↔ Acceptable (coreChars raw.toList) := by
  simp only [Line.read_eq_ok_iff, exists_says_iff]

/-! ## Texts -/

theorem exists_read_eq_ok_iff {text : String} {file : Option String} :
    (∃ is, (read text file).result = .ok is) ↔
      ∀ l ∈ Text.lines text.toList, Acceptable (coreChars l) := by
  have hread : (∃ is, (read text file).result = .ok is) ↔
      ∀ l ∈ Text.numberedLines text, ∃ line, Line.read l.2 = .ok line := by
    refine ⟨fun ⟨_, his⟩ => exists_line_of_read his, fun h => exists_read_eq_ok file ?_⟩
    exact List.findSome?_eq_none_iff.mpr fun l hl => rejection?_eq_none_iff.mpr (h l hl)
  have hlines : (∀ l ∈ Text.lines text.toList, Acceptable (coreChars l)) ↔
      ∀ raw ∈ (Text.numberedLines text).map Prod.snd, ∃ line, Line.read raw = .ok line := by
    rw [Text.numberedLines_map_snd, List.forall_mem_map]
    simp only [Line.exists_read_iff, String.toList_ofList]
  rw [hread, hlines, List.forall_mem_map]

/-- Whether and how a line is refused does not depend on what was read before it. -/
theorem Reading.addLine_eq_of_error {r : Reading} {lineno : Int} {raw : String} {fault : Fault}
    (h : (r.addLine lineno raw).result = .error fault) (r' : Reading) :
    r'.addLine lineno raw = r.addLine lineno raw := by
  cases hread : Line.read raw with
  | ok line =>
    rw [addLine_of_ok hread] at h
    cases h
  | error cause => rw [addLine_of_error hread, addLine_of_error hread]

/-- Nothing behind a refused line is looked at. -/
theorem Reading.addLines_append_of_error {r : Reading} {lines : List (Int × String)}
    {fault : Fault} (h : (r.addLines lines).result = .error fault) (more : List (Int × String)) :
    r.addLines (lines ++ more) = r.addLines lines := by
  rw [addLines_append, Logged.bind_of_error h]
  exact Logged.ext rfl h.symm

/-- Texts that agree up to a line that is refused fail alike. -/
theorem read_eq_of_not_acceptable {text text' : String} {before after after' : List (List Char)}
    {raw : List Char} (h : Text.lines text.toList = before ++ raw :: after)
    (h' : Text.lines text'.toList = before ++ raw :: after')
    (hraw : ¬ Acceptable (coreChars raw)) (file : Option String) :
    (∃ fault, (read text file).result = .error fault) ∧ read text' file = read text file := by
  rw [List.append_cons] at h h'
  obtain ⟨ls, more, more', hmore, hmore', hls⟩ := Text.exists_numberedLines_eq_append h h'
  have hfault : ∃ fault, (Reading.addLines {} ls).result = .error fault := by
    cases hfind : ls.findSome? rejection? with
    | some failure => exact ⟨_, Reading.addLines_eq_error hfind {}⟩
    | none =>
      -- then the refused line, which is one of them, would be read
      have hmem : String.ofList raw ∈ ls.map Prod.snd := by
        rw [hls]
        exact List.mem_map_of_mem (by simp)
      obtain ⟨l, hl, heq⟩ := List.mem_map.mp hmem
      have hline := rejection?_eq_none_iff.mp (List.findSome?_eq_none_iff.mp hfind l hl)
      rw [heq, Line.exists_read_iff, String.toList_ofList] at hline
      exact absurd hline hraw
  obtain ⟨fault, hfault⟩ := hfault
  have hread : ∀ {t more}, Text.numberedLines t = ls ++ more →
      read t file = ⟨(Reading.addLines {} ls).log, .error (fault.withFile file)⟩ := by
    intro t more ht
    rw [read, ht, Reading.addLines_append_of_error hfault,
      Logged.bind_of_error (Logged.result_withFile_of_error hfault file), Logged.log_withFile]
  rw [hread hmore, hread hmore']
  exact ⟨⟨_, rfl⟩, rfl⟩

/-- What can be read, and that the first refused line decides how reading fails. -/
theorem acceptance :
    (Mnemonic.names.Nodup ∧ Mnemonic.names.length = 38) ∧
      (∀ (text : String) (file : Option String),
        (∃ is, (read text file).result = .ok is) ↔
          ∀ l ∈ Text.lines text.toList, Acceptable (coreChars l)) ∧
      (∀ (r r' : Reading) (lineno : Int) (raw : String) (fault : Fault),
        (r.addLine lineno raw).result = .error fault →
          r'.addLine lineno raw = r.addLine lineno raw) ∧
      ∀ (text text' : String) (before after after' : List (List Char)) (raw : List Char)
        (file : Option String),
        Text.lines text.toList = before ++ raw :: after →
        Text.lines text'.toList = before ++ raw :: after' →
        ¬ Acceptable (coreChars raw) →
          (∃ fault, (read text file).result = .error fault) ∧ read text' file = read text file :=
  ⟨⟨Mnemonic.table_names_nodup, by decide⟩, fun _ _ => exists_read_eq_ok_iff,
    fun _ r' _ _ _ h => Reading.addLine_eq_of_error h r',
    fun _ _ _ _ _ _ file h h' hraw => read_eq_of_not_acceptable h h' hraw file⟩

/-- A label line with text behind it and a statement are read. A register is refused behind an
    escape too, and what stands on the line below it does not count. -/
theorem acceptance_escaped_register :
    (∃ is, (read "$x y: z\n jmpi $x y // \\%" none).result = .ok is) ∧
      (Reading.addLine ⟨[], some ⟨"x", 7⟩⟩ 2 "lac 0d1, \\%a" =
        Reading.addLine {} 2 "lac 0d1, \\%a") ∧
      (∃ fault, (read "nop\nlac 0d1, \\%a\n$x:" none).result = .error fault) ∧
      read "nop\nlac 0d1, \\%a\n.zeros" none = read "nop\nlac 0d1, \\%a\n$x:" none := by
  obtain ⟨-, hread, hline, hfirst⟩ := acceptance
  have hrefused : Line.read "lac 0d1, \\%a" = .error (.registerOperand "%a") := by decide
  have hfault : (Reading.addLine {} 2 "lac 0d1, \\%a").result =
      .error (.failure ((Cause.registerOperand "%a").atLine (some 2))) := by
    rw [Reading.addLine_of_error hrefused, Logged.result_fail]
  have hraw : ¬ Acceptable (coreChars "lac 0d1, \\%a".toList) := by
    rw [← Line.exists_read_iff, hrefused]
    simp
  refine ⟨(hread _ _).mpr ?_, hline _ _ _ _ _ hfault, hfirst _ _ ["nop".toList] ["$x:".toList]
    [".zeros".toList] _ _ ?_ ?_ hraw⟩
  · have hlines : Text.lines "$x y: z\n jmpi $x y // \\%".toList =
        ["$x y: z".toList, " jmpi $x y // \\%".toList] := by decide
    rw [hlines, List.forall_mem_cons, List.forall_mem_singleton]
    exact ⟨Line.exists_read_iff.mp ⟨.label "x y" "z", by decide⟩,
      Line.exists_read_iff.mp ⟨.statement ⟨.opcode .jmp, true⟩ [.sym "x y"], by decide⟩⟩
  · decide
  · decide

end Source

end AccumulatorAsm
