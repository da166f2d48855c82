/-
  AccumulatorAsm.Proofs.Source.Forms

  What a line says, told from its core alone: nothing, a label between a dollar sign and the first
  colon, or a mnemonic with operands behind it. `Says` has one constructor for each, and a line is
  read as what its core says (`Line.read_eq_ok_iff`).
-/

import AccumulatorAsm.Proofs.Source.Listing

namespace AccumulatorAsm

theorem Mnemonic.plain_of_ofName? {word : List Char} {m : Mnemonic}
    (h : ofName? (String.ofList word) = some m) : word ≠ [] ∧ '$' ∉ word := by
  obtain ⟨hne, hplain⟩ := plain_of_mem_table (mem_table_of_ofName? h)
  rw [String.toList_ofList] at hne hplain
  exact ⟨hne, fun hc => (hplain '$' hc).2.2.2 rfl⟩

namespace Source

/-- What a core says. -/
inductive Says (core : List Char) : Line → Prop
  | blank (h : core = []) : Says core .blank
  | label {name rest : List Char} (h : core = '$' :: (name ++ ':' :: rest)) (hcolon : ':' ∉ name)
      (hname : Text.trim name ≠ []) :
      Says core (.label (String.ofList (Text.trim name)) (String.ofList (Text.trim rest)))
  | statement {word rest : List Char} {m : Mnemonic} {ops : List Operand}
      (h : core = word ++ rest) (hword : ∀ c ∈ word, Text.isBlank c = false)
      (hrest : ∀ c, rest.head? = some c → Text.isBlank c = true)
      (hm : Mnemonic.ofName? (String.ofList word) = some m)
      (hops : Operand.readAll (Operand.tokens (Text.trimmed (String.ofList rest))) = .ok ops) :
      Says core (.statement m ops)

theorem Says.core_eq_nil_iff {core : List Char} {line : Line} (h : Says core line) :
    core = [] ↔ line = .blank := by
  cases h with
  | blank h => simp [h]
  | label h => simp [h]
  | statement h _ _ hm _ => simp [h, (Mnemonic.plain_of_ofName? hm).1]

theorem Says.head?_eq_dollar_iff {core : List Char} {line : Line} (h : Says core line) :
    core.head? = some '$' ↔ ∃ name rest, line = .label name rest := by
  cases h with
  | blank h => simp [h]
  | label h => simp [h]
  | statement h _ _ hm _ =>
    obtain ⟨hne, hdollar⟩ := Mnemonic.plain_of_ofName? hm
    have hhead : core.head? ≠ some '$' := by
      rw [h, List.head?_append_of_ne_nil _ hne]
      exact fun hc => hdollar (List.mem_of_mem_head? hc)
    simp [hhead]

/-! ## Parts of a core -/

theorem trim_coreChars (cs : List Char) : Text.trim (coreChars cs) = coreChars cs :=
  Text.trim_trim _

theorem core_toList (raw : String) : (core raw).toList = coreChars raw.toList :=
  String.toList_ofList

theorem core_eq_empty_iff {raw : String} : core raw = "" ↔ coreChars raw.toList = [] := by
  rw [← String.toList_eq_nil_iff, core_toList]

theorem isLabelLine_core (raw : String) :
    isLabelLine (core raw) = true ↔ (coreChars raw.toList).head? = some '$' := by
  rw [isLabelLine, core_toList, trim_coreChars, beq_iff_eq]

/-- Name and rest of a label line stand before its first colon and behind it. -/
theorem labelParts?_append {name : List Char} (h : ':' ∉ name) (rest : List Char) :
    labelParts? ('$' :: (name ++ ':' :: rest)) = some (Text.trim name, Text.trim rest) := by
  have hname : ∀ c ∈ name, decide (c ≠ ':') = true := by
    intro c hc
    rw [decide_eq_true_eq]
    rintro rfl
    exact h hc
  rw [labelParts?, if_pos (by simp), List.takeWhile_append_of_pos hname,
    List.dropWhile_append_of_pos hname]
  simp

/-- A core that is not empty is its first word and what stands behind the word. -/
theorem exists_word_append {cs : List Char} (htrim : Text.trim cs = cs) (hne : cs ≠ []) :
    ∃ word rest, cs = word ++ rest ∧ word ≠ [] ∧ (∀ c ∈ word, Text.isBlank c = false) ∧
      ∀ c, rest.head? = some c → Text.isBlank c = true := by
  refine ⟨cs.takeWhile (!Text.isBlank ·), cs.dropWhile (!Text.isBlank ·),
    List.takeWhile_append_dropWhile.symm, ?_, ?_, ?_⟩
  · -- the first character is no blank
    obtain ⟨c, rest, rfl⟩ := List.exists_cons_of_ne_nil hne
    have hstart := (Text.trim_eq_self_iff.mp htrim).1
    have hc : Text.isBlank c = false := Text.trimStart_eq_self_iff.mp hstart c rfl
    simp [hc]
  · intro c hc
    simpa using List.mem_takeWhile_imp hc
  · intro c hc
    have hhead := List.head?_dropWhile_not (!Text.isBlank ·) cs
    rw [hc] at hhead
    simpa using hhead

/-! ## The reading of a line -/

theorem splitLabel_core {raw : String} {name rest : List Char}
    (h : coreChars raw.toList = '$' :: (name ++ ':' :: rest)) (hcolon : ':' ∉ name) :
    splitLabel (core raw) =
      (some (String.ofList (Text.trim name)), String.ofList (Text.trim rest)) := by
  rw [splitLabel, core_toList, trim_coreChars, h, labelParts?_append hcolon]

theorem splitStatement_core {raw : String} {word rest : List Char}
    (h : coreChars raw.toList = word ++ rest) (hne : word ≠ [])
    (hword : ∀ c ∈ word, Text.isBlank c = false)
    (hrest : ∀ c, rest.head? = some c → Text.isBlank c = true) :
    splitStatement (core raw) = (String.ofList word, Text.trimmed (String.ofList rest)) := by
  have hcore : core raw = String.ofList (Text.trim (word ++ rest)) := by
    rw [← h, trim_coreChars, core]
  rw [hcore, splitStatement_append hne hword hrest, Text.trimmed, String.toList_ofList]

/-- A line that can be read says what was read. -/
theorem says_of_read {raw : String} {line : Line} (h : Line.read raw = .ok line) :
    Says (coreChars raw.toList) line := by
  unfold Line.read at h
  dsimp only at h
  split at h
  · next hempty =>
    obtain rfl := Except.ok.inj h
    exact .blank (core_eq_empty_iff.mp hempty)
  split at h
  · next hlabel =>
    obtain ⟨cs, hcs⟩ := List.head?_eq_some_iff.mp ((isLabelLine_core raw).mp hlabel)
    by_cases hcolon : ':' ∈ cs
    · -- the name stands before the first colon
      obtain ⟨name, rest, rfl, hname⟩ := List.eq_append_cons_of_mem hcolon
      rw [Line.readLabel, splitLabel_core hcs hname] at h
      dsimp only at h
      split at h
      · cases h
      · next hne =>
        obtain rfl := Except.ok.inj h
        exact .label hcs hname (by simpa using hne)
    · have hnone : splitLabel (core raw) = (none, core raw) := by
        rw [splitLabel, core_toList, trim_coreChars, hcs, labelParts?, if_neg hcolon, ← hcs, core]
      rw [Line.readLabel, hnone] at h
      cases h
  · next hempty _ =>
    obtain ⟨word, rest, hcore, hne, hword, hrest⟩ :=
      exists_word_append (trim_coreChars raw.toList) (mt core_eq_empty_iff.mpr hempty)
    rw [Line.readStatement, splitStatement_core hcore hne hword hrest] at h
    dsimp only at h
    split at h
    · cases h
    · next m hm =>
      cases hops : Operand.readAll (Operand.tokens (Text.trimmed (String.ofList rest))) with
      | error cause =>
        rw [hops] at h
        cases h
      | ok ops =>
        rw [hops] at h
        obtain rfl := Except.ok.inj h
        exact .statement hcore hword hrest hm hops

/-- A line that starts with a mnemonic is read by its operands. -/
theorem Line.read_of_mnemonic {raw : String} {word rest : List Char} {m : Mnemonic}
    (hcore : coreChars raw.toList = word ++ rest) (hword : ∀ c ∈ word, Text.isBlank c = false)
    (hrest : ∀ c, rest.head? = some c → Text.isBlank c = true)
    (hm : Mnemonic.ofName? (String.ofList word) = some m) :
    Line.read raw =
      (Operand.readAll (Operand.tokens (Text.trimmed (String.ofList rest)))).map
        (.statement m) := by
  obtain ⟨hne, hdollar⟩ := Mnemonic.plain_of_ofName? hm
  have hempty : core raw ≠ "" := by
    rw [Ne, core_eq_empty_iff, hcore]
    exact List.append_ne_nil_of_left_ne_nil hne _
  have hlabel : isLabelLine (core raw) ≠ true := by
    rw [Ne, isLabelLine_core, hcore, List.head?_append_of_ne_nil _ hne]
    exact fun hc => hdollar (List.mem_of_mem_head? hc)
  simp only [Line.read, hempty, hlabel, if_false, Line.readStatement,
    splitStatement_core hcore hne hword hrest, hm]
  rfl

theorem Says.read_eq {raw : String} {line : Line} (h : Says (coreChars raw.toList) line) :
    Line.read raw = .ok line := by
  have hempty : core raw = "" ↔ line = .blank := core_eq_empty_iff.trans h.core_eq_nil_iff
  have hlabel : isLabelLine (core raw) = true ↔ ∃ name rest, line = .label name rest :=
    (isLabelLine_core raw).trans h.head?_eq_dollar_iff
  cases h with
  | blank => exact Line.read_of_core_eq_empty (hempty.mpr rfl)
  | @label name rest hcore hcolon hname =>
    have hname' : String.ofList (Text.trim name) ≠ "" := by simpa using hname
    simp [Line.read, hempty, hlabel, Line.readLabel, splitLabel_core hcore hcolon, hname']
  | statement hcore hword hrest hm hops =>
    rw [Line.read_of_mnemonic hcore hword hrest hm, hops]
    rfl

theorem Line.read_eq_ok_iff {raw : String} {line : Line} :
    Line.read raw = .ok line ↔ Says (coreChars raw.toList) line :=
  ⟨says_of_read, Says.read_eq⟩

end Source

end AccumulatorAsm
