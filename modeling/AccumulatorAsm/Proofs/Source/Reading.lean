/-
  AccumulatorAsm.Proofs.Source.Reading

  When a source text can be read, and what its instructions are sure to be. Lines are rejected
  one by one, whatever was read before them, so reading fails at the first line that is rejected
  on its own. The instructions that come out have known directives and no reserved operand.
-/

import AccumulatorAsm.Source.Reading

namespace AccumulatorAsm

/-! ## Operands and mnemonics -/

theorem Operand.ofTokenChars?_ne_expr {t : List Char} {op inner : Operand}
    (h : ofTokenChars? t = some op) : op ≠ .expr inner := by
  rintro rfl
  unfold ofTokenChars? at h
  split at h
  · cases h
  · cases h
  · split at h <;> cases h

theorem Operand.expr_not_mem_of_readAll {tokens : List String} {ops : List Operand}
    (h : readAll tokens = .ok ops) (inner : Operand) : .expr inner ∉ ops := by
  induction tokens generalizing ops with
  | nil =>
    obtain rfl := Except.ok.inj h
    exact List.not_mem_nil
  | cons token tokens ih =>
    rw [readAll, read] at h
    cases ht : ofToken? token with
    | none =>
      rw [ht] at h
      cases h
    | some op =>
      rw [ht] at h
      cases hrest : readAll tokens with
      | error cause =>
        rw [hrest] at h
        cases h
      | ok rest =>
        rw [hrest] at h
        obtain rfl := Except.ok.inj h
        intro hmem
        -- the reserved operand would be this token's or a later one's
        rcases List.mem_cons.mp hmem with hop | hrest'
        · exact ofTokenChars?_ne_expr ht hop.symm
        · exact ih hrest hrest'

/-- The mnemonics name known directives only. -/
theorem Mnemonic.kind_ne_other_of_mem_table {name : String} {m : Mnemonic}
    (h : (name, m) ∈ table) (other : String) : m.kind ≠ .directive (.other other) := by
  have hall : ∀ e ∈ table, e.2.kind ∈
      Directive.known.map StatementKind.directive ++ Opcode.all.map StatementKind.opcode := by
    decide
  intro hkind
  have hmem := hall (name, m) h
  rw [hkind] at hmem
  simp [Directive.known] at hmem

theorem Mnemonic.mem_table_of_ofName? {name : String} {m : Mnemonic} (h : ofName? name = some m) :
    (name, m) ∈ table := by
  obtain ⟨before, after, htable, -⟩ := List.lookup_eq_some_iff.mp h
  rw [htable]
  exact List.mem_append_right _ List.mem_cons_self

/-! ## Lines -/

/-- An instruction as the reader makes them: its directive is known and no operand reserved. -/
structure Instruction.Regular (i : Instruction) : Prop where
  directive : ∀ name, i.kind ≠ .directive (.other name)
  operands : ∀ inner, .expr inner ∉ i.operands

theorem Instruction.Regular.firstOperand_ne_expr {i : Instruction} (h : i.Regular)
    (inner : Operand) : i.firstOperand ≠ .expr inner := by
  unfold Instruction.firstOperand
  cases ho : i.operands with
  | nil => simp
  | cons op ops =>
    rintro rfl
    exact h.operands inner (ho ▸ List.mem_cons_self)

namespace Source

theorem Line.regular_of_read {raw : String} {m : Mnemonic} {ops : List Operand}
    (h : Line.read raw = .ok (.statement m ops)) :
    (∀ name, m.kind ≠ .directive (.other name)) ∧ ∀ inner, .expr inner ∉ ops := by
  unfold Line.read at h
  dsimp only at h
  split at h
  · cases h
  split at h
  · unfold readLabel at h
    split at h
    · cases h
    · split at h <;> cases h
  · unfold readStatement at h
    dsimp only at h
    split at h
    · cases h
    · next hm =>
      cases hops : Operand.readAll (Operand.tokens (splitStatement (core raw)).2) with
      | error cause =>
        rw [hops] at h
        cases h
      | ok ops' =>
        rw [hops] at h
        obtain ⟨rfl, rfl⟩ := Line.statement.inj (Except.ok.inj h)
        exact ⟨Mnemonic.kind_ne_other_of_mem_table (Mnemonic.mem_table_of_ofName? hm),
          Operand.expr_not_mem_of_readAll hops⟩

/-- Why a numbered line is rejected, if it is. -/
def rejection? (l : Int × String) : Option Failure :=
  match Line.read l.2 with
  | .ok _ => none
  | .error cause => some (cause.atLine (some l.1))

theorem rejection?_eq_none_iff {l : Int × String} :
    rejection? l = none ↔ ∃ line, Line.read l.2 = .ok line := by
  unfold rejection?
  cases Line.read l.2 <;> simp

theorem rejection?_eq_some_iff {l : Int × String} {failure : Failure} :
    rejection? l = some failure ↔
      ∃ cause, Line.read l.2 = .error cause ∧ failure = cause.atLine (some l.1) := by
  unfold rejection?
  cases Line.read l.2 <;> simp [eq_comm]

/-! ## Line after line -/

namespace Reading

theorem addLine_of_ok {r : Reading} {lineno : Int} {raw : String} {line : Line}
    (h : Line.read raw = .ok line) :
    r.addLine lineno raw = ⟨(r.add lineno line).1, .ok (r.add lineno line).2⟩ := by
  rw [addLine, h]

theorem addLine_of_error {r : Reading} {lineno : Int} {raw : String} {cause : Cause}
    (h : Line.read raw = .error cause) :
    r.addLine lineno raw = .fail (.failure (cause.atLine (some lineno))) := by
  rw [addLine, h]

@[simp] theorem addLines_nil (r : Reading) : r.addLines [] = pure r := rfl

theorem addLines_cons (r : Reading) (l : Int × String) (lines : List (Int × String)) :
    r.addLines (l :: lines) = r.addLine l.1 l.2 >>= (·.addLines lines) := rfl

theorem addLines_append (r : Reading) (lines more : List (Int × String)) :
    r.addLines (lines ++ more) = r.addLines lines >>= (·.addLines more) :=
  List.foldlM_append ..

theorem addLines_singleton (r : Reading) (l : Int × String) :
    r.addLines [l] = r.addLine l.1 l.2 := by
  simp [addLines_cons]

/-- The first line that is rejected ends the reading, whatever was read before. -/
theorem addLines_eq_error {lines : List (Int × String)} {failure : Failure}
    (h : lines.findSome? rejection? = some failure) (r : Reading) :
    (r.addLines lines).result = .error (.failure failure) := by
  -- the reading so far does not decide whether a line is rejected
  induction lines generalizing r with
  | nil => cases h
  | cons l lines ih =>
    rw [addLines_cons, Logged.result_bind_eq_error]
    cases hread : Line.read l.2 with
    | ok line =>
      have hnone : rejection? l = none := rejection?_eq_none_iff.mpr ⟨line, hread⟩
      rw [List.findSome?_cons, hnone] at h
      exact .inr ⟨_, by rw [addLine_of_ok hread], ih h _⟩
    | error cause =>
      have hsome := rejection?_eq_some_iff.mpr ⟨cause, hread, rfl⟩
      rw [List.findSome?_cons, hsome] at h
      obtain rfl := Option.some.inj h
      exact .inl (by rw [addLine_of_error hread, Logged.result_fail])

theorem exists_addLines_eq_ok {lines : List (Int × String)}
    (h : lines.findSome? rejection? = none) (r : Reading) :
    ∃ r', (r.addLines lines).result = .ok r' := by
  induction lines generalizing r with
  | nil => exact ⟨r, rfl⟩
  | cons l lines ih =>
    rw [List.findSome?_eq_none_iff] at h
    obtain ⟨line, hread⟩ := rejection?_eq_none_iff.mp (h l List.mem_cons_self)
    obtain ⟨r', hr'⟩ := ih (List.findSome?_eq_none_iff.mpr fun x hx =>
      h x (List.mem_cons_of_mem _ hx)) (r.add l.1 line).2
    refine ⟨r', ?_⟩
    rw [addLines_cons, Logged.result_bind_eq_ok]
    exact ⟨_, by rw [addLine_of_ok hread], hr'⟩

/-- One line adds regular instructions only. -/
theorem regular_addLine {r r' : Reading} {lineno : Int} {raw : String}
    (hr : ∀ i ∈ r.instructions, i.Regular) (h : (r.addLine lineno raw).result = .ok r') :
    ∀ i ∈ r'.instructions, i.Regular := by
  cases hread : Line.read raw with
  | error cause =>
    rw [addLine_of_error hread] at h
    cases h
  | ok line =>
    rw [addLine_of_ok hread] at h
    obtain rfl := Except.ok.inj h
    cases line with
    | blank => exact hr
    | label name rest => exact hr
    | statement m ops =>
      -- the only line that adds an instruction
      obtain ⟨hkind, hops⟩ := Line.regular_of_read hread
      intro i hi
      rcases List.mem_append.mp hi with hi | hi
      · exact hr i hi
      · rw [List.mem_singleton.mp hi]
        exact ⟨hkind, hops⟩

theorem regular_addLines {lines : List (Int × String)} {r r' : Reading}
    (hr : ∀ i ∈ r.instructions, i.Regular) (h : (r.addLines lines).result = .ok r') :
    ∀ i ∈ r'.instructions, i.Regular := by
  induction lines generalizing r with
  | nil =>
    obtain rfl := Except.ok.inj h
    exact hr
  | cons l lines ih =>
    rw [addLines_cons, Logged.result_bind_eq_ok] at h
    obtain ⟨r₁, hline, hlines⟩ := h
    exact ih (regular_addLine hr hline) hlines

end Reading

/-! ## Whole texts -/

theorem read_eq_ok_iff {text : String} {file : Option String} {is : List Instruction} :
    (read text file).result = .ok is ↔
      ∃ r, (Reading.addLines {} (Text.numberedLines text)).result = .ok r ∧
        r.instructions = is := by
  rw [read, Logged.result_bind_eq_ok]
  constructor
  · rintro ⟨r, hr, his⟩
    exact ⟨r, Logged.result_withFile_eq_ok.mp hr, Except.ok.inj his⟩
  · rintro ⟨r, hr, rfl⟩
    exact ⟨r, Logged.result_withFile_eq_ok.mpr hr, rfl⟩

theorem regular_of_read {text : String} {file : Option String} {is : List Instruction}
    (h : (read text file).result = .ok is) : ∀ i ∈ is, i.Regular := by
  obtain ⟨r, hr, rfl⟩ := read_eq_ok_iff.mp h
  exact Reading.regular_addLines (by simp) hr

theorem read_eq_error {text : String} {file : Option String} {failure : Failure}
    (h : (Text.numberedLines text).findSome? rejection? = some failure) :
    (read text file).result = .error (.failure (failure.withFile file)) := by
  rw [read, Logged.result_bind_eq_error, Logged.result_withFile_eq_error]
  exact .inl ⟨_, Reading.addLines_eq_error h {}, rfl⟩

theorem exists_read_eq_ok {text : String} (file : Option String)
    (h : (Text.numberedLines text).findSome? rejection? = none) :
    ∃ is, (read text file).result = .ok is := by
  obtain ⟨r, hr⟩ := Reading.exists_addLines_eq_ok h {}
  exact ⟨r.instructions, read_eq_ok_iff.mpr ⟨r, hr, rfl⟩⟩

/-- Reading fails with the cause of a line. -/
theorem caused_of_read {text : String} {file : Option String} {fault : Fault}
    (h : (read text file).result = .error fault) : fault.Caused file := by
  cases hfind : (Text.numberedLines text).findSome? rejection? with
  | none =>
    obtain ⟨is, his⟩ := exists_read_eq_ok file hfind
    rw [his] at h
    cases h
  | some failure =>
    obtain ⟨l, -, hl⟩ := List.exists_of_findSome?_eq_some hfind
    obtain ⟨cause, -, rfl⟩ := rejection?_eq_some_iff.mp hl
    rw [read_eq_error hfind, Cause.withFile_atLine] at h
    obtain rfl := Except.error.inj h
    exact .failure cause (some l.1)

/-- A text that is read has no line that is rejected. -/
theorem exists_line_of_read {text : String} {file : Option String} {is : List Instruction}
    (h : (read text file).result = .ok is) :
    ∀ l ∈ Text.numberedLines text, ∃ line, Line.read l.2 = .ok line := by
  intro l hl
  rw [← rejection?_eq_none_iff]
  cases hfind : (Text.numberedLines text).findSome? rejection? with
  | none => exact List.findSome?_eq_none_iff.mp hfind l hl
  | some failure =>
    rw [read_eq_error hfind] at h
    cases h

end Source

end AccumulatorAsm
