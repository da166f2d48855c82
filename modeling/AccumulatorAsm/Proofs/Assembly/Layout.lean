/-
  AccumulatorAsm.Proofs.Assembly.Layout

  Layout says nothing. Two texts with the same cores (they may differ in blank lines, comments,
  indentation and line breaks) are assembled side by side: lines carry other numbers, and each
  stage passes on data that differ in these numbers at most. The numbers reach no value, no label
  and no choice between failures.

  `R` relates the numbers of lines that answer each other. Each stage keeps to it, so a failure
  is at one place of the two texts (`SamePlace`).
-/

import Mathlib.Data.List.Forall2
import AccumulatorAsm.Assembly
import AccumulatorAsm.Proofs.Agreement
import AccumulatorAsm.Proofs.Emission
import AccumulatorAsm.Proofs.Linking
import AccumulatorAsm.Proofs.Source.Core

namespace AccumulatorAsm

variable {R : Int → Int → Prop}

/-! ## Reading -/

namespace Source

/-- Readings of the same statements under the same labels. -/
structure Reading.SameUpToLine (R : Int → Int → Prop) (r r' : Reading) : Prop where
  instructions : List.Forall₂ (Instruction.SameUpToLine R) r.instructions r'.instructions
  pending : r.pending.map (·.name) = r'.pending.map (·.name)

/-- Numbered lines of the same text. -/
structure SameLine (R : Int → Int → Prop) (l m : Int × String) : Prop where
  text : m.2 = l.2
  lineno : R l.1 m.1

theorem Reading.SameUpToLine.add {r r' : Reading} (h : r.SameUpToLine R r') {m n : Int}
    (hmn : R m n) (line : Line) : (r.add m line).2.SameUpToLine R (r'.add n line).2 := by
  cases line with
  | blank => exact h
  | label name rest => exact ⟨h.instructions, rfl⟩
  | statement mnemonic ops =>
    -- both take the same pending name
    refine ⟨List.rel_append h.instructions (.cons ⟨?_, hmn⟩ .nil), rfl⟩
    simp only [h.pending]

theorem Reading.agree_addLine {r r' : Reading} (h : r.SameUpToLine R r') {l m : Int × String}
    (hlm : SameLine R l m) :
    Agree (Fault.SameUpToLine R) (Reading.SameUpToLine R)
      (r.addLine l.1 l.2).result (r'.addLine m.1 m.2).result := by
  rw [hlm.text]
  cases hread : Line.read l.2 with
  | ok line =>
    rw [addLine_of_ok hread, addLine_of_ok hread]
    exact .ok (h.add hlm.lineno line)
  | error cause =>
    rw [addLine_of_error hread, addLine_of_error hread]
    exact .error (.failure (cause.sameUpToLine_atLine (.some hlm.lineno) none))

theorem Reading.agree_addLines {ls ms : List (Int × String)}
    (hlines : List.Forall₂ (SameLine R) ls ms) {r r' : Reading} (h : r.SameUpToLine R r') :
    Agree (Fault.SameUpToLine R) (Reading.SameUpToLine R)
      (r.addLines ls).result (r'.addLines ms).result := by
  induction hlines generalizing r r' with
  | nil => exact .ok h
  | cons hlm hlines ih =>
    rw [addLines_cons, addLines_cons]
    exact (agree_addLine h hlm).bind fun _ _ hnext => ih hnext

theorem agree_read {s t : String}
    (h : List.Forall₂ (SameLine R) (numberedCores s) (numberedCores t)) (file : Option String) :
    Agree (Fault.SameUpToLine R) (List.Forall₂ (Instruction.SameUpToLine R))
      (read s file).result (read t file).result := by
  have hstart : Reading.SameUpToLine R {} {} := ⟨.nil, rfl⟩
  -- the lines that were left out of the cores say nothing
  have hlines := Reading.agree_addLines h hstart
  rw [numberedCores, numberedCores, Reading.addLines_cores, Reading.addLines_cores] at hlines
  refine (hlines.withFile fun _ _ hfault => hfault.withFile file).bind fun r r' hr => ?_
  exact .ok hr.instructions

end Source

/-! ## Emission -/

theorem Literal.agree_read (text : String) {l m : Option Int} (h : Option.Rel R l m) :
    Agree (Fault.SameUpToLine R) Eq (read text l) (read text m) := by
  -- a refusal names the line, the value does not depend on it
  have hcause : ∀ cause : Cause, Agree (Fault.SameUpToLine R) (Eq (α := Nat))
      (.error (.failure (cause.atLine l))) (.error (.failure (cause.atLine m))) :=
    fun cause => .error (.failure (cause.sameUpToLine_atLine h none))
  unfold read readChars
  dsimp only
  split
  · exact .ok rfl
  · -- hexadecimal digits
    split
    · exact .ok rfl
    · exact hcause _
  · -- decimal digits
    unfold readDecimal
    split
    · exact hcause _
    split
    · exact .error (.invalid _)
    split
    · exact .ok rfl
    · exact hcause _
  · exact hcause _

namespace Instruction

variable {i j : Instruction}

theorem SameUpToLine.cell (h : i.SameUpToLine R j) (value : Int) (ref : Option String) :
    (i.cell value ref).SameUpToLine R (j.cell value ref) := by
  refine ⟨?_, .some h.line⟩
  rw [h.same]
  rfl

theorem SameUpToLine.stringCells (h : i.SameUpToLine R j) (cs : List Char) :
    List.Forall₂ (Cell.SameUpToLine R) (i.stringCells cs) (j.stringCells cs) := by
  cases cs with
  | nil => exact .nil
  | cons c cs =>
    refine .cons (h.cell _ none) ?_
    rw [List.forall₂_map_left_iff, List.forall₂_map_right_iff, List.forall₂_same]
    exact fun _ _ => ⟨rfl, .some h.line⟩

theorem agree_fail {α β : Type} {S : α → β → Prop} (h : i.SameUpToLine R j) (cause : Cause) :
    Agree (Fault.SameUpToLine R) S (i.fail cause : Logged α).result
      (j.fail cause : Logged β).result :=
  .error (.failure (cause.sameUpToLine_atLine (.some h.line) none))

theorem agree_literal (h : i.SameUpToLine R j) (text : String) :
    Agree (Fault.SameUpToLine R) Eq (i.literal text).result (j.literal text).result :=
  Literal.agree_read text (.some h.line)

theorem agree_fieldValue (h : i.SameUpToLine R j) (text : String) :
    Agree (Fault.SameUpToLine R) Eq (i.fieldValue text).result (j.fieldValue text).result := by
  rw [result_fieldValue, result_fieldValue]
  exact Literal.agree_read text (.some h.line)

theorem agree_emitData (h : i.SameUpToLine R j) (op : Operand) :
    Agree (Fault.SameUpToLine R) (List.Forall₂ (Cell.SameUpToLine R))
      (i.emitData op).result (j.emitData op).result := by
  cases op with
  | str text => exact .ok (h.stringCells text.toList)
  | sym name => exact .ok (.cons (h.cell 0 (some name)) .nil)
  | imm text =>
    refine (agree_literal h text).bind ?_
    rintro value _ rfl
    exact .ok (.cons (h.cell value none) .nil)
  | ind text => exact agree_fail h _
  | expr inner => exact agree_fail h _

theorem agree_emitOpcode (h : i.SameUpToLine R j) (o : Opcode) (op : Operand) :
    Agree (Fault.SameUpToLine R) (Cell.SameUpToLine R)
      (i.emitOpcode o op).result (j.emitOpcode o op).result := by
  have hindirect : j.indirect = i.indirect := by rw [h.same]
  cases op with
  | imm text =>
    refine (agree_fieldValue h text).bind ?_
    rintro value _ rfl
    rw [hindirect]
    exact .ok (h.cell _ none)
  | ind text =>
    refine (agree_fieldValue h text).bind ?_
    rintro value _ rfl
    exact .ok (h.cell _ none)
  | sym name =>
    simp only [emitOpcode, hindirect]
    exact .ok (h.cell _ (some name))
  | expr inner => exact agree_fail h _
  | str text => exact agree_fail h _

theorem agree_emit (h : i.SameUpToLine R j) :
    Agree (Fault.SameUpToLine R) (List.Forall₂ (Cell.SameUpToLine R))
      i.emit.result j.emit.result := by
  have hkind : j.kind = i.kind := by rw [h.same]
  have hoperand : j.firstOperand = i.firstOperand := by
    rw [h.same]
    rfl
  unfold emit
  rw [hkind, hoperand]
  cases i.kind with
  | directive d =>
    cases d with
    | zero => exact .ok (.cons (h.cell 0 none) .nil)
    | data => exact agree_emitData h i.firstOperand
    | other name => exact agree_fail h _
  | opcode o => exact (agree_emitOpcode h o i.firstOperand).map fun _ _ hc => .cons hc .nil

end Instruction

theorem Emission.agree_emitAll {is js : List Instruction}
    (h : List.Forall₂ (Instruction.SameUpToLine R) is js) :
    Agree (Fault.SameUpToLine R) (List.Forall₂ (Cell.SameUpToLine R))
      (emitAll is).result (emitAll js).result := by
  induction h with
  | nil => exact .ok .nil
  | cons hij _ ih =>
    refine (Instruction.agree_emit hij).bind fun _ _ hcells => ?_
    exact ih.bind fun _ _ hmore => .ok (List.rel_append hcells hmore)

/-! ## Linking -/

variable {cs ds : List Cell}

/-- What does not look at lines is the same of both cell lists. -/
theorem Cell.map_eq_of_sameUpToLine {α : Type} {f : Cell → α}
    (hf : ∀ (c : Cell) (line : Option Int), f { c with line } = f c)
    (h : List.Forall₂ (SameUpToLine R) cs ds) : ds.map f = cs.map f := by
  induction h with
  | nil => rfl
  | cons hc _ ih => rw [List.map_cons, List.map_cons, ih, hc.same, hf]

theorem Cell.definition?_eq_of_sameUpToLine (h : List.Forall₂ (SameUpToLine R) cs ds)
    (name : String) : definition? ds name = definition? cs name :=
  definition?_eq_of_map_defines_eq (map_eq_of_sameUpToLine (fun _ _ => rfl) h) name

/-- A cell that cannot be linked fails in both programs, each time at its own line. -/
theorem Cell.SameUpToLine.linkFailure? (h : List.Forall₂ (SameUpToLine R) cs ds)
    (file : Option String) {c d : Cell} (hcd : c.SameUpToLine R d) :
    Option.Rel (Failure.SameUpToLine R) (c.linkFailure? cs file) (d.linkFailure? ds file) := by
  have href : d.ref = c.ref := by rw [hcd.same]
  unfold Cell.linkFailure?
  rw [href]
  cases c.ref with
  | none => exact .none
  | some name =>
    simp only [definition?_eq_of_sameUpToLine h, h.length_eq]
    cases definition? cs name with
    | none => exact .some (Cause.sameUpToLine_atLine _ hcd.line file)
    | some address =>
      dsimp only
      split
      · exact .none
      · exact .some (Failure.sameUpToLine_overCapacity _ _ file)

theorem Cell.SameUpToLine.linked (h : List.Forall₂ (SameUpToLine R) cs ds) {c d : Cell}
    (hcd : c.SameUpToLine R d) : (c.linked cs).SameUpToLine R (d.linked ds) := by
  refine ⟨?_, by rw [linked_line, linked_line]; exact hcd.line⟩
  have href : d.ref = c.ref := by rw [hcd.same]
  have hdefinition : definition? ds = definition? cs := funext (definition?_eq_of_sameUpToLine h)
  unfold Cell.linked
  rw [href, hdefinition]
  cases c.ref.bind (definition? cs) with
  | none => exact hcd.same
  | some address =>
    show d.resolve address = _
    rw [hcd.same]
    rfl

/-- The first failure of one program is at the place of the first failure of the other. -/
theorem Linking.rel_findSome? {f g : Cell → Option Failure}
    (h : List.Forall₂ (fun c d => Option.Rel (Failure.SameUpToLine R) (f c) (g d)) cs ds) :
    Option.Rel (Failure.SameUpToLine R) (cs.findSome? f) (ds.findSome? g) := by
  induction h with
  | nil => exact .none
  | @cons c d _ _ hcd _ ih =>
    rw [List.findSome?_cons, List.findSome?_cons]
    generalize f c = r, g d = t at hcd
    cases hcd with
    | none => exact ih
    | some hfailure => exact .some hfailure

theorem Linking.agree_run (h : List.Forall₂ (Cell.SameUpToLine R) cs ds) (file : Option String) :
    Agree (Fault.SameUpToLine R) (List.Forall₂ (Cell.SameUpToLine R))
      (run cs file).result (run ds file).result := by
  have hfirst : Option.Rel (Failure.SameUpToLine R)
      (cs.findSome? (·.linkFailure? cs file)) (ds.findSome? (·.linkFailure? ds file)) :=
    rel_findSome? (h.imp fun _ _ hcd => hcd.linkFailure? h file)
  rw [run_result, run_result]
  generalize cs.findSome? (·.linkFailure? cs file) = r,
    ds.findSome? (·.linkFailure? ds file) = t at hfirst
  cases hfirst with
  | some hfailure => exact .error (.failure hfailure)
  | none =>
    refine .ok ?_
    rw [List.forall₂_map_left_iff, List.forall₂_map_right_iff]
    exact h.imp fun _ _ hcd => hcd.linked h

/-! ## The image -/

theorem Image.agree_ofCells (room : Room) (h : List.Forall₂ (Cell.SameUpToLine R) cs ds)
    (length : Int) (file : Option String) :
    Agree (Fault.SameUpToLine R) Eq (ofCells room cs length file).result
      (ofCells room ds length file).result := by
  have hvalues : ds.map (·.value) = cs.map (·.value) :=
    Cell.map_eq_of_sameUpToLine (fun _ _ => rfl) h
  have hrefs : ds.map (·.ref) = cs.map (·.ref) :=
    Cell.map_eq_of_sameUpToLine (fun _ _ => rfl) h
  have hmap : ∀ cells : List Cell, firstReference? cells = (cells.map (·.ref)).findSome? id :=
    fun cells => by rw [List.findSome?_map]; rfl
  simp only [ofCells, hmap, hrefs, hvalues, ← h.length_eq]
  split
  · exact .error (.invalid _)
  split
  · exact .error (.failure (Cause.sameUpToLine_atLine _ .none file))
  split
  · exact .error (.failure (Failure.sameUpToLine_overCapacity _ _ file))
  · simp only [Logged.result_noting]
    split
    · exact .error (.invalid _)
    · exact .ok rfl

/-! ## Whole programs -/

namespace Source

/-- Lines with equal cores, in two texts, at the same place among the lines that say anything. -/
def SamePlace (s t : String) (m n : Int) : Prop :=
  ∃ (k : Nat) (core : String),
    (numberedCores s)[k]? = some (m, core) ∧ (numberedCores t)[k]? = some (n, core)

theorem sameLine_numberedCores {s t : String}
    (h : (numberedCores s).map Prod.snd = (numberedCores t).map Prod.snd) :
    List.Forall₂ (SameLine (SamePlace s t)) (numberedCores s) (numberedCores t) := by
  have hlength : (numberedCores s).length = (numberedCores t).length := by
    simpa using congrArg List.length h
  rw [List.forall₂_iff_get]
  -- lines that answer each other have the same index among the cores
  refine ⟨hlength, fun k hs ht => ?_⟩
  have htext : ((numberedCores t)[k]).2 = ((numberedCores s)[k]).2 := by
    have hk := congrArg (·[k]?) h
    simpa [hs, ht] using hk.symm
  refine ⟨htext, k, ((numberedCores s)[k]).2, ?_, ?_⟩
  · exact List.getElem?_eq_getElem hs
  · rw [← htext]
    exact List.getElem?_eq_getElem ht

end Source

open Source in
/-- Texts with the same cores have the same instructions up to their lines and the same image, or
    fail alike, at lines that answer each other. -/
theorem Assembly.agree_of_cores_eq {s t : String}
    (h : (numberedCores s).map Prod.snd = (numberedCores t).map Prod.snd) (room : Room)
    (length : Int) (file : Option String) :
    Agree (Fault.SameUpToLine (SamePlace s t))
        (List.Forall₂ (Instruction.SameUpToLine (SamePlace s t)))
        (read s file).result (read t file).result ∧
      Agree (Fault.SameUpToLine (SamePlace s t)) Eq
        (assemble room s length file).result (assemble room t length file).result := by
  have hread := agree_read (sameLine_numberedCores h) file
  refine ⟨hread, ?_⟩
  unfold assemble
  split
  · exact .error (.invalid _)
  -- stage by stage, each with data that differ in their lines at most
  · refine Agree.withFile ?_ fun _ _ hfault => hfault.withFile file
    refine hread.bind fun is js his => ?_
    have hemission := Emission.agree_emitAll his
    rw [← Emission.result_run, ← Emission.result_run] at hemission
    refine hemission.bind fun cs ds hcells => ?_
    refine (Linking.agree_run hcells file).bind fun cs' ds' hlinked => ?_
    exact Image.agree_ofCells room hlinked length file

open Source in
/-- A label that is used on the third line of one text and the sixth of the other, and defined
    in neither. -/
theorem Assembly.agree_of_cores_eq_undefined :
    let s := "$x:\nlac 0d1\njmp $y"
    let t := "// start\n\n  $x: // here\r\n\tlac 0d1\r\n\r\n jmp $y // gone"
    (numberedCores s).map Prod.snd = (numberedCores t).map Prod.snd ∧
      SamePlace s t 3 6 ∧
      Agree (Fault.SameUpToLine (SamePlace s t))
        (List.Forall₂ (Instruction.SameUpToLine (SamePlace s t)))
        (read s).result (read t).result ∧
      Agree (Fault.SameUpToLine (SamePlace s t)) Eq (assemble .countable s).result
        (assemble .countable t).result := by
  intro s t
  have h : (numberedCores s).map Prod.snd = (numberedCores t).map Prod.snd := by decide
  exact ⟨h, ⟨2, "jmp $y", by decide, by decide⟩, agree_of_cores_eq h .countable
    Image.defaultLength none⟩

end AccumulatorAsm
