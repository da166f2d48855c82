/-
  AccumulatorAsm.Proofs.Source.Core

  The core of a line is all that is read of it. It holds no comment and no outer blanks, so it is
  its own core; a line without either is its own core too. Hence a text is read as its cores that
  are not empty (`addLines_cores`).
-/

import AccumulatorAsm.Proofs.Source.Reading
import AccumulatorAsm.Proofs.Text.Trim

namespace AccumulatorAsm.Source

/-! ## Comments -/

theorem uncomment_eq_self {cs : List Char} (h : ¬ ['/', '/'] <:+: cs) : uncomment cs = cs := by
  fun_induction uncomment cs with
  | case1 => rfl
  | case2 cs => exact absurd (List.prefix_append ['/', '/'] cs).isInfix h
  | case3 c cs _ ih => rw [ih fun hcs => h (List.infix_cons hcs)]

theorem uncomment_cons_of_ne {c : Char} {cs : List Char} (h : c ≠ '/') :
    uncomment (c :: cs) = c :: uncomment cs := by
  rw [uncomment]
  exact fun _ hc _ => h hc

theorem uncomment_cons_of_head? {c : Char} {cs : List Char} (h : cs.head? ≠ some '/') :
    uncomment (c :: cs) = c :: uncomment cs := by
  rw [uncomment]
  rintro rest - rfl
  exact h rfl

/-- A text without slashes stays whatever comes behind it. -/
theorem uncomment_append {cs : List Char} (h : '/' ∉ cs) (ds : List Char) :
    uncomment (cs ++ ds) = cs ++ uncomment ds := by
  induction cs with
  | nil => rfl
  | cons c cs ih =>
    rw [List.mem_cons, not_or] at h
    rw [List.cons_append, uncomment_cons_of_ne (Ne.symm h.1), ih h.2]
    rfl

/-- What is left of a text starts as the text does. -/
theorem head?_of_head?_uncomment {cs : List Char} {c : Char}
    (h : (uncomment cs).head? = some c) : cs.head? = some c := by
  revert h
  fun_cases uncomment cs with
  | case1 => exact id
  | case2 => exact fun h => nomatch h
  | case3 => exact id

theorem not_isInfix_uncomment (cs : List Char) : ¬ ['/', '/'] <:+: uncomment cs := by
  fun_induction uncomment cs with
  | case1 => simp
  | case2 => simp
  | case3 c cs hslash ih =>
    intro h
    rcases List.infix_cons_iff.mp h with hfront | hlater
    · -- two slashes at the front are two slashes of the text
      obtain ⟨rest, hrest⟩ := hfront
      obtain ⟨rfl, htail⟩ := List.cons.inj hrest
      have hhead : cs.head? = some '/' := head?_of_head?_uncomment (by rw [← htail]; rfl)
      obtain ⟨ds, rfl⟩ := List.head?_eq_some_iff.mp hhead
      exact hslash ds rfl rfl
    · exact ih hlater

theorem uncomment_isPrefix (cs : List Char) : uncomment cs <+: cs := by
  fun_induction uncomment cs with
  | case1 => exact List.prefix_refl []
  | case2 => exact List.nil_prefix
  | case3 c cs _ ih => exact List.cons_prefix_cons.mpr ⟨rfl, ih⟩

/-! ## Cores -/

theorem not_isInfix_coreChars (cs : List Char) : ¬ ['/', '/'] <:+: coreChars cs :=
  fun h => not_isInfix_uncomment cs (h.trans (Text.trim_isInfix (uncomment cs)))

theorem coreChars_isInfix (cs : List Char) : coreChars cs <:+: cs :=
  (Text.trim_isInfix _).trans (uncomment_isPrefix cs).isInfix

theorem coreChars_eq_self {cs : List Char} (hcomment : ¬ ['/', '/'] <:+: cs)
    (htrim : Text.trim cs = cs) : coreChars cs = cs := by
  rw [coreChars, uncomment_eq_self hcomment, htrim]

@[simp] theorem coreChars_coreChars (cs : List Char) : coreChars (coreChars cs) = coreChars cs :=
  coreChars_eq_self (not_isInfix_coreChars cs) (Text.trim_trim _)

@[simp] theorem core_core (line : String) : core (core line) = core line := by
  simp [core]

/-- A line says what its core says. -/
theorem Line.read_core (raw : String) : Line.read (core raw) = Line.read raw := by
  simp only [Line.read, core_core]

theorem Line.read_of_core_eq_empty {raw : String} (h : core raw = "") :
    Line.read raw = .ok .blank := by
  simp only [Line.read, h, if_true]

/-- The cores of lines that are not empty, under the numbers of their lines. -/
def cores (lines : List (Int × String)) : List (Int × String) :=
  lines.filterMap fun l => if core l.2 = "" then none else some (l.1, core l.2)

/-- A text is read as its cores that are not empty. -/
theorem Reading.addLines_cores (r : Reading) (lines : List (Int × String)) :
    r.addLines (cores lines) = r.addLines lines := by
  induction lines generalizing r with
  | nil => rfl
  | cons l lines ih =>
    -- an empty core is a blank line, and any other is read like its line
    by_cases hcore : core l.2 = ""
    · have hline : r.addLine l.1 l.2 = pure r := addLine_of_ok (Line.read_of_core_eq_empty hcore)
      have hcores : cores (l :: lines) = cores lines := by simp [cores, hcore]
      rw [hcores, ih, addLines_cons, hline, pure_bind]
    · have hline : r.addLine l.1 (core l.2) = r.addLine l.1 l.2 := by
        rw [addLine, addLine, Line.read_core]
      have hcores : cores (l :: lines) = (l.1, core l.2) :: cores lines := by
        simp [cores, hcore]
      rw [hcores, addLines_cons, addLines_cons, hline]
      simp only [ih]

/-- The cores of a text, each with the number of its line. -/
def numberedCores (text : String) : List (Int × String) :=
  cores (Text.numberedLines text)

end AccumulatorAsm.Source
