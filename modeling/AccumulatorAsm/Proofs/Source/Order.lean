/-
  AccumulatorAsm.Proofs.Source.Order

  Kinds of lines and their order. Statement lines and label lines are told by their cores; the
  lines between two lines matter only if they are not blank. Below a line there is at most one
  first line that is not blank (`isLast_or_exists_above`, `Above.unique`).
-/

import Mathlib.Data.List.Nodup
import AccumulatorAsm.Proofs.Source.Forms

namespace AccumulatorAsm.Source

/-! ## Lines and what is below them -/

def IsLabelLine (l : Int × String) : Prop :=
  (coreChars l.2.toList).head? = some '$'

def isStatementLine (l : Int × String) : Bool :=
  match coreChars l.2.toList with
  | [] => false
  | c :: _ => c ≠ '$'

/-- A label line and its name. -/
def Names (l : Int × String) (name : String) : Prop :=
  ∃ rest, Says (coreChars l.2.toList) (.label name rest)

/-- Line `k` is above line `m`, with blank lines only in between: no statement, and no other
    label line. -/
def Above (lines : List (Int × String)) (k m : Int) : Prop :=
  k < m ∧ ∀ b ∈ lines, k < b.1 → b.1 < m → coreChars b.2.toList = []

/-- Only blank lines are left below line `k`. -/
def IsLast (lines : List (Int × String)) (k : Int) : Prop :=
  ∀ b ∈ lines, k < b.1 → coreChars b.2.toList = []

/-! ## Kinds of lines -/

theorem names_iff {l : Int × String} {name : String} :
    Names l name ↔ ∃ rest, Line.read l.2 = .ok (.label name rest) := by
  simp only [Names, Line.read_eq_ok_iff]

theorem Names.unique {l : Int × String} {name name' : String} (h : Names l name)
    (h' : Names l name') : name = name' := by
  obtain ⟨rest, h⟩ := names_iff.mp h
  obtain ⟨rest', h'⟩ := names_iff.mp h'
  exact (Line.label.inj (Except.ok.inj (h.symm.trans h'))).1

theorem Names.core_ne_nil {l : Int × String} {name : String} (h : Names l name) :
    coreChars l.2.toList ≠ [] := by
  obtain ⟨rest, h⟩ := h
  rw [Ne, h.core_eq_nil_iff]
  exact Line.noConfusion

theorem isStatementLine_iff {l : Int × String} :
    isStatementLine l = true ↔ coreChars l.2.toList ≠ [] ∧ ¬ IsLabelLine l := by
  unfold isStatementLine IsLabelLine
  split
  · next h => simp [h]
  · next c cs h => simp [h]

theorem isStatementLine_iff_of_read {l : Int × String} {line : Line}
    (h : Line.read l.2 = .ok line) :
    isStatementLine l = true ↔ ∃ m ops, line = .statement m ops := by
  have hform := Line.read_eq_ok_iff.mp h
  rw [isStatementLine_iff, Ne, hform.core_eq_nil_iff, IsLabelLine, hform.head?_eq_dollar_iff]
  cases line <;> simp

/-! ## Order of lines -/

theorem eq_of_map_pairwise_lt {α : Type} {f : α → Int} {as : List α}
    (h : (as.map f).Pairwise (· < ·)) {a b : α} (ha : a ∈ as) (hb : b ∈ as) (hab : f a = f b) :
    a = b :=
  List.inj_on_of_nodup_map (h.imp fun hlt => Int.ne_of_lt hlt) ha hb hab

/-- Lines in order are told apart by their numbers. -/
theorem eq_of_fst_eq {lines : List (Int × String)} (hlines : lines.Pairwise (·.1 < ·.1))
    {l m : Int × String} (hl : l ∈ lines) (hm : m ∈ lines) (h : l.1 = m.1) : l = m :=
  eq_of_map_pairwise_lt (List.pairwise_map.mpr hlines) hl hm h

section Order

variable {lines : List (Int × String)} {x : Int × String} {k m : Int}

theorem isLast_concat :
    IsLast (lines ++ [x]) k ↔ IsLast lines k ∧ (k < x.1 → coreChars x.2.toList = []) := by
  simp [IsLast, or_imp, forall_and]

/-- A line that is not above `m` does not count. -/
theorem above_concat (h : m ≤ x.1) : Above (lines ++ [x]) k m ↔ Above lines k m := by
  have hx : ¬ x.1 < m := Int.not_lt.mpr h
  simp [Above, or_imp, forall_and, hx]

/-- Above the next line is what was last. -/
theorem above_concat_self (h : ∀ l ∈ lines, l.1 < x.1) :
    Above (lines ++ [x]) k x.1 ↔ k < x.1 ∧ IsLast lines k := by
  rw [above_concat (Int.le_refl _)]
  exact and_congr_right fun _ => forall₂_congr fun b hb => by simp [h b hb]

theorem pairwise_concat_iff :
    (lines ++ [x]).Pairwise (·.1 < ·.1) ↔
      lines.Pairwise (·.1 < ·.1) ∧ ∀ l ∈ lines, l.1 < x.1 := by
  simp [List.pairwise_append]

theorem le_of_mem_concat (h : ∀ l ∈ lines, l.1 < x.1) {b : Int × String}
    (hb : b ∈ lines ++ [x]) : b.1 ≤ x.1 := by
  rcases List.mem_append.mp hb with hb | hb
  · exact Int.le_of_lt (h b hb)
  · exact Int.le_of_eq (congrArg Prod.fst (List.mem_singleton.mp hb))

/-- Below a line there is a first one that is not blank, unless all are blank. -/
theorem isLast_or_exists_above (h : lines.Pairwise (·.1 < ·.1)) (k : Int) :
    IsLast lines k ∨ ∃ b ∈ lines, coreChars b.2.toList ≠ [] ∧ Above lines k b.1 := by
  induction lines using List.reverseRecOn with
  | nil => exact .inl fun b hb => nomatch hb
  | append_singleton lines x ih =>
    obtain ⟨hlines, hx⟩ := pairwise_concat_iff.mp h
    rcases ih hlines with hlast | ⟨b, hb, hcore, habove⟩
    · -- the line at the end decides if all before it are blank
      by_cases hend : k < x.1 ∧ coreChars x.2.toList ≠ []
      · exact .inr ⟨x, by simp, hend.2, (above_concat_self hx).mpr ⟨hend.1, hlast⟩⟩
      · rw [not_and, not_not] at hend
        exact .inl (isLast_concat.mpr ⟨hlast, hend⟩)
    · have hle : b.1 ≤ x.1 := Int.le_of_lt (hx b hb)
      exact .inr ⟨b, List.mem_append_left _ hb, hcore, (above_concat hle).mpr habove⟩

/-- There is only one such line. -/
theorem Above.unique {b b' : Int × String} (hb : b ∈ lines) (hb' : b' ∈ lines)
    (hcore : coreChars b.2.toList ≠ []) (hcore' : coreChars b'.2.toList ≠ [])
    (h : Above lines k b.1) (h' : Above lines k b'.1) : b.1 = b'.1 := by
  rcases Int.lt_trichotomy b.1 b'.1 with hlt | heq | hlt
  · exact absurd (h'.2 b hb h.1 hlt) hcore
  · exact heq
  · exact absurd (h.2 b' hb' h'.1 hlt) hcore'

theorem IsLast.not_above {b : Int × String} (h : IsLast lines k) (hb : b ∈ lines)
    (hcore : coreChars b.2.toList ≠ []) : ¬ Above lines k b.1 :=
  fun habove => hcore (h b hb habove.1)

end Order

end AccumulatorAsm.Source
