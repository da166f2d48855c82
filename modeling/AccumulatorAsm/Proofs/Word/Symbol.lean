/-
  AccumulatorAsm.Proofs.Word.Symbol

  Symbols of digits. A digit has two symbols, which are one for the digits below ten; the reader
  takes exactly these (`hexDigit?_eq_some_iff`). They are also the characters whose full upper
  case stands in the row of the sixteen symbols that words are written with
  (`isSymbol_iff_upperChar`): of the characters beyond ASCII some have letters of ASCII in their
  upper case, but none has a part of that row.
-/

import Mathlib.Data.List.Infix
import AccumulatorAsm.Proofs.Word.Digits
import AccumulatorAsm.Text.Uppercase

namespace AccumulatorAsm

/-! ## Upper case -/

namespace Text

/-- What holds of the first code points holds of the characters of ASCII. -/
theorem forall_ascii {P : Char → Prop} (h : ∀ n < 0x80, P (Char.ofNat n)) {c : Char}
    (hc : c.toNat < 0x80) : P c := by
  have hP := h c.toNat hc
  rwa [Char.ofNat_toNat] at hP

/-- An upper case is an expansion of the table, the counterpart in a run of the table, or the
    character itself. -/
theorem upperChar_cases (c : Char) :
    (∃ e ∈ upperExpansions, e.1 = c.toNat ∧ upperChar c = e.2.map Char.ofNat) ∨
      (∃ r ∈ upperRuns, r.1 ≤ c.toNat ∧ c.toNat ≤ r.2.1 ∧
        upperChar c = [Char.ofNat (r.2.2.2 + (c.toNat - r.1))]) ∨
      upperChar c = [c] := by
  unfold upperChar
  split
  · next expansion h =>
    obtain ⟨front, back, htable, -⟩ := List.lookup_eq_some_iff.mp h
    refine .inl ⟨(c.toNat, expansion), ?_, rfl, rfl⟩
    rw [htable]
    exact List.mem_append_right front List.mem_cons_self
  · split
    · next first last step upper h =>
      have hrange := List.find?_some h
      simp only [Bool.and_eq_true, decide_eq_true_eq] at hrange
      exact .inr (.inl ⟨_, List.mem_of_find?_eq_some h, hrange.1.1, hrange.1.2, rfl⟩)
    · exact .inr (.inr rfl)

/-- The tables have one run of ASCII letters, and nothing else within ASCII. -/
theorem letters_of_mem_upperRuns {r : Nat × Nat × Nat × Nat} (h : r ∈ upperRuns) :
    0x61 ≤ r.1 ∧ r.2.1 ≤ 0x7A ∨ 0x80 ≤ r.1 ∧ 0x47 ≤ r.2.2.2 :=
  (by decide +kernel :
    ∀ r ∈ upperRuns, 0x61 ≤ r.1 ∧ r.2.1 ≤ 0x7A ∨ 0x80 ≤ r.1 ∧ 0x47 ≤ r.2.2.2) r h

/-- Within ASCII only the lower-case letters change. -/
theorem upperChar_of_ascii {c : Char} (h : c.toNat < 0x80) : upperChar c = [c.toUpper] := by
  by_cases hletter : 0x61 ≤ c.toNat ∧ c.toNat ≤ 0x7A
  · exact forall_ascii
      (P := fun c => 0x61 ≤ c.toNat ∧ c.toNat ≤ 0x7A → upperChar c = [c.toUpper])
      (by decide +kernel) h hletter
  · have hsame : c.toUpper = c := dif_neg hletter
    have hexpansions : ∀ e ∈ upperExpansions, 0x80 ≤ e.1 := by decide
    rcases upperChar_cases c with ⟨e, he, hkey, -⟩ | ⟨r, hr, hfirst, hlast, -⟩ | heq
    · have hlow := hexpansions e he
      omega
    · have hrun := letters_of_mem_upperRuns hr
      omega
    · rw [heq, hsame]

end Text

namespace Word

/-- The code points of the symbols end at that of `F`. -/
theorem toNat_lt_of_mem_hexSymbols {c : Char} (h : c ∈ hexSymbols) : c.toNat < 0x47 := by
  have hall : hexSymbols.all (·.toNat < 0x47) = true := by decide
  exact of_decide_eq_true (List.all_eq_true.mp hall c h)

theorem ofNat_not_mem_hexSymbols {n : Nat} (h : 0x47 ≤ n) : Char.ofNat n ∉ hexSymbols := by
  intro hmem
  by_cases hvalid : n.isValidChar
  · have hn : (Char.ofNat n).toNat = n := by
      rw [Char.ofNat, dif_pos hvalid]
      rfl
    have hlt := toNat_lt_of_mem_hexSymbols hmem
    omega
  · -- a number of no character gives NUL
    rw [Char.ofNat, dif_neg hvalid] at hmem
    revert hmem
    decide

/-- No character beyond ASCII has a part of the row of symbols for its upper case. -/
theorem not_upperChar_isInfix {c : Char} (h : 0x80 ≤ c.toNat) :
    ¬ Text.upperChar c <:+: hexSymbols := by
  intro hpart
  rcases Text.upperChar_cases c with ⟨e, he, -, heq⟩ | ⟨r, hr, hfirst, hlast, heq⟩ | heq
  · -- letters of an expansion may be in the row, but not next to each other
    have hall : ∀ e ∈ Text.upperExpansions, ¬ e.2.map Char.ofNat <:+: hexSymbols := by
      decide +kernel
    rw [heq] at hpart
    exact hall e he hpart
  · -- the counterparts in a run are behind the row
    have hrun := Text.letters_of_mem_upperRuns hr
    rw [heq] at hpart
    exact ofNat_not_mem_hexSymbols (by omega) (hpart.subset List.mem_cons_self)
  · rw [heq] at hpart
    have hlt := toNat_lt_of_mem_hexSymbols (hpart.subset List.mem_cons_self)
    omega

/-! ## Symbols -/

/-- The character is a symbol of the digit, in one of the two cases. -/
def IsSymbol (c : Char) (d : Nat) : Prop :=
  "0123456789ABCDEF".toList[d]? = some c ∨ "0123456789abcdef".toList[d]? = some c

instance (c : Char) (d : Nat) : Decidable (IsSymbol c d) :=
  inferInstanceAs (Decidable (_ ∨ _))

variable {c : Char} {d : Nat}

theorem IsSymbol.lt (h : IsSymbol c d) : d < 16 := by
  rcases h with h | h
  · exact (List.getElem?_eq_some_iff.mp h).1
  · exact (List.getElem?_eq_some_iff.mp h).1

theorem toNat_lt_of_hexDigit? (h : hexDigit? c = some d) : c.toNat < 0x80 := by
  unfold hexDigit? at h
  split at h
  · next hc => exact Nat.lt_of_le_of_lt hc.2 (by decide)
  split at h
  · next hc => exact Nat.lt_of_le_of_lt hc.2 (by decide)
  split at h
  · next hc => exact Nat.lt_of_le_of_lt hc.2 (by decide)
  · cases h

/-- The reader knows a digit by each of its symbols and by nothing else. -/
theorem hexDigit?_eq_some_iff : hexDigit? c = some d ↔ IsSymbol c d := by
  constructor
  · intro h
    exact Text.forall_ascii (P := fun c => ∀ d ∈ hexDigit? c, IsSymbol c d) (by decide +kernel)
      (toNat_lt_of_hexDigit? h) d h
  · intro h
    have hlt := h.lt
    rcases h with h | h
    · have hread := (by decide :
        ∀ d < 16, "0123456789ABCDEF".toList[d]?.bind hexDigit? = some d) d hlt
      rwa [h, Option.bind_some] at hread
    · have hread := (by decide :
        ∀ d < 16, "0123456789abcdef".toList[d]?.bind hexDigit? = some d) d hlt
      rwa [h, Option.bind_some] at hread

theorem IsSymbol.unique {e : Nat} (h : IsSymbol c d) (h' : IsSymbol c e) : d = e := by
  rw [← hexDigit?_eq_some_iff] at h h'
  exact Option.some.inj (h.symm.trans h')

/-- The upper case of a symbol is the one that words are written with. -/
theorem IsSymbol.upperChar_eq (h : IsSymbol c d) : Text.upperChar c = [digitSymbol d] := by
  rw [← hexDigit?_eq_some_iff] at h
  have hascii := toNat_lt_of_hexDigit? h
  have hupper : c.toUpper = digitSymbol d :=
    Text.forall_ascii (P := fun c => ∀ d ∈ hexDigit? c, c.toUpper = digitSymbol d)
      (by decide +kernel) hascii d h
  rw [Text.upperChar_of_ascii hascii, hupper]

theorem isSymbol_digitSymbol (h : d < 16) : IsSymbol (digitSymbol d) d :=
  hexDigit?_eq_some_iff.mp (hexDigit?_digitSymbol h)

theorem hexSymbols_getElem? (h : d < 16) : hexSymbols[d]? = some (digitSymbol d) :=
  (by decide : ∀ d < 16, hexSymbols[d]? = some (digitSymbol d)) d h

theorem isPrefix_drop_iff {α : Type} {a : α} {l : List α} {k : Nat} :
    [a] <+: l.drop k ↔ l[k]? = some a := by
  rw [← List.head?_drop]
  cases l.drop k <;> simp [eq_comm]

/-- A character is a symbol of a digit exactly if its upper case is found at the place of the digit
    in the row of symbols. -/
theorem isSymbol_iff_upperChar : IsSymbol c d ↔ Text.upperChar c <+: hexSymbols.drop d := by
  constructor
  · intro h
    rw [h.upperChar_eq, isPrefix_drop_iff]
    exact hexSymbols_getElem? h.lt
  · intro h
    have hpart := h.isInfix.trans (List.drop_suffix d hexSymbols).isInfix
    have hascii : c.toNat < 0x80 := Nat.lt_of_not_le fun hc => not_upperChar_isInfix hc hpart
    rw [Text.upperChar_of_ascii hascii, isPrefix_drop_iff] at h
    -- the reader does not tell the two cases apart
    have hcase : hexDigit? c.toUpper = hexDigit? c :=
      Text.forall_ascii (P := fun c => hexDigit? c.toUpper = hexDigit? c) (by decide +kernel) hascii
    rw [← hexDigit?_eq_some_iff, ← hcase, hexDigit?_eq_some_iff]
    exact .inl h

end Word

end AccumulatorAsm
