/-
  AccumulatorAsm.Proofs.Literal

  Which texts are literals, and of which values. `Value` lists the literals: nothing, a hexadecimal
  numeral behind its marker, whose value is reduced to a word, and a short decimal numeral of a
  word. They are exactly the texts that are read (`read_eq_ok_iff`). Too many decimal digits are
  an invalid value; every other text is an unsupported feature at the given line (`read_exact`).
-/

import AccumulatorAsm.Literal
import AccumulatorAsm.Proofs.Text.Trim
import AccumulatorAsm.Proofs.Word.Numeral

namespace AccumulatorAsm.Literal

/-! ## Decimal digits -/

/-- The decimal digits are the symbols of the digits below ten. -/
theorem isDigit_iff {c : Char} {d : Nat} :
    isDigit c = true ∧ c.toNat - 48 = d ↔ Word.IsSymbol c d ∧ d < 10 := by
  rw [← Word.hexDigit?_eq_some_iff]
  constructor
  · rintro ⟨h, rfl⟩
    simp only [isDigit, Bool.and_eq_true, decide_eq_true_eq] at h
    have hlast : c.toNat ≤ 57 := h.2
    refine ⟨?_, by omega⟩
    rw [Word.hexDigit?, if_pos h]
  · rintro ⟨h, hd⟩
    exact Text.forall_ascii
      (P := fun c => ∀ d ∈ Word.hexDigit? c, d < 10 → isDigit c = true ∧ c.toNat - 48 = d)
      (by decide +kernel) (Word.toNat_lt_of_hexDigit? h) d h hd

/-- Decimal digits are a decimal numeral of their value. -/
theorem isNumeral_decimal_iff {cs : List Char} {n : Nat} :
    Word.IsNumeral 10 cs n ↔ cs ≠ [] ∧ cs.all isDigit = true ∧ decimalValue cs = n := by
  rw [Word.isNumeral_iff, List.all_eq_true]
  constructor
  · rintro ⟨hne, ds, hsymbols, hlt, rfl⟩
    have hdigits : (∀ c ∈ cs, isDigit c = true) ∧ cs.map (fun c => c.toNat - 48) = ds := by
      clear hne
      induction hsymbols with
      | nil => simp
      | cons hc _ ih =>
        rw [List.forall_mem_cons] at hlt
        obtain ⟨hdigit, rfl⟩ := isDigit_iff.mpr ⟨hc, hlt.1⟩
        obtain ⟨hcs, rfl⟩ := ih hlt.2
        exact ⟨List.forall_mem_cons.mpr ⟨hdigit, hcs⟩, rfl⟩
    refine ⟨hne, hdigits.1, ?_⟩
    rw [decimalValue, hdigits.2]
  · rintro ⟨hne, hdigits, rfl⟩
    have hsymbols : List.Forall₂ Word.IsSymbol cs (cs.map fun c => c.toNat - 48) := by
      rw [List.forall₂_map_right_iff, List.forall₂_same]
      exact fun c hc => (isDigit_iff.mp ⟨hdigits c hc, rfl⟩).1
    have hlt : ∀ d ∈ cs.map (fun c => c.toNat - 48), d < 10 := by
      rw [List.forall_mem_map]
      exact fun c hc => (isDigit_iff.mp ⟨hdigits c hc, rfl⟩).2
    exact ⟨hne, _, hsymbols, hlt, rfl⟩

/-! ## Values -/

/-- The value of a trimmed literal. -/
inductive Value : List Char → Nat → Prop
  | blank : Value [] 0
  | hexadecimal {cs : List Char} {n : Nat} (h : Word.IsNumeral 16 cs n) :
      Value ('0' :: 'x' :: cs) (n % 0x100000000)
  | decimal {cs : List Char} {n : Nat} (h : Word.IsNumeral 10 cs n) (hlength : cs.length ≤ 4300)
      (hlt : n < 0x100000000) : Value ('0' :: 'd' :: cs) n

theorem Value.lt {cs : List Char} {value : Nat} (h : Value cs value) : value < 0x100000000 := by
  cases h with
  | blank => decide
  | hexadecimal => exact Nat.mod_lt _ (by decide)
  | decimal _ _ hlt => exact hlt

theorem fits_word_iff {n : Nat} : Word.fits n 32 = true ↔ n < 0x100000000 := by
  have hcount : ((1 <<< 32 : Nat) : Int) = 0x100000000 := by decide
  rw [Word.fits_iff, hcount]
  omega

/-- A text is read for its value, if it has one. -/
theorem readChars_eq_ok_iff {line : Option Int} {cs : List Char} {value : Nat} :
    readChars line cs = .ok value ↔ Value cs value := by
  constructor
  · intro h
    unfold readChars at h
    dsimp only at h
    split at h
    · obtain rfl := Except.ok.inj h
      exact .blank
    · split at h
      · next n hn =>
        obtain rfl := Except.ok.inj h
        rw [Word.toNat_wrap_natCast]
        exact .hexadecimal (Word.ofHexChars?_eq_ok_iff.mp hn)
      · cases h
    · next ds =>
      -- the digits are some and not too many, and their value fits
      unfold readDecimal at h
      split at h
      · cases h
      next hdigits =>
      split at h
      · cases h
      next hlength =>
      split at h
      · next hfits =>
        obtain rfl := Except.ok.inj h
        simp only [not_or, Decidable.not_not] at hdigits
        exact .decimal (isNumeral_decimal_iff.mpr ⟨hdigits.1, hdigits.2, rfl⟩)
          (Nat.le_of_not_lt hlength) (fits_word_iff.mp hfits)
      · cases h
    · cases h
  · intro h
    cases h with
    | blank => rfl
    | @hexadecimal cs n hn =>
      have hread : Word.ofHexChars? ('0' :: 'x' :: cs) = .ok n := Word.ofHexChars?_eq_ok_iff.mpr hn
      simp only [readChars, hread, Word.toNat_wrap_natCast]
    | @decimal cs n hn hlength hlt =>
      obtain ⟨hne, hdigits, rfl⟩ := isNumeral_decimal_iff.mp hn
      have hlimit : ¬ digitLimit < cs.length := Nat.not_lt_of_le hlength
      simp [readChars, readDecimal, hne, hdigits, hlimit, fits_word_iff.mpr hlt]

theorem read_eq_ok_iff {text : String} {line : Option Int} {value : Nat} :
    read text line = .ok value ↔ Value (Text.trim text.toList) value :=
  readChars_eq_ok_iff

/-- The value of a literal is a word. -/
theorem read_lt {text : String} {line : Option Int} {value : Nat}
    (h : read text line = .ok value) : value < 0x100000000 :=
  (read_eq_ok_iff.mp h).lt

/-- A marked literal, by the radix of its marker, and the number that its digits write. -/
inductive Denotes : Nat → List Char → Nat → Prop
  | hexadecimal {cs : List Char} {ds : List Nat}
      (h : List.Forall₂ (fun c d => Word.hexDigit? c = some d) cs ds) :
      Denotes 16 ('0' :: 'x' :: cs) (Word.ofDigits 16 ds)
  | decimal {cs : List Char} (h : cs.all isDigit = true) :
      Denotes 10 ('0' :: 'd' :: cs) (decimalValue cs)

/-- The value of a literal is its number reduced to a word. Only hexadecimal numbers need it. -/
theorem Denotes.value_eq {radix n : Nat} {text : String}
    (h : Denotes radix (Text.trim text.toList) n) {line : Option Int} {value : Nat}
    (hread : read text line = .ok value) :
    value = n % 0x100000000 ∧ (radix = 10 → n < 0x100000000) := by
  rw [read_eq_ok_iff] at hread
  generalize Text.trim text.toList = t at h hread
  cases h with
  | @hexadecimal cs ds hds =>
    cases hread with
    | @hexadecimal _ m hm =>
      obtain ⟨-, es, hsymbols, -, rfl⟩ := Word.isNumeral_iff.mp hm
      have hdigits : ds = es := List.right_unique_forall₂' (fun _ _ _ hd he => hd.unique he)
        (hds.imp fun _ _ hd => Word.hexDigit?_eq_some_iff.mp hd) hsymbols
      rw [hdigits]
      exact ⟨rfl, nofun⟩
  | @decimal cs hdigits =>
    cases hread with
    | @decimal _ m hm hlength hlt =>
      obtain ⟨-, -, rfl⟩ := isNumeral_decimal_iff.mp hm
      exact ⟨(Nat.mod_eq_of_lt hlt).symm, fun _ => hlt⟩

/-! ## Refusals -/

/-- `0d` and more decimal digits than are read. -/
def IsOverlong (text : String) (count : Nat) : Prop :=
  ∃ ds, Text.trim text.toList = '0' :: 'd' :: ds ∧ ds.all isDigit = true ∧ ds.length = count ∧
    digitLimit < count

theorem read_of_isOverlong {text : String} {count : Nat} (h : IsOverlong text count)
    (line : Option Int) : read text line = .error (.invalid (.tooManyDigits count)) := by
  obtain ⟨ds, htext, hdigits, rfl, hlimit⟩ := h
  have hne : ds ≠ [] := List.ne_nil_of_length_pos (Nat.zero_lt_of_lt hlimit)
  rw [read, htext]
  simp [readChars, readDecimal, hne, hdigits, hlimit]

/-- A refused literal is too long or unsupported. -/
theorem read_eq_error_cases {text : String} {line : Option Int} {fault : Fault}
    (h : read text line = .error fault) :
    (∃ count, IsOverlong text count ∧ fault = .invalid (.tooManyDigits count)) ∨
      ∃ cause : Cause, cause.kind = .unsupported ∧ fault = .failure (cause.atLine line) := by
  unfold read readChars at h
  dsimp only at h
  split at h
  · cases h
  · -- hexadecimal digits
    split at h
    · cases h
    · exact .inr ⟨_, rfl, (Except.error.inj h).symm⟩
  · next ds htext =>
    -- decimal digits
    unfold readDecimal at h
    split at h
    · exact .inr ⟨_, rfl, (Except.error.inj h).symm⟩
    · next hdigits =>
      split at h
      · next hlimit =>
        obtain rfl := Except.error.inj h
        simp only [not_or, Decidable.not_not] at hdigits
        exact .inl ⟨ds.length, ⟨ds, htext, hdigits.2, rfl, hlimit⟩, rfl⟩
      · split at h
        · cases h
        · exact .inr ⟨_, rfl, (Except.error.inj h).symm⟩
  · exact .inr ⟨_, rfl, (Except.error.inj h).symm⟩

/-- An invalid value is a decimal numeral with too many digits. -/
theorem read_eq_invalid_iff {text : String} {line : Option Int} {v : InvalidValue} :
    read text line = .error (.invalid v) ↔
      ∃ ds n, Text.trim text.toList = '0' :: 'd' :: ds ∧ Word.IsNumeral 10 ds n ∧
        4300 < ds.length ∧ v = .tooManyDigits ds.length := by
  constructor
  · intro h
    obtain ⟨count, ⟨ds, htext, hdigits, rfl, hlimit⟩, hv⟩ | ⟨cause, -, hfailure⟩ :=
      read_eq_error_cases h
    · have hne : ds ≠ [] := List.ne_nil_of_length_pos (Nat.zero_lt_of_lt hlimit)
      exact ⟨ds, _, htext, isNumeral_decimal_iff.mpr ⟨hne, hdigits, rfl⟩, hlimit,
        Fault.invalid.inj hv⟩
    · cases hfailure
  · rintro ⟨ds, n, htext, hn, hlimit, rfl⟩
    obtain ⟨-, hdigits, -⟩ := isNumeral_decimal_iff.mp hn
    exact read_of_isOverlong ⟨ds, htext, hdigits, rfl, hlimit⟩ line

/-- The digits of a word behind their marker are a literal for it. -/
theorem read_marked_toHex (x : Int) (line : Option Int) :
    read ("0x" ++ Word.toHex x) line = .ok (Word.wrap x).toNat := by
  have htrim : Text.trim ('0' :: 'x' :: Word.toHexChars x) = '0' :: 'x' :: Word.toHexChars x := by
    refine Text.trim_eq_self_of_not_blank fun c hc => ?_
    rcases List.mem_cons.mp hc with rfl | hc
    · rfl
    rcases List.mem_cons.mp hc with rfl | hc
    · rfl
    exact (Word.plain_of_mem_hexSymbols (Word.mem_hexSymbols_of_mem_toHexChars hc)).1
  rw [read_eq_ok_iff, Word.toList_marked_toHex, htrim, ← Nat.mod_eq_of_lt (Word.toNat_wrap_lt x)]
  exact .hexadecimal (Word.isNumeral_toHexChars x)

/-! ## Exactness -/

/-- A text is read for its value if it has one; it is an invalid value if it is `0d` with more than
    4300 decimal digits; and all others are unsupported, at the given line. Every value is that of a
    word. -/
theorem read_exact (text : String) (line : Option Int) :
    (∀ value, read text line = .ok value ↔ Value (Text.trim text.toList) value) ∧
    (∀ v, read text line = .error (.invalid v) ↔
      ∃ ds n, Text.trim text.toList = '0' :: 'd' :: ds ∧ Word.IsNumeral 10 ds n ∧
        4300 < ds.length ∧ v = .tooManyDigits ds.length) ∧
    ((∀ value, ¬ Value (Text.trim text.toList) value) →
      (¬ ∃ ds n, Text.trim text.toList = '0' :: 'd' :: ds ∧ Word.IsNumeral 10 ds n ∧
        4300 < ds.length) →
      ∃ f, read text line = .error (.failure f) ∧ f.kind = .unsupported ∧
        f.diagnostic.line = line) ∧
    ∀ value, Value (Text.trim text.toList) value → value < 0x100000000 := by
  refine ⟨fun value => read_eq_ok_iff, fun v => read_eq_invalid_iff, fun hvalue hshort => ?_,
    fun value h => h.lt⟩
  cases hread : read text line with
  | ok value => exact absurd (read_eq_ok_iff.mp hread) (hvalue value)
  | error fault =>
    obtain ⟨count, -, rfl⟩ | ⟨cause, hkind, rfl⟩ := read_eq_error_cases hread
    · obtain ⟨ds, n, htext, hn, hlimit, -⟩ := read_eq_invalid_iff.mp hread
      exact absurd ⟨ds, n, htext, hn, hlimit⟩ hshort
    · exact ⟨_, rfl, hkind, rfl⟩

/-- A digit of another script has a value elsewhere, but not in a literal. -/
theorem read_exact_fullwidth_digit :
    ∃ f, read "0x１" (some 7) = .error (.failure f) ∧ f.kind = .unsupported ∧
      f.diagnostic.line = some 7 := by
  have htext : Text.trim "0x１".toList = ['0', 'x', '１'] := by decide
  refine (read_exact "0x１" (some 7)).2.2.1 (fun value hvalue => ?_) ?_
  · rw [htext] at hvalue
    cases hvalue with
    | hexadecimal hn =>
      have hsymbols := (Word.exists_isNumeral_iff.mp ⟨_, hn⟩).2 '１' List.mem_cons_self
      exact absurd hsymbols (by decide)
  · rintro ⟨ds, n, hds, -⟩
    rw [htext] at hds
    cases hds

end AccumulatorAsm.Literal
