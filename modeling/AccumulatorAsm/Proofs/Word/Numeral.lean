/-
  AccumulatorAsm.Proofs.Word.Numeral

  Numerals: symbols of digits, the most significant first, of a number in a base up to sixteen.
  Words are written as numerals of themselves, reduced to 32 bits, with all digits that a word has
  (`isNumeral_toHexChars`, `isNumeral_toBinChars`), and every numeral of a word is written again
  with capital letters and leading zeros (`toHexChars_of_isNumeral`). The reader takes the
  hexadecimal numerals of any length, and nothing else, for their numbers
  (`ofHexChars?_eq_ok_iff`); `hexadecimal_codec` puts both together. Since the base is a power of
  two, quotients and sums are shifts and joined bits (`toHexChars_eq_shifts`,
  `ofHexChars?_eq_shifts`).
-/

import Mathlib.Data.List.Forall2
import Mathlib.Data.Nat.Digits.Defs
import AccumulatorAsm.Proofs.Word.Symbol

namespace AccumulatorAsm.Word

variable {base width n : Nat} {cs : List Char} {ds : List Nat}

/-! ## Digit lists -/

/-- The number of a digit list, by the powers of the base from the end of the list. -/
theorem ofDigits_eq (base : Nat) (ds : List Nat) :
    ofDigits base ds = Nat.ofDigits base ds.reverse := by
  induction ds using List.reverseRecOn with
  | nil => rfl
  | append_singleton ds d ih =>
    rw [ofDigits_append_singleton, ih, List.reverse_append, List.reverse_singleton,
      List.singleton_append, Nat.ofDigits_cons, Nat.mul_comm base]
    exact Nat.add_comm _ _

/-- The last digits of a number, and before them the digits of the quotient. -/
theorem digits_add (base a b n : Nat) :
    digits base (a + b) n = digits base a (n / base ^ b) ++ digits base b n := by
  induction b generalizing n with
  | zero => simp [digits]
  | succ b ih =>
    rw [← Nat.add_assoc, digits, digits, ih, List.append_assoc, Nat.div_div_eq_div_mul,
      Nat.pow_succ']

/-- A part of the digits of a number has the digits of the quotient by what is behind the part. -/
theorem take_drop_digits {k m r : Nat} (base n : Nat) :
    ((digits base (k + (m + r)) n).drop k).take m = digits base m (n / base ^ r) := by
  rw [digits_add, List.drop_left' (digits_length ..), digits_add,
    List.take_left' (digits_length ..)]

/-- Digits by a power of two are groups of bits, shifted down and masked. -/
theorem digits_two_pow_eq (k width n : Nat) :
    digits (2 ^ k) width n =
      (List.range width).reverse.map fun i => (n >>> (k * i)) &&& (2 ^ k - 1) := by
  induction width with
  | zero => rfl
  | succ width ih =>
    have hfirst : digits (2 ^ k) 1 (n / (2 ^ k) ^ width) =
        [(n >>> (k * width)) &&& (2 ^ k - 1)] := by
      rw [Nat.and_two_pow_sub_one_eq_mod, Nat.shiftRight_eq_div_pow, Nat.pow_mul]
      rfl
    rw [Nat.add_comm, digits_add, hfirst, ih, Nat.add_comm, List.range_succ]
    simp only [List.reverse_append, List.reverse_singleton, List.map_append, List.map_singleton]

/-- By a power of two, digits are joined to the bits before them as they are added. -/
theorem ofDigits_two_pow_eq {k : Nat} (hlt : ∀ d ∈ ds, d < 2 ^ k) :
    ofDigits (2 ^ k) ds = ds.foldl (fun n d => n <<< k ||| d) 0 := by
  induction ds using List.reverseRecOn with
  | nil => rfl
  | append_singleton ds d ih =>
    obtain ⟨hds, hd⟩ := List.forall_mem_append.mp hlt
    rw [ofDigits_append_singleton, ih hds, List.foldl_append, List.foldl_cons, List.foldl_nil,
      ← Nat.shiftLeft_add_eq_or_of_lt (hd d List.mem_cons_self), Nat.shiftLeft_eq]

theorem digits_zero (base width : Nat) : digits base width 0 = List.replicate width 0 := by
  induction width with
  | zero => rfl
  | succ width ih => rw [digits, Nat.zero_div, Nat.zero_mod, ih, List.replicate_succ']

/-- A digit list is found again among the digits of its number, behind zeros. -/
theorem digits_ofDigits (hlt : ∀ d ∈ ds, d < base) (hwidth : ds.length ≤ width) :
    digits base width (ofDigits base ds) = ds.leftpad width 0 := by
  induction ds using List.reverseRecOn generalizing width with
  | nil => simp [digits_zero, List.leftpad]
  | append_singleton ds d ih =>
    obtain ⟨hds, hd⟩ := List.forall_mem_append.mp hlt
    have hbase : d < base := hd d List.mem_cons_self
    rw [List.length_append, List.length_singleton] at hwidth
    obtain ⟨width, rfl⟩ : ∃ w, width = w + 1 := ⟨width - 1, by omega⟩
    -- the last digit is the remainder of the number, the others are those of the quotient
    have hmod : (ofDigits base ds * base + d) % base = d := by
      rw [Nat.mul_add_mod_self_right, Nat.mod_eq_of_lt hbase]
    have hdiv : (ofDigits base ds * base + d) / base = ofDigits base ds := by
      rw [Nat.add_comm, Nat.add_mul_div_right _ _ (by omega), Nat.div_eq_of_lt hbase, Nat.zero_add]
    have hpad : width + 1 - (ds.length + 1) = width - ds.length := by omega
    rw [digits, ofDigits_append_singleton, hmod, hdiv, ih hds (by omega)]
    simp only [List.leftpad, List.length_append, List.length_singleton, hpad, List.append_assoc]

theorem ofDigits_lt (hlt : ∀ d ∈ ds, d < base) : ofDigits base ds < base ^ ds.length := by
  induction ds using List.reverseRecOn with
  | nil => simp
  | append_singleton ds d ih =>
    obtain ⟨hds, hd⟩ := List.forall_mem_append.mp hlt
    have hbase : d < base := hd d List.mem_cons_self
    have hquotient : (ofDigits base ds + 1) * base ≤ base ^ ds.length * base :=
      Nat.mul_le_mul_right base (ih hds)
    rw [ofDigits_append_singleton, List.length_append, List.length_singleton, Nat.pow_succ]
    rw [Nat.add_mul, Nat.one_mul] at hquotient
    omega

/-! ## Numerals -/

/-- Symbols of at least one digit, the most significant first, and the number they make. -/
inductive IsNumeral (base : Nat) : List Char → Nat → Prop
  | intro {cs : List Char} {ds : List Nat} (hne : cs ≠ []) (hsymbols : List.Forall₂ IsSymbol cs ds)
      (hlt : ∀ d ∈ ds, d < base) : IsNumeral base cs (Nat.ofDigits base ds.reverse)

theorem isNumeral_iff :
    IsNumeral base cs n ↔
      cs ≠ [] ∧ ∃ ds, List.Forall₂ IsSymbol cs ds ∧ (∀ d ∈ ds, d < base) ∧
        ofDigits base ds = n := by
  constructor
  · rintro ⟨hne, hsymbols, hlt⟩
    exact ⟨hne, _, hsymbols, hlt, ofDigits_eq ..⟩
  · rintro ⟨hne, ds, hsymbols, hlt, rfl⟩
    rw [ofDigits_eq]
    exact ⟨hne, hsymbols, hlt⟩

theorem lt_of_forall₂_isSymbol (h : List.Forall₂ IsSymbol cs ds) : ∀ d ∈ ds, d < 16 := by
  induction h with
  | nil => simp
  | cons hc _ ih => exact List.forall_mem_cons.mpr ⟨hc.lt, ih⟩

/-- A text is a numeral of one number only. -/
theorem IsNumeral.unique {m : Nat} (h : IsNumeral base cs n) (h' : IsNumeral base cs m) :
    n = m := by
  obtain ⟨-, ds, hsymbols, -, rfl⟩ := isNumeral_iff.mp h
  obtain ⟨-, es, hsymbols', -, rfl⟩ := isNumeral_iff.mp h'
  have hdigits : ds = es :=
    List.right_unique_forall₂' (fun _ _ _ hd he => hd.unique he) hsymbols hsymbols'
  rw [hdigits]

/-- A text that is not empty is a numeral if all its characters are symbols of the base. -/
theorem exists_isNumeral_iff :
    (∃ n, IsNumeral base cs n) ↔ cs ≠ [] ∧ ∀ c ∈ cs, ∃ d < base, IsSymbol c d := by
  have hdigits : (∃ ds, List.Forall₂ IsSymbol cs ds ∧ ∀ d ∈ ds, d < base) ↔
      ∀ c ∈ cs, ∃ d < base, IsSymbol c d := by
    induction cs with
    | nil => simp
    | cons c cs ih =>
      rw [List.forall_mem_cons, ← ih]
      constructor
      · rintro ⟨_, hsymbols, hlt⟩
        cases hsymbols with
        | @cons _ d _ ds hc hcs =>
          rw [List.forall_mem_cons] at hlt
          exact ⟨⟨d, hlt.1, hc⟩, ds, hcs, hlt.2⟩
      · rintro ⟨⟨d, hd, hc⟩, ds, hcs, hlt⟩
        exact ⟨d :: ds, .cons hc hcs, List.forall_mem_cons.mpr ⟨hd, hlt⟩⟩
  rw [← hdigits]
  constructor
  · rintro ⟨n, h⟩
    obtain ⟨hne, ds, hsymbols, hlt, -⟩ := isNumeral_iff.mp h
    exact ⟨hne, ds, hsymbols, hlt⟩
  · rintro ⟨hne, ds, hsymbols, hlt⟩
    exact ⟨_, .intro hne hsymbols hlt⟩

/-- The last digits of a number are a numeral of its remainder. -/
theorem isNumeral_digits (hbase : 0 < base) (h : base ≤ 16) (hwidth : 0 < width) (n : Nat) :
    IsNumeral base ((digits base width n).map digitSymbol) (n % base ^ width) := by
  have hlt : ∀ d ∈ digits base width n, d < base := fun d hd => lt_of_mem_digits hbase hd
  refine isNumeral_iff.mpr ⟨?_, digits base width n, ?_, hlt, ofDigits_digits ..⟩
  · rw [← List.length_pos_iff, List.length_map, digits_length]
    exact hwidth
  · refine List.forall₂_map_left_iff.mpr (List.forall₂_same.mpr fun d hd => ?_)
    exact isSymbol_digitSymbol (Nat.lt_of_lt_of_le (hlt d hd) h)

/-! ## Words written -/

/-- A word is written as the hexadecimal numeral of itself. -/
theorem isNumeral_toHexChars (x : Int) : IsNumeral 16 (toHexChars x) (wrap x).toNat := by
  have hall : (wrap x).toNat % 16 ^ 8 = (wrap x).toNat := Nat.mod_eq_of_lt (toNat_wrap_lt x)
  rw [← hall]
  exact isNumeral_digits (by decide) (by decide) (by decide) (wrap x).toNat

/-- The symbols of a word are taken by shifts of four bits less each, down to none. -/
theorem toHexChars_eq_shifts (x : Int) :
    toHexChars x = [28, 24, 20, 16, 12, 8, 4, 0].map fun shift =>
      digitSymbol (((wrap x).toNat >>> shift) &&& 0xF) := by
  have hdigits : digits 16 8 (wrap x).toNat = (List.range 8).reverse.map fun i =>
      ((wrap x).toNat >>> (4 * i)) &&& 0xF := digits_two_pow_eq 4 8 (wrap x).toNat
  rw [toHexChars, hdigits]
  rfl

/-- A word is written as the binary numeral of itself. -/
theorem isNumeral_toBinChars (x : Int) : IsNumeral 2 (toBinChars x) (wrap x).toNat := by
  have hall : (wrap x).toNat % 2 ^ 32 = (wrap x).toNat := Nat.mod_eq_of_lt (toNat_wrap_lt x)
  rw [← hall]
  exact isNumeral_digits (by decide) (by decide) (by decide) (wrap x).toNat

/-- The upper case of a numeral has the symbols that words are written with. -/
theorem flatMap_upperChar_eq (h : List.Forall₂ IsSymbol cs ds) :
    cs.flatMap Text.upperChar = ds.map digitSymbol := by
  induction h with
  | nil => rfl
  | cons hc _ ih =>
    rw [List.flatMap_cons, hc.upperChar_eq, ih, List.map_cons, List.singleton_append]

/-- A numeral of no more than eight digits is written again, with capital letters and all the
    digits of a word. -/
theorem toHexChars_of_isNumeral (h : IsNumeral 16 cs n) (hlength : cs.length ≤ 8) :
    toHexChars n = (cs.flatMap Text.upperChar).leftpad 8 '0' := by
  obtain ⟨-, ds, hsymbols, hlt, rfl⟩ := isNumeral_iff.mp h
  rw [hsymbols.length_eq] at hlength
  have hword : ofDigits 16 ds < 0x100000000 :=
    Nat.lt_of_lt_of_le (ofDigits_lt hlt) (Nat.pow_le_pow_right (by decide) hlength)
  rw [toHexChars, toNat_wrap_natCast, Nat.mod_eq_of_lt hword, digits_ofDigits hlt hlength,
    flatMap_upperChar_eq hsymbols]
  simp only [List.leftpad, List.map_append, List.map_replicate, List.length_map]
  rfl

/-! ## Texts read -/

/-- The symbols of hexadecimal digits, of both cases. -/
def hexAlphabet : List Char := "0123456789ABCDEFabcdef".toList

theorem mem_hexAlphabet_iff {c : Char} : c ∈ hexAlphabet ↔ ∃ d < 16, IsSymbol c d := by
  have hread : hexAlphabet.all (fun c => (hexDigit? c).isSome) = true := by decide
  have hupper : "0123456789ABCDEF".toList.all (· ∈ hexAlphabet) = true := by decide
  have hlower : "0123456789abcdef".toList.all (· ∈ hexAlphabet) = true := by decide
  constructor
  · intro h
    obtain ⟨d, hd⟩ := Option.isSome_iff_exists.mp (List.all_eq_true.mp hread c h)
    have hsymbol := hexDigit?_eq_some_iff.mp hd
    exact ⟨d, hsymbol.lt, hsymbol⟩
  · rintro ⟨d, -, h | h⟩
    · exact of_decide_eq_true (List.all_eq_true.mp hupper c (List.mem_of_getElem? h))
    · exact of_decide_eq_true (List.all_eq_true.mp hlower c (List.mem_of_getElem? h))

theorem hexDigit?_eq_none_iff {c : Char} : hexDigit? c = none ↔ c ∉ hexAlphabet := by
  rw [mem_hexAlphabet_iff, Option.eq_none_iff_forall_ne_some]
  constructor
  · rintro h ⟨d, -, hd⟩
    exact h d (hexDigit?_eq_some_iff.mpr hd)
  · intro h d hd
    have hsymbol := hexDigit?_eq_some_iff.mp hd
    exact h ⟨d, hsymbol.lt, hsymbol⟩

/-- The reader stops at the first character that is no symbol. -/
theorem readHexDigits_eq_error_iff {fault : HexFault} {m : Nat} :
    readHexDigits m cs = .error fault ↔
      ∃ c, cs.find? (· ∉ hexAlphabet) = some c ∧ fault = .badDigit c := by
  induction cs generalizing m with
  | nil => simp [readHexDigits]
  | cons c cs ih =>
    cases hc : hexDigit? c with
    | none =>
      have hfirst : (c :: cs).find? (· ∉ hexAlphabet) = some c :=
        List.find?_cons_of_pos (decide_eq_true (hexDigit?_eq_none_iff.mp hc))
      simp only [readHexDigits, hc, hfirst, Option.some.injEq, exists_eq_left',
        Except.error.injEq, eq_comm]
    | some d =>
      have hmem : ¬ c ∉ hexAlphabet := by
        rw [← hexDigit?_eq_none_iff, hc]
        exact Option.some_ne_none d
      simp only [readHexDigits, hc, ih]
      rw [List.find?_cons_of_neg (by simpa using hmem)]

/-- The symbols of digits are read as the number that the digits make. -/
theorem readHexDigits_of_forall₂ (h : List.Forall₂ IsSymbol cs ds) (n : Nat) :
    readHexDigits n cs = .ok (ds.foldl (fun n d => n * 16 + d) n) := by
  induction h generalizing n with
  | nil => rfl
  | cons hc _ ih =>
    rw [readHexDigits, hexDigit?_eq_some_iff.mpr hc, List.foldl_cons]
    exact ih _

/-- What the reader takes is a numeral, of the number that it gives. -/
theorem forall₂_of_readHexDigits {m : Nat} (h : readHexDigits m cs = .ok n) :
    ∃ ds, List.Forall₂ IsSymbol cs ds ∧ ds.foldl (fun n d => n * 16 + d) m = n := by
  induction cs generalizing m with
  | nil => exact ⟨[], .nil, Except.ok.inj h⟩
  | cons c cs ih =>
    rw [readHexDigits] at h
    split at h
    · next d hc =>
      obtain ⟨ds, hcs, hvalue⟩ := ih h
      exact ⟨d :: ds, .cons (hexDigit?_eq_some_iff.mp hc) hcs, hvalue⟩
    · cases h

/-- One marker is dropped, and nothing else. -/
theorem hexBody_cases (cs : List Char) :
    cs = '0' :: 'x' :: hexBody cs ∨ ¬ ['0', 'x'] <+: cs ∧ hexBody cs = cs := by
  unfold hexBody
  split
  · exact .inl rfl
  · next hmarker =>
    refine .inr ⟨fun h => ?_, rfl⟩
    obtain ⟨back, rfl⟩ := h
    exact hmarker back rfl

/-- Without the letter of the marker there is no marker. -/
theorem hexBody_of_not_mem (h : 'x' ∉ cs) : hexBody cs = cs := by
  rcases hexBody_cases cs with hmarker | ⟨-, hnone⟩
  · rw [hmarker] at h
    simp at h
  · exact hnone

/-- The hexadecimal texts are the numerals, with or without the marker. -/
theorem ofHexChars?_eq_ok_iff : ofHexChars? cs = .ok n ↔ IsNumeral 16 (hexBody cs) n := by
  rw [isNumeral_iff, ofHexChars?]
  generalize hexBody cs = body
  cases body with
  | nil => simp
  | cons c cs =>
    constructor
    · intro h
      obtain ⟨ds, hsymbols, hvalue⟩ := forall₂_of_readHexDigits h
      exact ⟨List.cons_ne_nil c cs, ds, hsymbols, lt_of_forall₂_isSymbol hsymbols, hvalue⟩
    · rintro ⟨-, ds, hsymbols, -, rfl⟩
      exact readHexDigits_of_forall₂ hsymbols 0

/-- The digits of a hexadecimal text are joined by shifts, and no digit reaches into another. -/
theorem ofHexChars?_eq_shifts (hne : hexBody cs ≠ [])
    (hsymbols : List.Forall₂ IsSymbol (hexBody cs) ds) :
    ofHexChars? cs = .ok (ds.foldl (fun n d => n <<< 4 ||| d) 0) := by
  have hlt := lt_of_forall₂_isSymbol hsymbols
  have hvalue : ofDigits 16 ds = ds.foldl (fun n d => n <<< 4 ||| d) 0 :=
    ofDigits_two_pow_eq (k := 4) hlt
  rw [ofHexChars?_eq_ok_iff, isNumeral_iff]
  exact ⟨hne, ds, hsymbols, hlt, hvalue⟩

/-- A text behind the marker that has no digits is refused for that, any other text for its first
    character that is no digit. -/
theorem ofHexChars?_eq_error_iff {fault : HexFault} :
    ofHexChars? cs = .error fault ↔ hexBody cs = [] ∧ fault = .empty ∨
      ∃ c, (hexBody cs).find? (· ∉ hexAlphabet) = some c ∧ fault = .badDigit c := by
  rw [ofHexChars?]
  generalize hexBody cs = body
  cases body with
  | nil => simp [eq_comm]
  | cons c cs => simp only [readHexDigits_eq_error_iff, List.cons_ne_nil, false_and, false_or]

/-! ## Writing and reading -/

theorem toList_marked_toHex (x : Int) : ("0x" ++ toHex x).toList = '0' :: 'x' :: toHexChars x := by
  simp [toHex]

/-- Behind the marker all characters are digits. -/
theorem ofHexChars?_marked_toHexChars (x : Int) :
    ofHexChars? ('0' :: 'x' :: toHexChars x) = .ok (wrap x).toNat :=
  ofHexChars?_eq_ok_iff.mpr (isNumeral_toHexChars x)

/-- A written word has no marker, so nothing of it is dropped. -/
theorem ofHexChars?_toHexChars (x : Int) : ofHexChars? (toHexChars x) = .ok (wrap x).toNat := by
  have hx : 'x' ∉ toHexChars x := fun hx =>
    absurd (mem_hexSymbols_of_mem_toHexChars hx) (by decide)
  rw [ofHexChars?_eq_ok_iff, hexBody_of_not_mem hx]
  exact isNumeral_toHexChars x

/-- Any integer is written with eight symbols, which are read as the word that it stands for, with
    the marker and without it; up to eight digits that are read are written again with capital
    letters and leading zeros; and the texts that are read are the hexadecimal numerals behind an
    optional marker. A symbol is a character whose upper case stands in the row of symbols. -/
theorem hexadecimal_codec (x : Int) (text : String) :
    ((toHex x).length = 8 ∧ (∀ c ∈ (toHex x).toList, c ∈ "0123456789ABCDEF".toList) ∧
      ofHex? (toHex x) = .ok (x % 0x100000000).toNat ∧
      ofHex? ("0x" ++ toHex x) = .ok (x % 0x100000000).toNat) ∧
    (text ≠ "" → text.length ≤ 8 → (∀ c ∈ text.toList, c ∈ hexAlphabet) →
      ∃ n : Nat, ofHex? text = .ok n ∧
        (toHex n).toList = (Text.uppercase text).toList.leftpad 8 '0') ∧
    (text.toList = '0' :: 'x' :: hexBody text.toList ∨
      ¬ ['0', 'x'] <+: text.toList ∧ hexBody text.toList = text.toList) ∧
    (∀ n, ofHex? text = .ok n ↔ IsNumeral 16 (hexBody text.toList) n) ∧
    (∀ fault, ofHex? text = .error fault ↔
      hexBody text.toList = [] ∧ fault = .empty ∨
        ∃ c, (hexBody text.toList).find? (· ∉ hexAlphabet) = some c ∧ fault = .badDigit c) ∧
    ∀ c d, IsSymbol c d ↔ Text.upperChar c <+: "0123456789ABCDEF".toList.drop d := by
  refine ⟨⟨?_, ?_, ?_, ?_⟩, ?_, hexBody_cases text.toList, fun n => ofHexChars?_eq_ok_iff,
    fun fault => ofHexChars?_eq_error_iff, fun c d => isSymbol_iff_upperChar⟩
  · rw [toHex, String.length_ofList, toHexChars_length]
  · rw [toHex, String.toList_ofList]
    exact fun c hc => mem_hexSymbols_of_mem_toHexChars hc
  · rw [ofHex?, toHex, String.toList_ofList]
    exact ofHexChars?_toHexChars x
  · rw [ofHex?, toList_marked_toHex]
    exact ofHexChars?_marked_toHexChars x
  · intro hne hlength hdigits
    -- the marker is not made of digits, so all of the text is behind it
    have hbody : hexBody text.toList = text.toList :=
      hexBody_of_not_mem fun hx => absurd (hdigits _ hx) (by decide)
    have hnil : text.toList ≠ [] := by simpa using hne
    obtain ⟨n, hn⟩ := exists_isNumeral_iff.mpr
      ⟨hnil, fun c hc => mem_hexAlphabet_iff.mp (hdigits c hc)⟩
    refine ⟨n, ?_, ?_⟩
    · rw [ofHex?, ofHexChars?_eq_ok_iff, hbody]
      exact hn
    · rw [toHex, String.toList_ofList, Text.uppercase, String.toList_ofList]
      rw [← String.length_toList] at hlength
      exact toHexChars_of_isNumeral hn hlength

theorem hexadecimal_codec_mixed_case :
    ∃ n : Nat, ofHex? "fE0" = .ok n ∧ (toHex n).toList = "00000FE0".toList :=
  (hexadecimal_codec 0 "fE0").2.1 (by decide) (by decide)
    (List.forall_iff_forall_mem.mp (by decide))

end AccumulatorAsm.Word
