/-
  AccumulatorAsm.Proofs.ImageFormat.BothFormats

  The two written forms of a memory say the same. Either has one line for each word and can be cut
  into lines in no other way (`isCut_render`); a line is the numeral of its word in the base of
  the form (`isNumeral_lineChars`), and a hexadecimal digit is worth the four binary ones at its
  place (`exists_digit_of_group`). So a memory written in one form is known in the other, and two
  memories are written alike exactly if their integers stand for the same words
  (`render_eq_iff`).
-/

import Mathlib.Data.Int.ModEq
import AccumulatorAsm.Proofs.ImageFormat

namespace AccumulatorAsm.ImageFormat

/-! ## Cuts into lines -/

/-- The text consists of these lines of one width, each closed by a line feed, and of no other
    lines that have that width or no line feed in them. -/
structure IsCut (text : String) (width : Nat) (ls : List (List Char)) : Prop where
  closed : text.toList = ls.flatMap (· ++ ['\n'])
  lines : ∀ l ∈ ls, l.length = width ∧ '\n' ∉ l
  unique : ∀ ms : List (List Char), text.toList = ms.flatMap (· ++ ['\n']) →
    (∀ m ∈ ms, m.length = width ∨ '\n' ∉ m) → ms = ls

/-- The first line ends at the first line feed, or where its width ends. -/
theorem eq_of_closed_append {l m back back' : List Char} (hl : '\n' ∉ l)
    (hm : m.length = l.length ∨ '\n' ∉ m) (h : m ++ '\n' :: back' = l ++ '\n' :: back) :
    m = l ∧ back' = back := by
  have hlength : m.length = l.length := by
    refine hm.elim id fun hm => ?_
    -- up to the first line feed the texts are the lines
    have hupTo : ∀ {k : List Char} (r : List Char), '\n' ∉ k →
        (k ++ '\n' :: r).takeWhile (· != '\n') = k := by
      intro k r hk
      rw [List.takeWhile_append_of_pos fun c hc => bne_iff_ne.mpr (ne_of_mem_of_not_mem hc hk)]
      simp
    have heq := congrArg (List.takeWhile (· != '\n')) h
    rw [hupTo back' hm, hupTo back hl] at heq
    rw [heq]
  obtain ⟨hline, hback⟩ := List.append_inj h hlength
  exact ⟨hline, List.tail_eq_of_cons_eq hback⟩

theorem eq_of_flatMap_closed {width : Nat} {ls ms : List (List Char)}
    (hls : ∀ l ∈ ls, l.length = width ∧ '\n' ∉ l)
    (hms : ∀ m ∈ ms, m.length = width ∨ '\n' ∉ m)
    (h : ms.flatMap (· ++ ['\n']) = ls.flatMap (· ++ ['\n'])) : ms = ls := by
  induction ls generalizing ms with
  | nil =>
    cases ms with
    | nil => rfl
    | cons m ms => simp at h
  | cons l ls ih =>
    cases ms with
    | nil => simp at h
    | cons m ms =>
      rw [List.forall_mem_cons] at hls hms
      simp only [List.flatMap_cons, List.append_assoc, List.singleton_append] at h
      obtain ⟨rfl, hrest⟩ := eq_of_closed_append hls.1.2 (hls.1.1 ▸ hms.1) h
      rw [ih hls.2 hms.2 hrest]

/-! ## Lines as numerals -/

/-- The base of the digits of a form. -/
def base : ImageFormat → Nat
  | .hex => 16
  | .bin => 2

/-- The number of digits of a word. -/
def width : ImageFormat → Nat
  | .hex => 8
  | .bin => 32

theorem length_lineChars (format : ImageFormat) (w : Int) :
    (format.lineChars w).length = format.width := by
  cases format with
  | hex => rw [lineChars_hex, Word.toHexChars_length, width]
  | bin => rw [lineChars_bin, Word.toBinChars, List.length_map, Word.digits_length, width]

theorem isNumeral_lineChars (format : ImageFormat) (w : Int) :
    Word.IsNumeral format.base (format.lineChars w) (w % 0x100000000).toNat := by
  cases format with
  | hex =>
    rw [lineChars_hex]
    exact Word.isNumeral_toHexChars w
  | bin =>
    rw [lineChars_bin]
    exact Word.isNumeral_toBinChars w

/-- A line shows which word it was written for, and nothing more. -/
theorem lineChars_eq_iff (format : ImageFormat) {w v : Int} :
    format.lineChars w = format.lineChars v ↔ w ≡ v [ZMOD 0x100000000] := by
  constructor
  · intro h
    have hw := format.isNumeral_lineChars w
    rw [h] at hw
    have hvalue := hw.unique (format.isNumeral_lineChars v)
    show w % 0x100000000 = v % 0x100000000
    omega
  · intro h
    have hword : Word.wrap w = Word.wrap v := h
    cases format with
    | hex => rw [lineChars_hex, lineChars_hex, Word.toHexChars, Word.toHexChars, hword]
    | bin => rw [lineChars_bin, lineChars_bin, Word.toBinChars, Word.toBinChars, hword]

theorem isCut_render (format : ImageFormat) (ws : List Int) :
    IsCut (format.render ws) format.width (ws.map format.lineChars) := by
  have hlines : ∀ l ∈ ws.map format.lineChars, l.length = format.width ∧ '\n' ∉ l := by
    intro l hl
    obtain ⟨w, -, rfl⟩ := List.mem_map.mp hl
    refine ⟨format.length_lineChars w, fun hbreak => ?_⟩
    exact absurd (isLineBreak_of_mem_lineChars _ hbreak) (by decide)
  refine ⟨toList_render format ws, hlines, fun ms hms hwidth => ?_⟩
  rw [toList_render] at hms
  exact eq_of_flatMap_closed hlines hwidth hms.symm

/-- Two memories are written alike if and only if they hold the same words. -/
theorem render_eq_iff (format : ImageFormat) {ws vs : List Int} :
    format.render ws = format.render vs ↔ List.Forall₂ (· ≡ · [ZMOD 0x100000000]) ws vs := by
  have hlines : format.render ws = format.render vs ↔
      ws.map format.lineChars = vs.map format.lineChars := by
    constructor
    · intro h
      rw [← lines_render, ← lines_render, h]
    · intro h
      rw [← String.toList_inj, toList_render, toList_render, h]
  rw [hlines, ← List.forall₂_eq_eq_eq, List.forall₂_map_left_iff, List.forall₂_map_right_iff]
  simp only [lineChars_eq_iff]

/-! ## Digits and groups of digits -/

/-- A hexadecimal digit of a word is worth the four binary digits at its place. -/
theorem exists_digit_of_group (w : Int) {k : Nat} (hk : k < 8) :
    ∃ c d, (hex.lineChars w)[k]? = some c ∧ Word.IsSymbol c d ∧
      Word.IsNumeral 2 (((bin.lineChars w).drop (4 * k)).take 4) d := by
  -- behind the digit are `r` more, and `4 * r` binary ones behind its group
  obtain ⟨r, hhex⟩ : ∃ r, k + (1 + r) = 8 := ⟨7 - k, by omega⟩
  have hbin : 4 * k + (4 + 4 * r) = 32 := by omega
  rw [lineChars_hex, lineChars_bin, Word.toHexChars, Word.toBinChars]
  generalize (Word.wrap w).toNat = n
  have hdigit : (((Word.digits 16 8 n).map Word.digitSymbol).drop k).take 1 =
      [Word.digitSymbol (n / 16 ^ r % 16)] := by
    rw [← hhex, ← List.map_drop, ← List.map_take, Word.take_drop_digits]
    rfl
  have hgroup : (((Word.digits 2 32 n).map Word.digitSymbol).drop (4 * k)).take 4 =
      (Word.digits 2 4 (n / 16 ^ r)).map Word.digitSymbol := by
    rw [← hbin, ← List.map_drop, ← List.map_take, Word.take_drop_digits, Nat.pow_mul]
  refine ⟨Word.digitSymbol (n / 16 ^ r % 16), n / 16 ^ r % 16, ?_,
    Word.isSymbol_digitSymbol (Nat.mod_lt _ (by decide)), ?_⟩
  · rw [← Word.isPrefix_drop_iff, ← hdigit]
    exact List.take_prefix ..
  · rw [hgroup]
    exact Word.isNumeral_digits (by decide) (by decide) (by decide) (n / 16 ^ r)

/-- The texts of a memory in either form are cut into the lines of its words in one way only, with
    eight or thirty-two digits a line; both lines of an integer are numerals of the word that it
    stands for, digit for group of digits; and the texts of two memories are the same in one form
    exactly if they are in the other, which is if their integers stand for the same words. -/
theorem formats_denote_same_memory (ws vs : List Int) :
    (∃ hexLines binLines : List (List Char),
      IsCut (hex.render ws) 8 hexLines ∧ IsCut (bin.render ws) 32 binLines ∧
      List.Forall₂ (fun w l => Word.IsNumeral 16 l (w % 0x100000000).toNat) ws hexLines ∧
      List.Forall₂ (fun w l => Word.IsNumeral 2 l (w % 0x100000000).toNat) ws binLines ∧
      List.Forall₂ (fun h b => ∀ k < 8, ∃ c d, h[k]? = some c ∧ Word.IsSymbol c d ∧
        Word.IsNumeral 2 ((b.drop (4 * k)).take 4) d) hexLines binLines) ∧
    (hex.render ws = hex.render vs ↔ bin.render ws = bin.render vs) ∧
    (hex.render ws = hex.render vs ↔ List.Forall₂ (· ≡ · [ZMOD 0x100000000]) ws vs) := by
  refine ⟨⟨ws.map hex.lineChars, ws.map bin.lineChars, hex.isCut_render ws, bin.isCut_render ws,
    ?_, ?_, ?_⟩, ?_, hex.render_eq_iff⟩
  · rw [List.forall₂_map_right_iff, List.forall₂_same]
    exact fun w _ => hex.isNumeral_lineChars w
  · rw [List.forall₂_map_right_iff, List.forall₂_same]
    exact fun w _ => bin.isNumeral_lineChars w
  · rw [List.forall₂_map_left_iff, List.forall₂_map_right_iff, List.forall₂_same]
    exact fun w _ k hk => exists_digit_of_group w hk
  · exact hex.render_eq_iff.trans bin.render_eq_iff.symm

end AccumulatorAsm.ImageFormat
