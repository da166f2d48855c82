/-
  AccumulatorAsm.Proofs.ImageFormat

  Written images split into their lines again. A line of either format is made of digit symbols
  and holds no line break, so the line feeds behind the lines are all the breaks there are
  (`lines_render`). A hexadecimal text therefore has the words it was written for and no others
  (`hexText_render`), provided that they are words: of other integers only a part is written.
-/

import AccumulatorAsm.ImageFormat
import AccumulatorAsm.Proofs.Word.Numeral

namespace AccumulatorAsm.ImageFormat

/-! ## Lines -/

/-- The characters of a line. -/
def lineChars (format : ImageFormat) (w : Int) : List Char :=
  (format.line w).toList

theorem lineChars_hex (w : Int) : hex.lineChars w = Word.toHexChars w :=
  String.toList_ofList

theorem lineChars_bin (w : Int) : bin.lineChars w = Word.toBinChars w :=
  String.toList_ofList

theorem mem_hexSymbols_of_mem_lineChars {format : ImageFormat} {w : Int} {c : Char}
    (h : c ∈ format.lineChars w) : c ∈ Word.hexSymbols := by
  cases format with
  | hex =>
    rw [lineChars_hex] at h
    exact Word.mem_hexSymbols_of_mem_toHexChars h
  | bin =>
    rw [lineChars_bin] at h
    exact Word.mem_hexSymbols_of_mem_digits (by decide) (by decide) h

theorem isLineBreak_of_mem_lineChars {format : ImageFormat} {w : Int} :
    ∀ c ∈ format.lineChars w, Text.isLineBreak c = false :=
  fun _ hc => (Word.plain_of_mem_hexSymbols (mem_hexSymbols_of_mem_lineChars hc)).2

/-- A written image is its lines, each closed by a line feed. -/
theorem toList_render (format : ImageFormat) (words : List Int) :
    (format.render words).toList = (words.map format.lineChars).flatMap (· ++ ['\n']) := by
  simp [render, lines, lineChars, List.flatMap_map]

/-- A written image has one line for each word. -/
theorem lines_render (format : ImageFormat) (words : List Int) :
    Text.lines (format.render words).toList = words.map format.lineChars := by
  rw [toList_render]
  refine Text.lines_flatMap_lineFeed fun l hl => ?_
  obtain ⟨w, -, rfl⟩ := List.mem_map.mp hl
  exact isLineBreak_of_mem_lineChars

/-! ## Hexadecimal texts -/

/-- A text of `count` closed lines with eight hexadecimal digits each, which are read as the
    given words. -/
structure HexText (output : String) (count : Int) (words : List Int) : Prop where
  closed : output.toList = (Text.lines output.toList).flatMap (· ++ ['\n'])
  count : ((Text.lines output.toList).length : Int) = count
  digits : ∀ line ∈ Text.lines output.toList,
    line.length = 8 ∧ ∀ c ∈ line, c ∈ "0123456789ABCDEF".toList
  values : (Text.lines output.toList).map (fun line => Word.ofHex? (String.ofList line)) =
    words.map fun w => .ok w.toNat

theorem hexText_render {words : List Int} (h : ∀ w ∈ words, 0 ≤ w ∧ w < Word.modulus) :
    HexText (hex.render words) words.length words := by
  refine ⟨?_, ?_, ?_, ?_⟩
  · rw [lines_render, toList_render]
  · rw [lines_render, List.length_map]
  · rw [lines_render]
    intro line hline
    obtain ⟨w, -, rfl⟩ := List.mem_map.mp hline
    refine ⟨?_, fun c hc => mem_hexSymbols_of_mem_lineChars hc⟩
    rw [lineChars_hex, Word.toHexChars_length]
  · -- a word is its own remainder, so its line keeps all of it
    rw [lines_render, List.map_map]
    refine List.map_congr_left fun w hw => ?_
    rw [Function.comp, Word.ofHex?, String.toList_ofList, lineChars_hex,
      Word.ofHexChars?_toHexChars, Word.wrap_eq_self (h w hw)]

end AccumulatorAsm.ImageFormat
