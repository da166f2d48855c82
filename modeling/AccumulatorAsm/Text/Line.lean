/-
  AccumulatorAsm.Text.Line

  Lines of a text. A line ends at a break; a break at the very end of the text opens no further
  line, so the empty text has no lines and a text of one break has one empty line.
-/

namespace AccumulatorAsm.Text

/-- The single characters that end a line. -/
def isLineBreak (c : Char) : Bool :=
  [0x0A, 0x0B, 0x0C, 0x0D, 0x1C, 0x1D, 0x1E, 0x85, 0x2028, 0x2029].contains c.toNat

/-- Puts a character in front of the first line. -/
def consFirst (c : Char) : List (List Char) → List (List Char)
  | [] => [[c]]
  | l :: ls => (c :: l) :: ls

/-- A carriage return and the line feed after it are one break. -/
def lines : List Char → List (List Char)
  | [] => []
  | '\r' :: '\n' :: r => [] :: lines r
  | c :: r => if isLineBreak c then [] :: lines r else consFirst c (lines r)

@[simp] theorem lines_nil : lines [] = [] := by simp [lines]

theorem lines_cons_of_not_break {c : Char} {r : List Char} (h : isLineBreak c = false) :
    lines (c :: r) = consFirst c (lines r) := by
  have hc : c ≠ '\r' := by rintro rfl; revert h; decide
  rw [lines]
  · simp [h]
  · intro r' hr _; exact hc hr

/-- A line feed ends the line before it. -/
theorem lines_append_lineFeed {l : List Char} (h : ∀ c ∈ l, isLineBreak c = false)
    (r : List Char) : lines (l ++ '\n' :: r) = l :: lines r := by
  induction l with
  | nil => simp [lines, isLineBreak]
  | cons c l ih =>
    rw [List.cons_append, lines_cons_of_not_break (h c List.mem_cons_self),
      ih fun d hd => h d (List.mem_cons_of_mem c hd)]
    rfl

/-- Lines without breaks are read back from the text they write. -/
theorem lines_flatMap_lineFeed {ls : List (List Char)}
    (h : ∀ l ∈ ls, ∀ c ∈ l, isLineBreak c = false) : lines (ls.flatMap (· ++ ['\n'])) = ls := by
  induction ls with
  | nil => exact lines_nil
  | cons l ls ih =>
    rw [List.flatMap_cons, List.append_assoc, List.singleton_append,
      lines_append_lineFeed (h l List.mem_cons_self),
      ih fun m hm => h m (List.mem_cons_of_mem l hm)]

theorem lines_of_not_break {l : List Char} (hne : l ≠ [])
    (h : ∀ c ∈ l, isLineBreak c = false) : lines l = [l] := by
  induction l with
  | nil => exact absurd rfl hne
  | cons c l ih =>
    rw [lines_cons_of_not_break (h c List.mem_cons_self)]
    cases l with
    | nil => rw [lines_nil, consFirst]
    | cons d l =>
      rw [ih (List.cons_ne_nil d l) fun e he => h e (List.mem_cons_of_mem c he), consFirst]

/-- Lines are also read back without a break at the end, if none of them is empty. -/
theorem lines_intercalate_lineFeed {ls : List (List Char)} (hne : ∀ l ∈ ls, l ≠ [])
    (h : ∀ l ∈ ls, ∀ c ∈ l, isLineBreak c = false) : lines (['\n'].intercalate ls) = ls := by
  induction ls with
  | nil => exact lines_nil
  | cons l ls ih =>
    have hl := h l List.mem_cons_self
    cases ls with
    | nil =>
      rw [List.intercalate_singleton]
      exact lines_of_not_break (hne l List.mem_cons_self) hl
    | cons m ls =>
      have hrest := ih (fun k hk => hne k (List.mem_cons_of_mem l hk))
        (fun k hk => h k (List.mem_cons_of_mem l hk))
      rw [List.intercalate_cons_cons, List.append_assoc, List.singleton_append,
        lines_append_lineFeed hl, hrest]

theorem isLineBreak_of_mem_consFirst {c : Char} {ls : List (List Char)} (hc : isLineBreak c = false)
    (h : ∀ l ∈ ls, ∀ d ∈ l, isLineBreak d = false) :
    ∀ l ∈ consFirst c ls, ∀ d ∈ l, isLineBreak d = false := by
  cases ls with
  | nil => simpa [consFirst] using hc
  | cons l ls =>
    rw [List.forall_mem_cons] at h
    rw [consFirst, List.forall_mem_cons, List.forall_mem_cons]
    exact ⟨⟨hc, h.1⟩, h.2⟩

/-- A line has no breaks in it. -/
theorem isLineBreak_of_mem_lines (cs : List Char) :
    ∀ l ∈ lines cs, ∀ c ∈ l, isLineBreak c = false := by
  fun_induction lines cs with
  | case1 => simp
  | case2 r ih => simpa using ih
  | case3 c r _ hc ih => simpa using ih
  | case4 c r _ hc ih => exact isLineBreak_of_mem_consFirst (by simpa using hc) ih

/-- The lines of a text, numbered from one. -/
def numberedLines (text : String) : List (Int × String) :=
  (lines text.toList).zipIdx.map fun (l, i) => ((i : Int) + 1, String.ofList l)

theorem map_snd_map_zipIdx (ls : List (List Char)) :
    (ls.zipIdx.map fun (l, i) => ((i : Int) + 1, String.ofList l)).map Prod.snd =
      ls.map String.ofList := by
  rw [List.map_map]
  show ls.zipIdx.map (String.ofList ∘ Prod.fst) = _
  rw [← List.map_map, List.zipIdx_map_fst]

theorem numberedLines_map_snd (text : String) :
    (numberedLines text).map Prod.snd = (lines text.toList).map String.ofList :=
  map_snd_map_zipIdx _

/-- Lines that two texts begin with have the same numbers in both. -/
theorem exists_numberedLines_eq_append {text text' : String} {front back back' : List (List Char)}
    (h : lines text.toList = front ++ back) (h' : lines text'.toList = front ++ back') :
    ∃ ls more more', numberedLines text = ls ++ more ∧ numberedLines text' = ls ++ more' ∧
      ls.map Prod.snd = front.map String.ofList := by
  rw [numberedLines, numberedLines, h, h', List.zipIdx_append, List.zipIdx_append,
    List.map_append, List.map_append]
  exact ⟨_, _, _, rfl, rfl, map_snd_map_zipIdx front⟩

/-- Lines are in the order of their numbers. -/
theorem pairwise_numberedLines (text : String) :
    (numberedLines text).Pairwise (·.1 < ·.1) := by
  have hidx : (lines text.toList).zipIdx.Pairwise (·.2 < ·.2) := by
    rw [← List.pairwise_map, List.zipIdx_map_snd]
    exact List.pairwise_lt_range'
  rw [numberedLines, List.pairwise_map]
  exact hidx.imp fun hlt => by simpa using hlt

/-- The number of a line is one more than the number of lines before it. -/
theorem lineno_of_numberedLines {text : String} {before after : List (Int × String)}
    {lineno : Int} {raw : String}
    (h : numberedLines text = before ++ (lineno, raw) :: after) : lineno = before.length + 1 := by
  have hget : (numberedLines text)[before.length]? = some (lineno, raw) := by simp [h]
  simp only [numberedLines, List.getElem?_map, List.getElem?_zipIdx, Option.map_map,
    Option.map_eq_some_iff, Function.comp, Prod.mk.injEq] at hget
  obtain ⟨l, -, hlineno, -⟩ := hget
  rw [← hlineno, Nat.zero_add]

end AccumulatorAsm.Text
