/-
  AccumulatorAsm.Proofs.Operand.Written

  Tokens written so that they are read back. A backslash stands before every character of a token
  that would mean something else, and a line feed is written by its letter. Whatever the tokens
  hold, the text splits into them again (`tokensOf_trim_written`); only a single empty token
  cannot be told from none.

  Reading trims the text first. This takes the blank behind the last comma away if the last
  token is empty, and nothing else.
-/

import AccumulatorAsm.Operand.Reading
import AccumulatorAsm.Proofs.Text.Trim
import AccumulatorAsm.Text.Line

namespace AccumulatorAsm.Operand

/-! ## Escapes -/

def escapeChar (c : Char) : List Char :=
  if c = '\n' then ['\\', 'n']
  else if c ∈ ['\\', '\x22', ',', '/'] then ['\\', c]
  else [c]

/-- A token as it is written. -/
def escape (t : List Char) : List Char :=
  t.flatMap escapeChar

/-- A token behind another one. -/
def separated (t : List Char) : List Char :=
  ',' :: ' ' :: escape t

/-- Tokens as they are written, with a comma and a blank between two of them. -/
def written : List (List Char) → List Char
  | [] => []
  | t :: ts => escape t ++ ts.flatMap separated

def Pieces.prepend (cs : List Char) (p : Pieces) : Pieces :=
  ⟨cs ++ p.first, p.rest⟩

@[simp] theorem escape_nil : escape [] = [] := rfl

@[simp] theorem escape_cons (c : Char) (t : List Char) :
    escape (c :: t) = escapeChar c ++ escape t := rfl

theorem escapeChar_of_not_blank {c : Char} (h : Text.isBlank c = false) :
    escapeChar c = [c] ∨ escapeChar c = ['\\', c] := by
  have hc : c ≠ '\n' := by
    rintro rfl
    revert h
    decide
  unfold escapeChar
  rw [if_neg hc]
  split
  · exact .inr rfl
  · exact .inl rfl

theorem escape_ne_nil {t : List Char} (h : t ≠ []) : escape t ≠ [] := by
  obtain ⟨c, cs, rfl⟩ := List.exists_cons_of_ne_nil h
  rw [escape_cons]
  apply List.append_ne_nil_of_left_ne_nil
  unfold escapeChar
  split
  · exact List.cons_ne_nil _ _
  split <;> exact List.cons_ne_nil _ _

theorem head?_escape_append_ne_slash (t : List Char) {rest : List Char}
    (h : rest.head? ≠ some '/') : (escape t ++ rest).head? ≠ some '/' := by
  cases t with
  | nil => exact h
  | cons c t =>
    rw [escape_cons, List.append_assoc, escapeChar]
    split
    · simp
    split
    · simp
    · next hmem =>
      simp only [List.singleton_append, List.head?_cons, ne_eq, Option.some.injEq]
      rintro rfl
      exact hmem (by decide)

/-- A written token has no line breaks if the token has line feeds only. -/
theorem isLineBreak_of_mem_escape {t : List Char}
    (h : ∀ c ∈ t, Text.isLineBreak c = true → c = '\n') :
    ∀ d ∈ escape t, Text.isLineBreak d = false := by
  intro d hd
  obtain ⟨c, hc, hdc⟩ := List.mem_flatMap.mp hd
  unfold escapeChar at hdc
  split at hdc
  · simp only [List.mem_cons, List.not_mem_nil, or_false] at hdc
    rcases hdc with rfl | rfl <;> decide
  · next hne =>
    have hbreak : Text.isLineBreak c = false := by
      rw [← Bool.not_eq_true]
      exact fun hb => hne (h c hc hb)
    split at hdc <;> simp only [List.mem_cons, List.not_mem_nil, or_false] at hdc
    · rcases hdc with rfl | rfl
      · decide
      · exact hbreak
    · exact hdc ▸ hbreak

theorem isLineBreak_of_mem_written {ts : List (List Char)}
    (h : ∀ t ∈ ts, ∀ c ∈ t, Text.isLineBreak c = true → c = '\n') :
    ∀ d ∈ written ts, Text.isLineBreak d = false := by
  intro d hd
  cases ts with
  | nil => cases hd
  | cons t ts =>
    rcases List.mem_append.mp hd with hd | hd
    · exact isLineBreak_of_mem_escape (h t List.mem_cons_self) d hd
    · obtain ⟨u, hu, hdu⟩ := List.mem_flatMap.mp hd
      rw [separated, List.mem_cons, List.mem_cons] at hdu
      rcases hdu with rfl | rfl | hdu
      · rfl
      · rfl
      · exact isLineBreak_of_mem_escape (h u (List.mem_cons_of_mem t hu)) d hdu

/-- The ends of a trimmed token are written as no blanks. -/
theorem trim_escape {t : List Char} (h : Text.trim t = t) : Text.trim (escape t) = escape t := by
  obtain ⟨hstart, hend⟩ := Text.trim_eq_self_iff.mp h
  rw [Text.trimStart_eq_self_iff] at hstart
  rw [Text.trimEnd_eq_self_iff] at hend
  rw [Text.trim_eq_self_iff, Text.trimStart_eq_self_iff, Text.trimEnd_eq_self_iff]
  constructor
  -- the first character is that of the token or a backslash
  · intro d hd
    cases t with
    | nil => cases hd
    | cons c cs =>
      have hc := hstart c rfl
      rcases escapeChar_of_not_blank hc with hesc | hesc <;> rw [escape_cons, hesc] at hd
      · exact Option.some.inj hd ▸ hc
      · exact Option.some.inj hd ▸ by decide
  -- the last character is that of the token
  · intro d hd
    cases t using List.reverseRecOn with
    | nil => cases hd
    | append_singleton cs c =>
      have hc := hend c List.getLast?_concat
      have hlast : (escapeChar c).getLast? = some c := by
        rcases escapeChar_of_not_blank hc with hesc | hesc <;> rw [hesc] <;> rfl
      rw [escape, List.flatMap_append, List.flatMap_singleton, List.getLast?_append, hlast,
        Option.some_or] at hd
      exact Option.some.inj hd ▸ hc

/-! ## Splitting -/

theorem split_escapeChar_append (c : Char) (rest : List Char) :
    split false (escapeChar c ++ rest) = (split false rest).cons c := by
  unfold escapeChar
  split
  · next hc => rw [hc]; rfl
  split
  · next hc hmem =>
    -- only the letter of the line feed means something behind a backslash
    have hescaped : escaped c = c := by
      rw [escaped, if_neg]
      rintro rfl
      revert hmem
      decide
    rw [List.cons_append, List.singleton_append, split, hescaped]
  · next hc hmem =>
    simp only [List.mem_cons, List.not_mem_nil, or_false, not_or] at hmem
    rw [List.singleton_append]
    simp [split, hmem]

/-- A written token is read as it was. -/
theorem split_escape_append (t rest : List Char) :
    split false (escape t ++ rest) = (split false rest).prepend t := by
  induction t with
  | nil => rfl
  | cons c t ih =>
    rw [escape_cons, List.append_assoc, split_escapeChar_append, ih]
    rfl

theorem split_separated_append (t rest : List Char) :
    split false (separated t ++ rest) =
      (((split false rest).prepend t).cons ' ').cut := by
  rw [← split_escape_append]
  rfl

/-- Each comma starts a piece, which has the blank behind the comma in front. -/
theorem split_flatMap_separated_append (ts : List (List Char)) {rest : List Char}
    (h : (split false rest).first = []) :
    split false (ts.flatMap separated ++ rest) =
      ⟨[], ts.map (' ' :: ·) ++ (split false rest).rest⟩ := by
  induction ts with
  | nil =>
    show split false rest = ⟨[], (split false rest).rest⟩
    rw [← h]
  | cons t ts ih =>
    rw [List.flatMap_cons, List.append_assoc, split_separated_append, ih]
    simp [Pieces.prepend, Pieces.cons, Pieces.cut, Pieces.toList]

/-! ## Trimmed texts -/

theorem trimEnd_separated {t : List Char} (h : Text.trim t = t) :
    Text.trimEnd (separated t) = if t = [] then [','] else separated t := by
  by_cases ht : t = []
  · rw [if_pos ht, ht]
    rfl
  · have hend : Text.trimEnd (escape t) = escape t :=
      (Text.trim_eq_self_iff.mp (trim_escape h)).2
    rw [if_neg ht]
    exact Text.trimEnd_append_of_eq_self hend (escape_ne_nil ht) [',', ' ']

/-- The last token is read back from the text that is left of it. -/
theorem split_trimEnd_separated {t : List Char} (h : Text.trim t = t) :
    ∃ piece, split false (Text.trimEnd (separated t)) = ⟨[], [piece]⟩ ∧ Text.trim piece = t := by
  rw [trimEnd_separated h]
  by_cases ht : t = []
  · exact ⟨[], by rw [if_pos ht]; rfl, ht.symm⟩
  · refine ⟨' ' :: t, ?_, ?_⟩
    · rw [if_neg ht, ← List.append_nil (separated t), split_separated_append]
      simp [split, Pieces.prepend, Pieces.cons, Pieces.cut, Pieces.toList]
    · rw [Text.trim_cons_of_blank rfl, h]

theorem trimStart_written {ts : List (List Char)} (h : ∀ t ∈ ts, Text.trim t = t) :
    Text.trimStart (written ts) = written ts := by
  cases ts with
  | nil => rfl
  | cons t ts =>
    by_cases ht : t = []
    · cases ts with
      | nil => rw [ht]; rfl
      | cons u us => rw [ht]; rfl
    · have hstart : Text.trimStart (escape t) = escape t :=
        (Text.trim_eq_self_iff.mp (trim_escape (h t List.mem_cons_self))).1
      exact Text.trimStart_append_of_eq_self hstart (escape_ne_nil ht) _

/-- Tokens without outer blanks are read back from the text they write, unless there is only one
    and it is empty. -/
theorem tokensOf_trim_written {ts : List (List Char)} (htrim : ∀ t ∈ ts, Text.trim t = t)
    (hsingle : ts ≠ [[]]) : tokensOf (Text.trim (written ts)) = ts := by
  have hwritten : Text.trim (written ts) = Text.trimEnd (written ts) := by
    rw [Text.trim, trimStart_written htrim]
  cases ts with
  | nil => rfl
  | cons t ts =>
    have ht : Text.trim t = t := htrim t List.mem_cons_self
    -- the last token decides what trimming takes away
    cases ts using List.reverseRecOn with
    | nil =>
      have hne : t ≠ [] := fun h => hsingle (by rw [h])
      have htext : Text.trim (written [t]) = escape t ++ [] := by
        rw [written, List.flatMap_nil, List.append_nil, trim_escape ht]
      have hpieces : split false (escape t ++ []) = ⟨t, []⟩ := by
        rw [split_escape_append]
        simp [split, Pieces.prepend]
      rw [tokensOf, Text.trim_trim, htext, if_neg (by simpa using escape_ne_nil hne), hpieces]
      simp [Pieces.toList, ht]
    | append_singleton us u =>
      -- the pieces in between lose the blank behind the comma
      have hus : (us.map (' ' :: ·)).map Text.trim = us := by
        conv_rhs => rw [← List.map_id us]
        rw [List.map_map]
        refine List.map_congr_left fun v hv => ?_
        exact (Text.trim_cons_of_blank rfl).trans (htrim v (by simp [hv]))
      obtain ⟨piece, hpiece, hu⟩ := split_trimEnd_separated (htrim u (by simp))
      have hlast : Text.trimEnd (separated u) ≠ [] := by
        intro h
        rw [h] at hpiece
        cases hpiece
      -- only the last token is touched by trimming
      have htext : Text.trim (written (t :: (us ++ [u]))) =
          escape t ++ (us.flatMap separated ++ Text.trimEnd (separated u)) := by
        rw [hwritten, written, List.flatMap_append, List.flatMap_singleton, ← List.append_assoc,
          Text.trimEnd_append, if_neg hlast, List.append_assoc]
      have hpieces := split_flatMap_separated_append us (congrArg Pieces.first hpiece)
      rw [tokensOf, Text.trim_trim, htext, if_neg (by simp [hlast]), split_escape_append, hpieces,
        hpiece]
      simp only [Pieces.prepend, Pieces.toList, List.append_nil, List.map_cons, List.map_append,
        List.map_nil, ht, hu, hus]

/-! ## Operands -/

/-- The token that writes an operand. -/
def token : Operand → List Char
  | .imm text => text.toList
  | .sym name => '$' :: name.toList
  | .ind text => '[' :: (text.toList ++ [']'])
  | .str text => '\x22' :: (text.toList ++ ['\x22'])
  | .expr _ => []

/-- Operands that the reader can make: of literals those that no other class claims, of names
    the trimmed ones, and of the others all. Reserved operands are never read. -/
def Readable : Operand → Prop
  | .imm text => Text.trimmed text = text ∧ ofToken? text = some (.imm text)
  | .sym name => Text.trimmed name = name
  | .ind _ => True
  | .str _ => True
  | .expr _ => False

instance : (op : Operand) → Decidable op.Readable
  | .imm text => inferInstanceAs (Decidable (Text.trimmed text = text ∧ _))
  | .sym name => inferInstanceAs (Decidable (Text.trimmed name = name))
  | .ind _ => inferInstanceAs (Decidable True)
  | .str _ => inferInstanceAs (Decidable True)
  | .expr _ => inferInstanceAs (Decidable False)

theorem Readable.trim_token {op : Operand} (h : op.Readable) :
    Text.trim op.token = op.token := by
  cases op with
  | imm text => exact Text.trim_toList_of_trimmed h.1
  | sym name =>
    have hname := (Text.trim_eq_self_iff.mp (Text.trim_toList_of_trimmed h)).2
    rw [token, Text.trim, Text.trimStart_cons_of_not_blank rfl]
    by_cases hne : name.toList = []
    · rw [hne]
      rfl
    · exact Text.trimEnd_append_of_eq_self hname hne ['$']
  | ind text => exact Text.trim_between rfl rfl _
  | str text => exact Text.trim_between rfl rfl _
  | expr inner => exact h.elim

/-- The class of an operand is told from its token. -/
theorem Readable.ofTokenChars?_token {op : Operand} (h : op.Readable) :
    ofTokenChars? op.token = some op := by
  cases op with
  | imm text =>
    have hclass := h.2
    rwa [ofToken?, Text.trim_toList_of_trimmed h.1] at hclass
  | sym name =>
    rw [token, ofTokenChars?, Text.trim_toList_of_trimmed h, String.ofList_toList]
  | ind text => simp [token, ofTokenChars?, enclosed?]
  | str text => simp [token, ofTokenChars?, enclosed?]
  | expr inner => exact h.elim

/-- Operands are read back from their tokens. -/
theorem readAll_map_token {ops : List Operand} (h : ∀ op ∈ ops, op.Readable) :
    readAll (ops.map fun op => String.ofList op.token) = .ok ops := by
  induction ops with
  | nil => rfl
  | cons op ops ih =>
    have hop := h op List.mem_cons_self
    have hread : read (String.ofList op.token) = .ok op := by
      rw [read, ofToken?, String.toList_ofList, hop.trim_token, hop.ofTokenChars?_token]
    rw [List.map_cons, readAll, hread, ih fun o ho => h o (List.mem_cons_of_mem op ho)]
    rfl

/-- Only the empty literal has the empty token. -/
theorem map_token_ne_single {ops : List Operand} (h : ∀ op ∈ ops, op.Readable)
    (hne : ops ≠ [.imm ""]) : ops.map token ≠ [[]] := by
  intro htokens
  obtain ⟨op, rfl, htoken⟩ := List.map_eq_singleton_iff.mp htokens
  cases op with
  | imm text => exact hne (by rw [String.toList_eq_nil_iff.mp htoken])
  | sym | ind | str => cases htoken
  | expr inner => exact h _ (List.mem_singleton.mpr rfl)

end AccumulatorAsm.Operand
