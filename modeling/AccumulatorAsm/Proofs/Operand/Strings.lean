/-
  AccumulatorAsm.Proofs.Operand.Strings

  Which pieces of an operand text are read as strings. The class of an operand is told from the
  ends of its token, and the token has lost its escapes by then. So every piece that is written
  as a string is read as one, with the characters between its quotes; but a piece is also read as
  a string if an escaped quote stands at an end of it, or if its quotes do not pair up. These are
  the only other pieces (`quoted_iff_read_as_string`).
-/

import AccumulatorAsm.Operand.Reading
import AccumulatorAsm.Proofs.Operand.Pieces
import AccumulatorAsm.Proofs.Text.Trim

namespace AccumulatorAsm.Operand

/-- A piece without outer blanks that is written as a string: unescaped quotes open and close it,
    and the unescaped quotes in it are even in number. -/
structure Quoted (r : List Char) : Prop where
  opens : isBare '\x22' r 0 = true
  closes : isBare '\x22' r (r.length - 1) = true
  pairs : quotesBefore r r.length % 2 = 0

/-- An escape begins or ends a piece: a backslash stands in front, the last character is escaped,
    or the one behind it would be. -/
def EscapedEnd (r : List Char) : Prop :=
  r.head? = some '\\' ∨ isEscaped r (r.length - 1) = true ∨ isEscaped r r.length = true

/-! ## Escapes in a text put together -/

/-- What is escaped depends on the characters before it only. -/
theorem isEscaped_append_of_le {x : List Char} (y : List Char) {i : Nat} (h : i ≤ x.length) :
    isEscaped (x ++ y) i = isEscaped x i := by
  induction i with
  | zero => rfl
  | succ i ih => rw [isEscaped, isEscaped, ih (Nat.le_of_succ_le h), List.getElem?_append_left h]

/-- The last character decides on what comes behind it. -/
theorem isEscaped_concat (x : List Char) (d : Char) :
    isEscaped (x ++ [d]) (x.length + 1) = (d == '\\' && !isEscaped x x.length) := by
  rw [isEscaped, List.getElem?_concat_length, isEscaped_append_of_le _ (Nat.le_refl _)]
  rfl

theorem isEscaped_of_not_mem {x : List Char} (h : '\\' ∉ x) (i : Nat) : isEscaped x i = false := by
  cases i with
  | zero => rfl
  | succ i =>
    have hne : x[i]? ≠ some '\\' := fun hi => h (List.mem_of_getElem? hi)
    simp [isEscaped, hne]

/-- A text may be taken apart wherever no escape is. -/
theorem unescape_append {x : List Char} (h : isEscaped x x.length = false) (y : List Char) :
    unescape (x ++ y) = unescape x ++ unescape y := by
  fun_induction unescape x with
  | case1 => rfl
  | case2 => cases h
  | case3 c cs ih =>
    rw [List.length_cons, List.length_cons, isEscaped_escape] at h
    rw [List.cons_append, List.cons_append, unescape, ih h, List.cons_append]
  | case4 c cs hlast hescape ih =>
    have hc : c ≠ '\\' := ne_backslash_of_plain hlast hescape
    rw [List.length_cons, isEscaped_cons hc] at h
    rw [List.cons_append, unescape_cons hc, ih h, List.cons_append]

theorem unescape_of_not_mem {x : List Char} (h : '\\' ∉ x) : unescape x = x := by
  induction x with
  | nil => rfl
  | cons c x ih =>
    obtain ⟨hc, hx⟩ := List.ne_and_not_mem_of_not_mem_cons h
    rw [unescape_cons hc.symm, ih hx]

theorem not_mem_of_blank {x : List Char} (h : ∀ c ∈ x, Text.isBlank c = true) : '\\' ∉ x :=
  fun hmem => absurd (h _ hmem) (by decide)

/-- Blanks in front of a piece stay what they are. -/
theorem unescape_blank_append {front : List Char} (h : ∀ c ∈ front, Text.isBlank c = true)
    (y : List Char) : unescape (front ++ y) = front ++ unescape y := by
  have hmem := not_mem_of_blank h
  rw [unescape_append (isEscaped_of_not_mem hmem _), unescape_of_not_mem hmem]

/-- The token of a piece whose last character no escape reaches. -/
theorem trim_unescape_of_concat {p x : List Char} {d : Char} (hp : Text.trim p = x ++ [d])
    (hx : isEscaped x x.length = false) (hd : d ≠ '\\') :
    Text.trim (unescape p) = Text.trim (unescape x ++ [d]) := by
  obtain ⟨front, back, hsplit, hfront, hback⟩ := Text.exists_append_trim_append p
  have htext : unescape p = front ++ (unescape x ++ [d] ++ back) := by
    rw [hsplit, hp, unescape_blank_append hfront, List.append_assoc, unescape_append hx,
      List.singleton_append, unescape_cons hd, unescape_of_not_mem (not_mem_of_blank hback)]
    simp
  rw [htext, Text.trim_append_of_blank hfront hback]

/-- A token begins as its piece does, unless that begins with an escape. -/
theorem head?_trim_unescape {p : List Char} {c : Char} (h : (Text.trim p).head? = some c)
    (hc : c ≠ '\\') : (Text.trim (unescape p)).head? = some c := by
  obtain ⟨front, back, hsplit, hfront, -⟩ := Text.exists_append_trim_append p
  obtain ⟨y, hy⟩ := List.head?_eq_some_iff.mp h
  have hblank : Text.isBlank c = false :=
    Text.trimStart_eq_self_iff.mp (Text.trim_eq_self_iff.mp (Text.trim_trim p)).1 c h
  have htext : unescape p = front ++ (c :: unescape (y ++ back) ++ []) := by
    rw [hsplit, hy, unescape_blank_append hfront, List.cons_append, unescape_cons hc,
      List.append_nil]
  rw [htext, Text.trim_append_of_blank hfront (by simp)]
  exact Text.head?_trim_cons hblank _

/-- A token ends as its piece does, unless an escape reaches the end of the piece. -/
theorem getLast?_trim_unescape {p x : List Char} {d : Char} (hp : Text.trim p = x ++ [d])
    (hx : isEscaped x x.length = false) (hd : d ≠ '\\') :
    (Text.trim (unescape p)).getLast? = some d := by
  have hblank : Text.isBlank d = false :=
    Text.trimEnd_eq_self_iff.mp (Text.trim_eq_self_iff.mp (Text.trim_trim p)).2 d (by simp [hp])
  rw [trim_unescape_of_concat hp hx hd]
  exact Text.getLast?_trim_concat hblank _

/-! ## Pieces that are written as strings -/

/-- A string has two quotes, and no escape reaches the last one. -/
theorem Quoted.exists_inner {r : List Char} (h : Quoted r) :
    ∃ m, r = '\x22' :: (m ++ ['\x22']) ∧ isEscaped ('\x22' :: m) (m.length + 1) = false := by
  obtain ⟨hopens, hcloses, hpairs⟩ := h
  cases r with
  | nil => cases hopens
  | cons c rest =>
    obtain rfl : c = '\x22' := by simpa using hopens
    cases rest using List.reverseRecOn with
    | nil => exact absurd hpairs (by decide)
    | append_singleton m d =>
      have hlength : ('\x22' :: (m ++ [d])).length - 1 = ('\x22' :: m).length := by simp
      rw [hlength, isBare, ← List.cons_append, List.getElem?_concat_length,
        isEscaped_append_of_le _ (Nat.le_refl _)] at hcloses
      simp only [Bool.and_eq_true, beq_iff_eq, Option.some.injEq, Bool.not_eq_true'] at hcloses
      obtain ⟨rfl, hescaped⟩ := hcloses
      exact ⟨m, rfl, hescaped⟩

/-- Every piece that is written as a string is read as the characters between its quotes. -/
theorem Quoted.exists_read {p : List Char} (h : Quoted (Text.trim p)) :
    ∃ str, ofTokenChars? (Text.trim (unescape p)) = some (.str str) := by
  obtain ⟨m, hm, hescaped⟩ := h.exists_inner
  have htoken : Text.trim (unescape p) = '\x22' :: (unescape m ++ ['\x22']) := by
    rw [trim_unescape_of_concat hm hescaped (by decide), unescape_cons (by decide),
      List.cons_append, Text.trim_between rfl rfl]
  exact ⟨String.ofList (unescape m), by simp [htoken, ofTokenChars?, enclosed?]⟩

theorem Quoted.not_escapedEnd {r : List Char} (h : Quoted r) : ¬ EscapedEnd r := by
  obtain ⟨hopens, hcloses, -⟩ := h
  simp only [isBare, Bool.and_eq_true, beq_iff_eq, Bool.not_eq_true'] at hopens hcloses
  obtain ⟨hlast, hescaped⟩ := hcloses
  obtain ⟨n, hn⟩ : ∃ n, r.length = n + 1 := by
    have hlt := (List.getElem?_eq_some_iff.mp hlast).1
    exact ⟨r.length - 1, by omega⟩
  rw [hn, Nat.add_sub_cancel] at hlast hescaped
  rintro (hfirst | hend | hend)
  · rw [List.head?_eq_getElem?, hopens.1] at hfirst
    cases hfirst
  · rw [hn, Nat.add_sub_cancel, hescaped] at hend
    cases hend
  · rw [hn, isEscaped, hlast] at hend
    cases hend

/-! ## Pieces that are read as strings -/

theorem enclosed?_eq_some {left right : Char} {t u : List Char}
    (h : enclosed? left right t = some u) : t = left :: (u ++ [right]) := by
  cases t with
  | nil => cases h
  | cons c cs =>
    simp only [enclosed?] at h
    split at h
    · next hends =>
      obtain ⟨rfl, hlast⟩ := hends
      obtain rfl := Option.some.inj h
      obtain ⟨ds, rfl⟩ := List.getLast?_eq_some_iff.mp hlast
      rw [List.dropLast_concat]
    · cases h

/-- A token is read as a string only if quotes stand at its ends. -/
theorem ofTokenChars?_eq_str {t : List Char} {str : String}
    (h : ofTokenChars? t = some (.str str)) : t = '\x22' :: (str.toList ++ ['\x22']) := by
  unfold ofTokenChars? at h
  split at h
  · cases h
  · cases h
  · split at h
    · cases h
    · next u _ hu =>
      have hstr : String.ofList u = str := by simpa using h
      rw [← hstr, String.toList_ofList]
      exact enclosed?_eq_some hu
    · cases h

/-- The quote in front of a token is that of its piece, if the piece begins with no escape. -/
theorem isBare_zero_of_token {p u : List Char} (htoken : Text.trim (unescape p) = '\x22' :: u)
    (hne : Text.trim p ≠ []) (hfirst : (Text.trim p).head? ≠ some '\\') :
    isBare '\x22' (Text.trim p) 0 = true := by
  obtain ⟨c, y, hc⟩ := List.exists_cons_of_ne_nil hne
  rw [hc, List.head?_cons] at hfirst
  have hhead := head?_trim_unescape (by rw [hc, List.head?_cons]) fun h => hfirst (by rw [h])
  rw [htoken, List.head?_cons] at hhead
  rw [hc, isBare_cons_zero]
  simpa using hhead.symm

/-- The quote at the end of a token is that of its piece, if no escape reaches the end of the
    piece. -/
theorem isBare_last_of_token {p u : List Char}
    (htoken : Text.trim (unescape p) = u ++ ['\x22']) (hne : Text.trim p ≠ [])
    (hlast : isEscaped (Text.trim p) ((Text.trim p).length - 1) = false)
    (hbehind : isEscaped (Text.trim p) (Text.trim p).length = false) :
    isBare '\x22' (Text.trim p) ((Text.trim p).length - 1) = true := by
  obtain ⟨x, d, hd⟩ := (List.eq_nil_or_concat' _).resolve_left hne
  rw [hd, List.length_append, List.length_singleton] at hlast hbehind
  rw [Nat.add_sub_cancel, isEscaped_append_of_le _ (Nat.le_refl _)] at hlast
  have hslash : d ≠ '\\' := by
    rintro rfl
    rw [isEscaped_concat, hlast] at hbehind
    cases hbehind
  have hend := getLast?_trim_unescape hd hlast hslash
  rw [htoken, List.getLast?_concat] at hend
  rw [hd, List.length_append, List.length_singleton, Nat.add_sub_cancel, isBare,
    List.getElem?_concat_length, isEscaped_append_of_le _ (Nat.le_refl _), hlast]
  simpa using hend.symm

/-- The quotes at the ends of a token are those at the ends of its piece, if no escape begins or
    ends the piece. -/
theorem quoted_of_read {p : List Char} {str : String}
    (h : ofTokenChars? (Text.trim (unescape p)) = some (.str str))
    (hend : ¬ EscapedEnd (Text.trim p))
    (hpairs : quotesBefore (Text.trim p) (Text.trim p).length % 2 = 0) : Quoted (Text.trim p) := by
  have htoken := ofTokenChars?_eq_str h
  simp only [EscapedEnd, not_or, Bool.not_eq_true] at hend
  obtain ⟨hfirst, hlast, hbehind⟩ := hend
  have hne : Text.trim p ≠ [] := by
    intro hnil
    have hblank := Text.trim_eq_nil_iff.mp hnil
    rw [unescape_of_not_mem (not_mem_of_blank hblank), hnil] at htoken
    cases htoken
  refine ⟨isBare_zero_of_token htoken hne hfirst, ?_, hpairs⟩
  rw [← List.cons_append] at htoken
  exact isBare_last_of_token htoken hne hlast hbehind

/-- The pieces that are written as strings are those that are read as strings, begin and end with
    no escape, and have an even number of unescaped quotes. -/
theorem quoted_iff {p : List Char} :
    Quoted (Text.trim p) ↔
      (∃ str, ofTokenChars? (Text.trim (unescape p)) = some (.str str)) ∧
        ¬ EscapedEnd (Text.trim p) ∧
        quotesBefore (Text.trim p) (Text.trim p).length % 2 = 0 := by
  constructor
  · exact fun h => ⟨h.exists_read, h.not_escapedEnd, h.pairs⟩
  · rintro ⟨⟨str, hstr⟩, hend, hpairs⟩
    exact quoted_of_read hstr hend hpairs

/-- A piece of a text is written as a string exactly if its token is read as a string, no escape
    begins or ends the piece, and its unescaped quotes are even in number. -/
theorem quoted_iff_read_as_string {text : String} (h : Text.trimmed text ≠ "") {k : Nat}
    {p : List Char} (hp : (rawPieces text.toList)[k]? = some p) :
    ∃ token, (tokens text)[k]? = some token ∧
      (Quoted (Text.trim p) ↔
        (∃ str, read token = .ok (.str str)) ∧ ¬ EscapedEnd (Text.trim p) ∧
          quotesBefore (Text.trim p) (Text.trim p).length % 2 = 0) := by
  refine ⟨String.ofList (Text.trim (unescape p)), ?_, ?_⟩
  · rw [tokens_eq_map h, List.getElem?_map, hp]
    rfl
  · have hread : ∀ str, read (String.ofList (Text.trim (unescape p))) = .ok (.str str) ↔
        ofTokenChars? (Text.trim (unescape p)) = some (.str str) := by
      intro str
      rw [read, ofToken?, String.toList_ofList, Text.trim_trim]
      cases ofTokenChars? (Text.trim (unescape p)) <;> simp
    simp only [hread]
    exact quoted_iff

/-- A string with escaped quotes and a comma in it, behind a literal. -/
theorem quoted_iff_read_as_string_inner :
    let text := "0d1, \" say \\\"a, b\\\" \" "
    let p := " \" say \\\"a, b\\\" \" ".toList
    Text.trimmed text ≠ "" ∧ (rawPieces text.toList)[1]? = some p ∧ Quoted (Text.trim p) ∧
      ∃ token, (tokens text)[1]? = some token ∧ (∃ str, read token = .ok (.str str)) ∧
        ¬ EscapedEnd (Text.trim p) ∧
        quotesBefore (Text.trim p) (Text.trim p).length % 2 = 0 := by
  intro text p
  have hblank : Text.trimmed text ≠ "" := by decide
  have hp : (rawPieces text.toList)[1]? = some p := by decide
  have hquoted : Quoted (Text.trim p) := ⟨by decide, by decide, by decide⟩
  obtain ⟨token, htoken, hiff⟩ := quoted_iff_read_as_string hblank hp
  exact ⟨hblank, hp, hquoted, token, htoken, hiff.mp hquoted⟩

/-- Escaped quotes at both ends are taken for those of a string. -/
theorem escaped_quotes_read_as_string :
    rawPieces "\\\"ab\\\"".toList = ["\\\"ab\\\"".toList] ∧
      tokens "\\\"ab\\\"" = ["\"ab\""] ∧ read "\"ab\"" = .ok (.str "ab") ∧
      ¬ Quoted (Text.trim "\\\"ab\\\"".toList) :=
  ⟨by decide, by decide, by decide, fun h => absurd h.opens (by decide)⟩

end AccumulatorAsm.Operand
