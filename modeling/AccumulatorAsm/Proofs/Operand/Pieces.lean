/-
  AccumulatorAsm.Proofs.Operand.Pieces

  The tokens of an operand text in three steps: the text is cut at its separators, each piece
  loses its escapes, and then the blanks at its ends (`tokens_eq_pieces`). What a character is
  told from its place in the text: a backslash that is not escaped itself escapes the character
  behind it, and a comma that is not escaped separates if the quotes before it, the escaped ones
  left out, are even in number.

  The splitter goes through the text once, with a flag for the quotes. The two descriptions agree
  for texts that start inside a string too, which carries the induction (`toList_split`): the
  places in the rest of a text are those of the text moved by one character, or by two behind a
  backslash.
-/

import Mathlib.Data.List.Basic
import AccumulatorAsm.Operand.Token

namespace AccumulatorAsm.Operand

/-! ## Characters in their place -/

/-- Whether the character at an index is escaped: the one before it is a backslash that is not. -/
def isEscaped (s : List Char) : Nat → Bool
  | 0 => false
  | i + 1 => s[i]? == some '\\' && !isEscaped s i

/-- Whether `c` stands at an index and is not escaped there. -/
def isBare (c : Char) (s : List Char) (i : Nat) : Bool :=
  s[i]? == some c && !isEscaped s i

/-- The number of quotes before an index that are not escaped. -/
def quotesBefore (s : List Char) (i : Nat) : Nat :=
  (List.range i).countP (isBare '\x22' s)

/-- Whether a comma separates at an index: it is not escaped, and outside of strings. -/
def isSeparator (s : List Char) (i : Nat) : Bool :=
  isBare ',' s i && quotesBefore s i % 2 == 0

/-- The pieces of a text between the indices where `cuts` holds. -/
def cutAt (cuts : Nat → Bool) (s : List Char) : List (List Char) :=
  ((s.mapIdx fun i c => (c, cuts i)).splitOnP Prod.snd).map (·.map Prod.fst)

/-- The pieces between the separators of a text, as they are written. -/
def rawPieces (s : List Char) : List (List Char) :=
  cutAt (isSeparator s) s

/-- A piece without its escapes. A backslash with nothing behind it stays. -/
def unescape : List Char → List Char
  | [] => []
  | ['\\'] => ['\\']
  | '\\' :: c :: cs => escaped c :: unescape cs
  | c :: cs => c :: unescape cs

/-! ## The rest of a text -/

theorem isEscaped_cons {c : Char} (hc : c ≠ '\\') (s : List Char) (i : Nat) :
    isEscaped (c :: s) (i + 1) = isEscaped s i := by
  induction i with
  | zero => simp [isEscaped, hc]
  | succ i ih => rw [isEscaped, ih, List.getElem?_cons_succ, isEscaped]

theorem isEscaped_escape (c : Char) (s : List Char) (i : Nat) :
    isEscaped ('\\' :: c :: s) (i + 2) = isEscaped s i := by
  induction i with
  | zero => simp [isEscaped]
  | succ i ih => rw [isEscaped, ih, List.getElem?_cons_succ, List.getElem?_cons_succ, isEscaped]

theorem isBare_cons {c : Char} (hc : c ≠ '\\') (d : Char) (s : List Char) (i : Nat) :
    isBare d (c :: s) (i + 1) = isBare d s i := by
  rw [isBare, isEscaped_cons hc, List.getElem?_cons_succ, isBare]

theorem isBare_escape (c d : Char) (s : List Char) (i : Nat) :
    isBare d ('\\' :: c :: s) (i + 2) = isBare d s i := by
  rw [isBare, isEscaped_escape, List.getElem?_cons_succ, List.getElem?_cons_succ, isBare]

@[simp] theorem isBare_cons_zero (c d : Char) (s : List Char) :
    isBare d (c :: s) 0 = (c == d) := by
  simp [isBare, isEscaped]

@[simp] theorem isBare_escape_one (c d : Char) (s : List Char) :
    isBare d ('\\' :: c :: s) 1 = false := by
  simp [isBare, isEscaped]

theorem quotesBefore_cons {c : Char} (hc : c ≠ '\\') (s : List Char) (i : Nat) :
    quotesBefore (c :: s) (i + 1) = quotesBefore s i + (c == '\x22').toNat := by
  have hshift : isBare '\x22' (c :: s) ∘ Nat.succ = isBare '\x22' s :=
    funext fun i => isBare_cons hc '\x22' s i
  rw [quotesBefore, List.range_succ_eq_map, List.countP_cons, List.countP_map, hshift,
    isBare_cons_zero, quotesBefore]
  cases c == '\x22' <;> rfl

theorem quotesBefore_escape (c : Char) (s : List Char) (i : Nat) :
    quotesBefore ('\\' :: c :: s) (i + 2) = quotesBefore s i := by
  have hshift : isBare '\x22' ('\\' :: c :: s) ∘ Nat.succ ∘ Nat.succ = isBare '\x22' s :=
    funext fun i => isBare_escape c '\x22' s i
  rw [quotesBefore, List.range_succ_eq_map, List.range_succ_eq_map]
  simp [hshift, quotesBefore]

/-! ## Cutting -/

theorem cutAt_ne_nil (cuts : Nat → Bool) (s : List Char) : cutAt cuts s ≠ [] := by
  rw [cutAt, ne_eq, List.map_eq_nil_iff]
  exact List.splitOnP_ne_nil _ _

@[simp] theorem cutAt_nil (cuts : Nat → Bool) : cutAt cuts [] = [[]] := rfl

/-- A cut drops the character and starts a piece; any other character goes to the first piece. -/
theorem cutAt_cons (cuts : Nat → Bool) (c : Char) (s : List Char) :
    cutAt cuts (c :: s) =
      if cuts 0 then [] :: cutAt (fun i => cuts (i + 1)) s
      else (cutAt (fun i => cuts (i + 1)) s).modifyHead (c :: ·) := by
  rw [cutAt, List.mapIdx_cons, List.splitOnP_cons_eq_if_modifyHead, cutAt]
  split
  · rfl
  · cases (s.mapIdx fun i c => (c, cuts (i + 1))).splitOnP Prod.snd <;> rfl

/-- There is one piece more than there are cuts. -/
theorem length_cutAt (cuts : Nat → Bool) (s : List Char) :
    (cutAt cuts s).length = (List.range s.length).countP cuts + 1 := by
  induction s generalizing cuts with
  | nil => rfl
  | cons c s ih =>
    have hshift : (fun i => cuts (i + 1)) = cuts ∘ Nat.succ := rfl
    rw [cutAt_cons, List.length_cons, List.range_succ_eq_map, List.countP_cons, List.countP_map]
    split
    · rw [List.length_cons, ih, hshift]
    · rw [List.length_modifyHead, ih, hshift]

/-- Cuts at commas take the commas away and nothing else. -/
theorem intercalate_cutAt {cuts : Nat → Bool} {s : List Char}
    (h : ∀ i, cuts i = true → s[i]? = some ',') : [','].intercalate (cutAt cuts s) = s := by
  induction s generalizing cuts with
  | nil => rfl
  | cons c s ih =>
    have hrest : [','].intercalate (cutAt (fun i => cuts (i + 1)) s) = s :=
      ih fun i hi => h (i + 1) hi
    obtain ⟨p, ps, hps⟩ := List.exists_cons_of_ne_nil (cutAt_ne_nil (fun i => cuts (i + 1)) s)
    rw [hps] at hrest
    rw [cutAt_cons, hps]
    split
    · next h0 =>
      obtain rfl : c = ',' := Option.some.inj (h 0 h0)
      rw [List.intercalate_cons_cons, hrest]
      rfl
    · cases ps with
      | nil =>
        rw [List.intercalate_singleton] at hrest
        rw [List.modifyHead_cons, List.intercalate_singleton, hrest]
      | cons q ps =>
        rw [List.intercalate_cons_cons] at hrest
        rw [List.modifyHead_cons, List.intercalate_cons_cons, List.cons_append, List.cons_append,
          hrest]

/-! ## The splitter -/

/-- The separators of a text that starts inside a string or outside. -/
def separates (inString : Bool) (s : List Char) (i : Nat) : Bool :=
  isBare ',' s i && (quotesBefore s i + inString.toNat) % 2 == 0

theorem separates_false (s : List Char) : separates false s = isSeparator s := rfl

/-- One more quote changes the side. -/
theorem add_quote_mod_two (n : Nat) (quote inString : Bool) :
    (n + quote.toNat + inString.toNat) % 2 = (n + (inString ^^ quote).toNat) % 2 := by
  cases inString <;> cases quote <;> simp only [Bool.toNat_true, Bool.toNat_false,
    Bool.xor_true, Bool.xor_false, Bool.not_true, Bool.not_false]
  omega

theorem separates_cons {c : Char} (hc : c ≠ '\\') (inString : Bool) (s : List Char) (i : Nat) :
    separates inString (c :: s) (i + 1) = separates (inString ^^ c == '\x22') s i := by
  rw [separates, isBare_cons hc, quotesBefore_cons hc, add_quote_mod_two, separates]

theorem separates_escape (inString : Bool) (c : Char) (s : List Char) (i : Nat) :
    separates inString ('\\' :: c :: s) (i + 2) = separates inString s i := by
  rw [separates, isBare_escape, quotesBefore_escape, separates]

@[simp] theorem separates_cons_zero (inString : Bool) (c : Char) (s : List Char) :
    separates inString (c :: s) 0 = (c == ',' && !inString) := by
  cases inString <;> simp [separates, quotesBefore]

/-- A character that begins no escape and is no last backslash is no backslash. -/
theorem ne_backslash_of_plain {c : Char} {cs : List Char} (hlast : c = '\\' → cs = [] → False)
    (hescape : ∀ d ds, c = '\\' → cs = d :: ds → False) : c ≠ '\\' := by
  intro hc
  cases cs with
  | nil => exact hlast hc rfl
  | cons d ds => exact hescape d ds hc rfl

theorem unescape_cons {c : Char} (hc : c ≠ '\\') (cs : List Char) :
    unescape (c :: cs) = c :: unescape cs := by
  rw [unescape]
  · rintro rfl
    exact absurd rfl hc
  · rintro d ds rfl
    exact absurd rfl hc

theorem map_unescape_modifyHead {c : Char} (hc : c ≠ '\\') (ps : List (List Char)) :
    (ps.modifyHead (c :: ·)).map unescape = (ps.map unescape).modifyHead (c :: ·) := by
  cases ps with
  | nil => rfl
  | cons p ps => simp [unescape_cons hc]

theorem cutAt_separates_cons {c : Char} (hc : c ≠ '\\') (inString : Bool) (s : List Char) :
    cutAt (separates inString (c :: s)) (c :: s) =
      if c = ',' ∧ inString = false then [] :: cutAt (separates inString s) s
      else (cutAt (separates (inString ^^ c == '\x22') s) s).modifyHead (c :: ·) := by
  have hcut : separates inString (c :: s) 0 = true ↔ c = ',' ∧ inString = false := by simp
  simp only [cutAt_cons, hcut, separates_cons hc]
  split
  · next h =>
    obtain ⟨rfl, rfl⟩ := h
    rfl
  · rfl

theorem cutAt_separates_escape (inString : Bool) (c : Char) (s : List Char) :
    cutAt (separates inString ('\\' :: c :: s)) ('\\' :: c :: s) =
      ((cutAt (separates inString s) s).modifyHead (c :: ·)).modifyHead ('\\' :: ·) := by
  have hone : separates inString ('\\' :: c :: s) 1 = false := by simp [separates]
  simp [cutAt_cons, separates_escape, hone]

/-- A text that starts inside a string or outside is split into its pieces without escapes. -/
theorem toList_split (inString : Bool) (s : List Char) :
    (split inString s).toList = (cutAt (separates inString s) s).map unescape := by
  have hcons (c : Char) (p : Pieces) : (p.cons c).toList = p.toList.modifyHead (c :: ·) := rfl
  fun_induction split inString s with
  | case1 => rfl
  | case2 => rfl
  | case3 inString c cs ih =>
    -- a backslash and the character behind it
    obtain ⟨p, ps, hps⟩ := List.exists_cons_of_ne_nil (cutAt_ne_nil (separates inString cs) cs)
    rw [cutAt_separates_escape, hcons, ih, hps]
    rfl
  | case4 inString cs ih =>
    -- a quote
    rw [cutAt_separates_cons (by decide), if_neg (by simp), map_unescape_modifyHead (by decide),
      hcons, ih]
    simp
  | case5 cs ih =>
    -- a comma inside a string
    rw [cutAt_separates_cons (by decide), if_neg (by simp), map_unescape_modifyHead (by decide),
      hcons, ih]
    rfl
  | case6 inString cs hout ih =>
    -- a separator
    rw [cutAt_separates_cons (by decide), if_pos ⟨rfl, by simpa using hout⟩, List.map_cons, ← ih]
    rfl
  | case7 inString c cs hlast hescape hquote hcomma ih =>
    have hc : c ≠ '\\' := ne_backslash_of_plain hlast hescape
    have hside : (c == '\x22') = false := beq_eq_false_iff_ne.mpr hquote
    rw [cutAt_separates_cons hc, if_neg fun h => hcomma h.1, map_unescape_modifyHead hc, hcons, ih,
      hside, Bool.xor_false]

theorem tokensOf_eq_map {s : List Char} (h : Text.trim s ≠ []) :
    tokensOf s = (rawPieces s).map fun p => Text.trim (unescape p) := by
  rw [tokensOf, if_neg h, toList_split, separates_false, List.map_map, rawPieces]
  rfl

theorem tokens_eq_map {text : String} (h : Text.trimmed text ≠ "") :
    tokens text =
      (rawPieces text.toList).map fun p => String.ofList (Text.trim (unescape p)) := by
  have hblank : Text.trim text.toList ≠ [] := fun hnil => h (by rw [Text.trimmed, hnil])
  rw [tokens, tokensOf_eq_map hblank, List.map_map]
  rfl

/-- The tokens of a text that is not blank are its pieces, each without its escapes and without
    blanks at its ends. The pieces are one more than the separators, and with commas between them
    they are the text. -/
theorem tokens_eq_pieces {text : String} (h : Text.trimmed text ≠ "") :
    tokens text =
        (rawPieces text.toList).map (fun p => String.ofList (Text.trim (unescape p))) ∧
      (tokens text).length =
        (List.range text.toList.length).countP (isSeparator text.toList) + 1 ∧
      [','].intercalate (rawPieces text.toList) = text.toList := by
  refine ⟨tokens_eq_map h, ?_, ?_⟩
  · rw [tokens_eq_map h, List.length_map, rawPieces, length_cutAt]
  · refine intercalate_cutAt fun i hi => ?_
    -- only commas separate
    simp only [isSeparator, isBare, Bool.and_eq_true, beq_iff_eq] at hi
    exact hi.1.1

/-- Commas that are escaped, inside a string, and outside; a quote that is escaped inside a
    string; a string that is not closed, with a backslash at the very end. -/
theorem tokens_eq_pieces_escapes :
    let text := "a\\,b , \"x,\\\"y\", \\n\"u,v\\"
    Text.trimmed text ≠ "" ∧ tokens text = ["a,b", "\"x,\"y\"", "\"u,v\\"] ∧
      rawPieces text.toList =
        ["a\\,b ".toList, " \"x,\\\"y\"".toList, " \\n\"u,v\\".toList] ∧
      tokens text =
        (rawPieces text.toList).map (fun p => String.ofList (Text.trim (unescape p))) ∧
      (tokens text).length =
        (List.range text.toList.length).countP (isSeparator text.toList) + 1 ∧
      [','].intercalate (rawPieces text.toList) = text.toList := by
  intro text
  have hblank : Text.trimmed text ≠ "" := by decide
  exact ⟨hblank, by decide, by decide, tokens_eq_pieces hblank⟩

end AccumulatorAsm.Operand
