/-
  AccumulatorAsm.Proofs.Operand.Intact

  Operand texts that the splitter leaves whole. It takes the backslash of an escape away and cuts
  at commas outside of strings; a text in which it finds neither is a single piece as it stands,
  and of any other text the first piece is shorter (`length_first_lt_or_eq`). A name behind a
  dollar sign is hence read back as itself exactly if it is intact (`exists_readAll_sym_iff`): the
  token of a shorter piece gives a shorter name.
-/

import AccumulatorAsm.Proofs.Operand.Pieces
import AccumulatorAsm.Proofs.Operand.Written

namespace AccumulatorAsm.Operand

/-- A text that starts inside a string or outside, in which nothing is escaped and no comma
    separates. A backslash at the very end escapes nothing. -/
structure Intact (inString : Bool) (cs : List Char) : Prop where
  backslash : '\\' ∉ cs.dropLast
  commas : ∀ before after, cs = before ++ ',' :: after →
    (before.count '\x22' + inString.toNat) % 2 = 1

/-- Outside of strings, a comma has to stand behind an odd number of quotes. -/
theorem intact_false_iff {cs : List Char} :
    Intact false cs ↔
      '\\' ∉ cs.dropLast ∧
        ∀ before after, cs = before ++ ',' :: after → before.count '\x22' % 2 = 1 :=
  ⟨fun ⟨hslash, hcommas⟩ => ⟨hslash, hcommas⟩, fun ⟨hslash, hcommas⟩ => ⟨hslash, hcommas⟩⟩

/-! ## The rest of a text -/

theorem mem_dropLast_cons {c d : Char} (hc : c ≠ d) (cs : List Char) :
    d ∈ (c :: cs).dropLast ↔ d ∈ cs.dropLast := by
  cases cs with
  | nil => simp
  | cons e cs => simp [hc.symm]

theorem count_quote_cons (c : Char) (cs : List Char) :
    (c :: cs).count '\x22' = cs.count '\x22' + (c == '\x22').toNat := by
  rw [List.count_cons]
  cases c == '\x22' <;> rfl

/-- A plain character may be anything but a separator, and a quote changes the side. -/
theorem intact_cons {c : Char} (hc : c ≠ '\\') (inString : Bool) (cs : List Char) :
    Intact inString (c :: cs) ↔
      (c = ',' → inString = true) ∧ Intact (inString ^^ c == '\x22') cs := by
  -- the quotes before a comma of the rest, counted from the character on
  have hcount : ∀ before : List Char,
      ((c :: before).count '\x22' + inString.toNat) % 2 =
        (before.count '\x22' + (inString ^^ c == '\x22').toNat) % 2 := by
    intro before
    rw [count_quote_cons, add_quote_mod_two]
  constructor
  · rintro ⟨hslash, hcommas⟩
    refine ⟨?_, ?_, ?_⟩
    · rintro rfl
      have hfirst := hcommas [] cs rfl
      cases inString with
      | true => rfl
      | false => exact absurd hfirst (by decide)
    · rwa [mem_dropLast_cons hc] at hslash
    · intro before after hcs
      rw [← hcount]
      exact hcommas (c :: before) after (congrArg (c :: ·) hcs)
  · rintro ⟨hcomma, hslash, hcommas⟩
    refine ⟨by rwa [mem_dropLast_cons hc], ?_⟩
    intro before after hcs
    cases before with
    | nil =>
      obtain ⟨rfl, -⟩ := List.cons.inj hcs
      rw [hcomma rfl]
      rfl
    | cons d before =>
      obtain ⟨rfl, hrest⟩ := List.cons.inj hcs
      rw [hcount]
      exact hcommas before after hrest

/-! ## The splitter -/

namespace Pieces

variable {c : Char} {cs : List Char} {p : Pieces}

theorem cons_eq_iff : p.cons c = ⟨c :: cs, []⟩ ↔ p = ⟨cs, []⟩ := by
  obtain ⟨first, rest⟩ := p
  simp [cons]

@[simp] theorem length_first_cons (c : Char) (p : Pieces) :
    (p.cons c).first.length = p.first.length + 1 := rfl

theorem length_first_le (h : p.first.length < cs.length ∨ p = ⟨cs, []⟩) :
    p.first.length ≤ cs.length := by
  rcases h with hlt | rfl
  · exact Nat.le_of_lt hlt
  · exact Nat.le_refl _

theorem cons_lt_or_eq (h : p.first.length < cs.length ∨ p = ⟨cs, []⟩) (c : Char) :
    (p.cons c).first.length < (c :: cs).length ∨ p.cons c = ⟨c :: cs, []⟩ := by
  rw [cons_eq_iff, length_first_cons, List.length_cons]
  exact h.imp_left Nat.succ_lt_succ

end Pieces

/-- The first piece of a text is shorter than the text, or it is the whole text. -/
theorem length_first_lt_or_eq (inString : Bool) (cs : List Char) :
    (split inString cs).first.length < cs.length ∨ split inString cs = ⟨cs, []⟩ := by
  fun_induction split inString cs with
  | case1 => exact .inr rfl
  | case2 => exact .inr rfl
  | case3 inString c cs ih =>
    -- two characters become one
    left
    have hle := Pieces.length_first_le ih
    rw [Pieces.length_first_cons, List.length_cons, List.length_cons]
    omega
  | case4 inString cs ih => exact Pieces.cons_lt_or_eq ih _
  | case5 cs ih => exact Pieces.cons_lt_or_eq ih _
  | case6 inString cs hout ih => exact .inl (Nat.succ_pos _)
  | case7 inString c cs hlast hescape hquote hcomma ih => exact Pieces.cons_lt_or_eq ih _

/-- The splitter leaves the intact texts whole and no others. -/
theorem split_eq_self_iff {inString : Bool} {cs : List Char} :
    split inString cs = ⟨cs, []⟩ ↔ Intact inString cs := by
  fun_induction split inString cs with
  | case1 => exact iff_of_true rfl ⟨by simp, by simp⟩
  | case2 =>
    refine iff_of_true rfl ⟨by simp, ?_⟩
    intro before after h
    have hmem : ',' ∈ ['\\'] := h ▸ List.mem_append_right _ List.mem_cons_self
    exact absurd hmem (by decide)
  | case3 inString c cs ih =>
    refine iff_of_false ?_ fun h => h.backslash (by simp)
    -- the piece has one character for the two of the escape
    intro h
    have hlength := congrArg (·.first.length) h
    have hle := Pieces.length_first_le (length_first_lt_or_eq inString cs)
    simp only [Pieces.length_first_cons, List.length_cons] at hlength
    omega
  | case4 inString cs ih =>
    rw [Pieces.cons_eq_iff, ih, intact_cons (by decide)]
    simp
  | case5 cs ih =>
    rw [Pieces.cons_eq_iff, ih, intact_cons (by decide)]
    simp
  | case6 inString cs hout ih =>
    rw [intact_cons (by decide)]
    refine iff_of_false (fun h => ?_) fun h => hout (h.1 rfl)
    cases h
  | case7 inString c cs hlast hescape hquote hcomma ih =>
    have hside : (c == '\x22') = false := beq_eq_false_iff_ne.mpr hquote
    rw [Pieces.cons_eq_iff, ih, intact_cons (ne_backslash_of_plain hlast hescape), hside,
      Bool.xor_false]
    exact ⟨fun hrest => ⟨fun hc => absurd hc hcomma, hrest⟩, fun h => h.2⟩

/-! ## Symbols -/

theorem ofTokenChars?_eq_sym {t : List Char} {name : String}
    (h : ofTokenChars? t = some (.sym name)) :
    ∃ cs, t = '$' :: cs ∧ name = String.ofList (Text.trim cs) := by
  unfold ofTokenChars? at h
  split at h
  · cases h
  · next cs =>
    obtain rfl := Operand.sym.inj (Option.some.inj h)
    exact ⟨cs, rfl, rfl⟩
  · split at h <;> cases h

theorem exists_of_readAll_cons {token : String} {tokens : List String} {ops : List Operand}
    (h : readAll (token :: tokens) = .ok ops) :
    ∃ op rest, read token = .ok op ∧ ops = op :: rest := by
  rw [readAll] at h
  cases hread : read token with
  | error cause =>
    rw [hread] at h
    cases h
  | ok op =>
    rw [hread] at h
    cases hrest : readAll tokens with
    | error cause =>
      rw [hrest] at h
      cases h
    | ok rest =>
      rw [hrest] at h
      exact ⟨op, rest, rfl, (Except.ok.inj h).symm⟩

/-- A symbol has a shorter name than the token that writes it has characters. -/
theorem length_lt_of_read_sym {t : List Char} {name : String}
    (h : read (String.ofList (Text.trim t)) = .ok (.sym name)) : name.toList.length < t.length := by
  have hsym : ofTokenChars? (Text.trim t) = some (.sym name) := by
    rw [read, ofToken?, String.toList_ofList, Text.trim_trim] at h
    cases hop : ofTokenChars? (Text.trim t) with
    | none =>
      rw [hop] at h
      cases h
    | some op =>
      rw [hop] at h
      rw [Except.ok.inj h]
  obtain ⟨cs, ht, rfl⟩ := ofTokenChars?_eq_sym hsym
  have hlength : (Text.trim t).length ≤ t.length := (Text.trim_isInfix t).length_le
  rw [ht, List.length_cons] at hlength
  rw [String.toList_ofList]
  exact Nat.lt_of_le_of_lt (Text.trim_isInfix cs).length_le hlength

/-- A name behind a dollar sign is read as the symbol of that name exactly if it is intact. -/
theorem exists_readAll_sym_iff {name : String} (htrim : Text.trimmed name = name) :
    (∃ ops, readAll (tokens (String.ofList ('$' :: name.toList))) = .ok ops ∧
        ops.head? = some (.sym name)) ↔ Intact false name.toList := by
  have hreadable : Readable (.sym name) := htrim
  have hblank : Text.trim ('$' :: name.toList) ≠ [] := by
    have htoken : Text.trim ('$' :: name.toList) = '$' :: name.toList := hreadable.trim_token
    rw [htoken]
    exact List.cons_ne_nil _ _
  have hwhole : split false ('$' :: name.toList) = ⟨'$' :: name.toList, []⟩ ↔
      Intact false name.toList := by
    rw [split_eq_self_iff, intact_cons (by decide)]
    simp
  rw [← hwhole, tokens, tokensOf, String.toList_ofList, if_neg hblank, Pieces.toList]
  constructor
  · -- a shorter piece would give a shorter name
    rintro ⟨ops, hops, hhead⟩
    rw [List.map_cons, List.map_cons] at hops
    obtain ⟨op, rest, hread, rfl⟩ := exists_of_readAll_cons hops
    obtain rfl := Option.some.inj hhead
    have hlt := length_lt_of_read_sym hread
    refine (length_first_lt_or_eq false ('$' :: name.toList)).resolve_left ?_
    rw [List.length_cons]
    omega
  · intro hsplit
    have htokens : readAll ([Operand.sym name].map fun op => String.ofList op.token) =
        .ok [.sym name] := readAll_map_token (by simpa using hreadable)
    refine ⟨[.sym name], ?_, rfl⟩
    rw [hsplit, List.map_singleton, List.map_singleton]
    have htoken : Text.trim ('$' :: name.toList) = token (.sym name) := hreadable.trim_token
    rw [htoken]
    exact htokens

end AccumulatorAsm.Operand
