/-
  AccumulatorAsm.Proofs.Text.Utf8

  Decoding is the inverse of encoding. The octets of a text are decoded to the text, and octets
  that are decoded are those of the text that comes out, so a fault means that they are the octets
  of no text (`decode_eq_ok_iff`, `exists_decode_eq_error_iff`).

  Both directions go character by character and meet in one table of the octets that a character
  has (`Spells`): the encoder writes a row of it, the decoder takes a row off the front, and
  nothing that it accepts starts otherwise.
-/

import Mathlib.Data.List.Basic
import AccumulatorAsm.Text.Utf8

namespace AccumulatorAsm.Utf8

/-- The octets of a text. -/
def encode (text : String) : List UInt8 :=
  text.toUTF8.data.toList

theorem encode_ofList (cs : List Char) :
    encode (String.ofList cs) = cs.flatMap String.utf8EncodeChar := by
  show (String.ofList cs).toByteArray.data.toList = _
  rw [String.toByteArray_ofList, List.utf8Encode, List.data_toByteArray]

/-! ## Octets of a character -/

/-- The octets of a character with its number. The ranges of the second octet keep out overlong
    forms, surrogates and what is too large. -/
inductive Spells : List UInt8 → Nat → Prop
  | one {a : UInt8} (ha : a.toNat < 0x80) : Spells [a] a.toNat
  | two {a b : UInt8} (ha : 0xC2 ≤ a.toNat ∧ a.toNat ≤ 0xDF)
      (hb : 0x80 ≤ b.toNat ∧ b.toNat ≤ 0xBF) :
      Spells [a, b] ((a.toNat - 0xC0) * 0x40 + (b.toNat - 0x80))
  | three {a b c : UInt8} (ha : 0xE0 ≤ a.toNat ∧ a.toNat ≤ 0xEF)
      (hb : 0x80 ≤ b.toNat ∧ b.toNat ≤ 0xBF) (hc : 0x80 ≤ c.toNat ∧ c.toNat ≤ 0xBF)
      (hlong : a.toNat = 0xE0 → 0xA0 ≤ b.toNat) (hsurrogate : a.toNat = 0xED → b.toNat ≤ 0x9F) :
      Spells [a, b, c]
        (((a.toNat - 0xE0) * 0x40 + (b.toNat - 0x80)) * 0x40 + (c.toNat - 0x80))
  | four {a b c e : UInt8} (ha : 0xF0 ≤ a.toNat ∧ a.toNat ≤ 0xF4)
      (hb : 0x80 ≤ b.toNat ∧ b.toNat ≤ 0xBF) (hc : 0x80 ≤ c.toNat ∧ c.toNat ≤ 0xBF)
      (he : 0x80 ≤ e.toNat ∧ e.toNat ≤ 0xBF) (hlong : a.toNat = 0xF0 → 0x90 ≤ b.toNat)
      (hlarge : a.toNat = 0xF4 → b.toNat ≤ 0x8F) :
      Spells [a, b, c, e]
        ((((a.toNat - 0xF0) * 0x40 + (b.toNat - 0x80)) * 0x40 + (c.toNat - 0x80)) * 0x40
          + (e.toNat - 0x80))

namespace Spells

theorem isValidChar {octets : List UInt8} {n : Nat} (h : Spells octets n) : n.isValidChar := by
  cases h <;> simp only [Nat.isValidChar] <;> omega

/-- The encoder writes what the table has for the character. -/
theorem encodeChar_eq {octets : List UInt8} {n : Nat} (h : Spells octets n) {char : Char}
    (hn : char.val.toNat = n) : String.utf8EncodeChar char = octets := by
  cases h with
  | one ha =>
    have h1 : char.val.toNat ≤ 0x7F := by omega
    rw [String.utf8EncodeChar, if_pos h1, hn, UInt8.ofNat_toNat]
  | @two a b ha hb =>
    have h1 : ¬ char.val.toNat ≤ 0x7F := by omega
    have h2 : char.val.toNat ≤ 0x7FF := by omega
    have hfirst : char.val.toNat / 64 % 0x20 + 0xC0 = a.toNat := by omega
    have hsecond : char.val.toNat % 0x40 + 0x80 = b.toNat := by omega
    simp only [String.utf8EncodeChar, if_neg h1, if_pos h2, hfirst, hsecond, UInt8.ofNat_toNat]
  | @three a b c ha hb hc hlong hsurrogate =>
    have h1 : ¬ char.val.toNat ≤ 0x7F := by omega
    have h2 : ¬ char.val.toNat ≤ 0x7FF := by omega
    have h3 : char.val.toNat ≤ 0xFFFF := by omega
    have hfirst : char.val.toNat / 4096 % 0x10 + 0xE0 = a.toNat := by omega
    have hsecond : char.val.toNat / 64 % 0x40 + 0x80 = b.toNat := by omega
    have hthird : char.val.toNat % 0x40 + 0x80 = c.toNat := by omega
    simp only [String.utf8EncodeChar, if_neg h1, if_neg h2, if_pos h3, hfirst, hsecond, hthird,
      UInt8.ofNat_toNat]
  | @four a b c e ha hb hc he hlong hlarge =>
    have h1 : ¬ char.val.toNat ≤ 0x7F := by omega
    have h2 : ¬ char.val.toNat ≤ 0x7FF := by omega
    have h3 : ¬ char.val.toNat ≤ 0xFFFF := by omega
    have hfirst : char.val.toNat / 262144 % 0x08 + 0xF0 = a.toNat := by omega
    have hsecond : char.val.toNat / 4096 % 0x40 + 0x80 = b.toNat := by omega
    have hthird : char.val.toNat / 64 % 0x40 + 0x80 = c.toNat := by omega
    have hfourth : char.val.toNat % 0x40 + 0x80 = e.toNat := by omega
    simp only [String.utf8EncodeChar, if_neg h1, if_neg h2, if_neg h3, hfirst, hsecond, hthird,
      hfourth, UInt8.ofNat_toNat]

theorem encodeChar_ofNat {octets : List UInt8} {n : Nat} (h : Spells octets n) :
    String.utf8EncodeChar (Char.ofNat n) = octets := by
  have hn : (Char.ofNat n).val.toNat = n := by
    rw [Char.ofNat, dif_pos h.isValidChar]
    rfl
  exact h.encodeChar_eq hn

/-- Every number of a character is in the table. -/
theorem exists_of_isValidChar {n : Nat} (h : n.isValidChar) : ∃ octets, Spells octets n := by
  have hvalid : n < 0xD800 ∨ 0xDFFF < n ∧ n < 0x110000 := h
  have toNat_ofNat {k : Nat} (hk : k < 256) : (UInt8.ofNat k).toNat = k :=
    UInt8.toNat_ofNat_of_lt' hk
  -- every octet but the first holds six bits of the number, the last octet the lowest
  by_cases h1 : n < 0x80
  · have ha := toNat_ofNat (k := n) (by omega)
    have hrow := Spells.one (a := UInt8.ofNat n) (by omega)
    rw [ha] at hrow
    exact ⟨_, hrow⟩
  have hlast := toNat_ofNat (k := n % 0x40 + 0x80) (by omega)
  by_cases h2 : n < 0x800
  · have ha := toNat_ofNat (k := n / 0x40 + 0xC0) (by omega)
    have hrow := Spells.two (a := UInt8.ofNat (n / 0x40 + 0xC0))
      (b := UInt8.ofNat (n % 0x40 + 0x80)) (by omega) (by omega)
    exact ⟨_, by convert hrow using 1; omega⟩
  have hsecond := toNat_ofNat (k := n / 0x40 % 0x40 + 0x80) (by omega)
  by_cases h3 : n < 0x10000
  · have ha := toNat_ofNat (k := n / 0x1000 + 0xE0) (by omega)
    have hrow := Spells.three (a := UInt8.ofNat (n / 0x1000 + 0xE0))
      (b := UInt8.ofNat (n / 0x40 % 0x40 + 0x80)) (c := UInt8.ofNat (n % 0x40 + 0x80))
      (by omega) (by omega) (by omega) (by omega) (by omega)
    exact ⟨_, by convert hrow using 1; omega⟩
  · have hb := toNat_ofNat (k := n / 0x1000 % 0x40 + 0x80) (by omega)
    have ha := toNat_ofNat (k := n / 0x40000 + 0xF0) (by omega)
    have hrow := Spells.four (a := UInt8.ofNat (n / 0x40000 + 0xF0))
      (b := UInt8.ofNat (n / 0x1000 % 0x40 + 0x80)) (c := UInt8.ofNat (n / 0x40 % 0x40 + 0x80))
      (e := UInt8.ofNat (n % 0x40 + 0x80))
      (by omega) (by omega) (by omega) (by omega) (by omega) (by omega)
    exact ⟨_, by convert hrow using 1; omega⟩

theorem encodeChar (char : Char) : Spells (String.utf8EncodeChar char) char.val.toNat := by
  obtain ⟨octets, hrow⟩ := exists_of_isValidChar char.valid
  rw [hrow.encodeChar_eq rfl]
  exact hrow

end Spells

/-! ## The first octet -/

namespace Begun

theorem start?_two (position : Nat) {a : UInt8} (ha : 0xC2 ≤ a.toNat ∧ a.toNat ≤ 0xDF) :
    start? position a = some ⟨a, position, 1, a.toNat - 0xC0, 1, 0x80, 0xBF⟩ := by
  simp only [start?, if_pos ha]

/-- The range of the second of three octets keeps out overlong forms and surrogates. -/
theorem exists_start?_three (position : Nat) {a : UInt8} (ha : 0xE0 ≤ a.toNat ∧ a.toNat ≤ 0xEF) :
    ∃ low high, start? position a = some ⟨a, position, 1, a.toNat - 0xE0, 2, low, high⟩ ∧
      ∀ n, low ≤ n ∧ n ≤ high ↔ (0x80 ≤ n ∧ n ≤ 0xBF) ∧ (a.toNat = 0xE0 → 0xA0 ≤ n) ∧
        (a.toNat = 0xED → n ≤ 0x9F) := by
  have htwo : ¬ (0xC2 ≤ a.toNat ∧ a.toNat ≤ 0xDF) := by omega
  unfold start?
  dsimp only
  rw [if_neg htwo]
  by_cases hlow : a.toNat = 0xE0
  · rw [if_pos hlow]
    exact ⟨0xA0, 0xBF, by rw [hlow], fun n => by omega⟩
  by_cases hhigh : a.toNat = 0xED
  · rw [if_neg hlow, if_pos hhigh]
    exact ⟨0x80, 0x9F, by rw [hhigh], fun n => by omega⟩
  · have hrange : 0xE1 ≤ a.toNat ∧ a.toNat ≤ 0xEF := by omega
    rw [if_neg hlow, if_neg hhigh, if_pos hrange]
    exact ⟨0x80, 0xBF, rfl, fun n => by omega⟩

/-- The range of the second of four octets keeps out overlong forms and what is too large. -/
theorem exists_start?_four (position : Nat) {a : UInt8} (ha : 0xF0 ≤ a.toNat ∧ a.toNat ≤ 0xF4) :
    ∃ low high, start? position a = some ⟨a, position, 1, a.toNat - 0xF0, 3, low, high⟩ ∧
      ∀ n, low ≤ n ∧ n ≤ high ↔ (0x80 ≤ n ∧ n ≤ 0xBF) ∧ (a.toNat = 0xF0 → 0x90 ≤ n) ∧
        (a.toNat = 0xF4 → n ≤ 0x8F) := by
  have htwo : ¬ (0xC2 ≤ a.toNat ∧ a.toNat ≤ 0xDF) := by omega
  have hlow3 : ¬ a.toNat = 0xE0 := by omega
  have hhigh3 : ¬ a.toNat = 0xED := by omega
  have hthree : ¬ (0xE1 ≤ a.toNat ∧ a.toNat ≤ 0xEF) := by omega
  unfold start?
  dsimp only
  rw [if_neg htwo, if_neg hlow3, if_neg hhigh3, if_neg hthree]
  by_cases hlow : a.toNat = 0xF0
  · rw [if_pos hlow]
    exact ⟨0x90, 0xBF, by rw [hlow], fun n => by omega⟩
  by_cases hmid : 0xF1 ≤ a.toNat ∧ a.toNat ≤ 0xF3
  · rw [if_neg hlow, if_pos hmid]
    exact ⟨0x80, 0xBF, rfl, fun n => by omega⟩
  · have hhigh : a.toNat = 0xF4 := by omega
    rw [if_neg hlow, if_neg hmid, if_pos hhigh]
    exact ⟨0x80, 0x8F, by rw [hhigh], fun n => by omega⟩

/-- No other octet starts a character of several. -/
theorem start?_eq_none (position : Nat) {a : UInt8}
    (h : a.toNat < 0xC2 ∨ 0xF4 < a.toNat) : start? position a = none := by
  have htwo : ¬ (0xC2 ≤ a.toNat ∧ a.toNat ≤ 0xDF) := by omega
  have hE0 : ¬ a.toNat = 0xE0 := by omega
  have hED : ¬ a.toNat = 0xED := by omega
  have hthree : ¬ (0xE1 ≤ a.toNat ∧ a.toNat ≤ 0xEF) := by omega
  have hF0 : ¬ a.toNat = 0xF0 := by omega
  have hfour : ¬ (0xF1 ≤ a.toNat ∧ a.toNat ≤ 0xF3) := by omega
  have hF4 : ¬ a.toNat = 0xF4 := by omega
  simp only [start?, if_neg htwo, if_neg hE0, if_neg hED, if_neg hthree, if_neg hF0, if_neg hfour,
    if_neg hF4]

end Begun

/-! ## Steps of the decoder -/

theorem decodeFrom_ascii (position : Nat) {a : UInt8} (ha : a.toNat < 0x80)
    (rest : List UInt8) :
    decodeFrom position none (a :: rest) =
      (decodeFrom (position + 1) none rest).map (Char.ofNat a.toNat :: ·) := by
  rw [decodeFrom, if_pos ha]

theorem decodeFrom_of_start? {position : Nat} {a : UInt8} {b : Begun} (ha : ¬ a.toNat < 0x80)
    (hb : Begun.start? position a = some b) (rest : List UInt8) :
    decodeFrom position none (a :: rest) = decodeFrom (position + 1) (some b) rest := by
  rw [decodeFrom, if_neg ha, hb]

/-- Within a character decoding goes on only with an octet in the range. -/
theorem exists_of_decodeFrom_begun {position : Nat} {b : Begun} {octets : List UInt8}
    {cs : List Char} (h : decodeFrom position (some b) octets = .ok cs) :
    ∃ o rest, octets = o :: rest ∧ (b.low ≤ o.toNat ∧ o.toNat ≤ b.high) := by
  cases octets with
  | nil => simp [decodeFrom] at h
  | cons o rest =>
    refine ⟨o, rest, rfl, ?_⟩
    by_contra hrange
    rw [decodeFrom, if_neg hrange] at h
    simp at h

/-- The character goes on while more than one octet is owed. -/
theorem decodeFrom_begun {position k : Nat} {b : Begun} {o : UInt8}
    (ho : b.low ≤ o.toNat ∧ o.toNat ≤ b.high) (howed : b.owed = k + 2) (rest : List UInt8) :
    decodeFrom position (some b) (o :: rest) = decodeFrom (position + 1) (some (b.add o)) rest := by
  have hmore : ¬ b.owed = 1 := by omega
  rw [decodeFrom, if_pos ho, if_neg hmore]

/-- The octet that is owed last completes the character. -/
theorem decodeFrom_last {position : Nat} {b : Begun} {o : UInt8}
    (ho : b.low ≤ o.toNat ∧ o.toNat ≤ b.high) (howed : b.owed = 1) (rest : List UInt8) :
    decodeFrom position (some b) (o :: rest) =
      (decodeFrom (position + 1) none rest).map (Char.ofNat (b.add o).bits :: ·) := by
  rw [decodeFrom, if_pos ho, if_pos howed]

/-! ## A character at a time -/

/-- The decoder takes a row of the table off the front. -/
theorem Spells.decodeFrom_append {row : List UInt8} {n : Nat} (h : Spells row n) (position : Nat)
    (rest : List UInt8) :
    decodeFrom position none (row ++ rest) =
      (decodeFrom (position + row.length) none rest).map (Char.ofNat n :: ·) := by
  cases h with
  | one ha => exact decodeFrom_ascii position ha rest
  | @two a b ha hb =>
    have hascii : ¬ a.toNat < 0x80 := by omega
    show decodeFrom position none (a :: b :: rest) = _
    rw [decodeFrom_of_start? hascii (Begun.start?_two position ha), decodeFrom_last hb rfl]
    rfl
  | @three a b c ha hb hc hlong hsurrogate =>
    obtain ⟨low, high, hstart, hrange⟩ := Begun.exists_start?_three position ha
    have hascii : ¬ a.toNat < 0x80 := by omega
    have hsecond := (hrange b.toNat).mpr ⟨hb, hlong, hsurrogate⟩
    show decodeFrom position none (a :: b :: c :: rest) = _
    rw [decodeFrom_of_start? hascii hstart, decodeFrom_begun hsecond rfl,
      decodeFrom_last hc rfl]
    rfl
  | @four a b c e ha hb hc he hlong hlarge =>
    obtain ⟨low, high, hstart, hrange⟩ := Begun.exists_start?_four position ha
    have hascii : ¬ a.toNat < 0x80 := by omega
    have hsecond := (hrange b.toNat).mpr ⟨hb, hlong, hlarge⟩
    show decodeFrom position none (a :: b :: c :: e :: rest) = _
    rw [decodeFrom_of_start? hascii hstart, decodeFrom_begun hsecond rfl,
      decodeFrom_begun hc rfl, decodeFrom_last he rfl]
    rfl

/-- What the decoder accepts starts with a row of the table. -/
theorem exists_spells_of_decodeFrom {position : Nat} {a : UInt8} {octets : List UInt8}
    {cs : List Char} (h : decodeFrom position none (a :: octets) = .ok cs) :
    ∃ row n rest, Spells row n ∧ a :: octets = row ++ rest := by
  by_cases h1 : a.toNat < 0x80
  · exact ⟨[a], a.toNat, octets, .one h1, rfl⟩
  by_cases hother : a.toNat < 0xC2 ∨ 0xF4 < a.toNat
  · rw [decodeFrom, if_neg h1, Begun.start?_eq_none position hother] at h
    simp at h
  -- the first octet says how many follow; what is accepted has each of them, in its range
  by_cases h2 : a.toNat ≤ 0xDF
  · have ha : 0xC2 ≤ a.toNat ∧ a.toNat ≤ 0xDF := by omega
    rw [decodeFrom_of_start? h1 (Begun.start?_two position ha)] at h
    obtain ⟨b, rest, rfl, hb⟩ := exists_of_decodeFrom_begun h
    exact ⟨[a, b], _, rest, .two ha hb, rfl⟩
  by_cases h3 : a.toNat ≤ 0xEF
  · have ha : 0xE0 ≤ a.toNat ∧ a.toNat ≤ 0xEF := by omega
    obtain ⟨low, high, hstart, hrange⟩ := Begun.exists_start?_three position ha
    rw [decodeFrom_of_start? h1 hstart] at h
    obtain ⟨b, octets, rfl, hsecond⟩ := exists_of_decodeFrom_begun h
    rw [decodeFrom_begun hsecond rfl] at h
    obtain ⟨c, rest, rfl, hc⟩ := exists_of_decodeFrom_begun h
    obtain ⟨hb, hlong, hsurrogate⟩ := (hrange b.toNat).mp hsecond
    exact ⟨[a, b, c], _, rest, .three ha hb hc hlong hsurrogate, rfl⟩
  · have ha : 0xF0 ≤ a.toNat ∧ a.toNat ≤ 0xF4 := by omega
    obtain ⟨low, high, hstart, hrange⟩ := Begun.exists_start?_four position ha
    rw [decodeFrom_of_start? h1 hstart] at h
    obtain ⟨b, octets, rfl, hsecond⟩ := exists_of_decodeFrom_begun h
    rw [decodeFrom_begun hsecond rfl] at h
    obtain ⟨c, octets, rfl, hc⟩ := exists_of_decodeFrom_begun h
    rw [decodeFrom_begun hc rfl] at h
    obtain ⟨e, rest, rfl, he⟩ := exists_of_decodeFrom_begun h
    obtain ⟨hb, hlong, hlarge⟩ := (hrange b.toNat).mp hsecond
    exact ⟨[a, b, c, e], _, rest, .four ha hb hc he hlong hlarge, rfl⟩

/-! ## Whole texts -/

theorem decodeFrom_flatMap (cs : List Char) (position : Nat) :
    decodeFrom position none (cs.flatMap String.utf8EncodeChar) = .ok cs := by
  induction cs generalizing position with
  | nil => rfl
  | cons c cs ih =>
    have hc : Char.ofNat c.val.toNat = c := Char.ofNat_toNat c
    rw [List.flatMap_cons, (Spells.encodeChar c).decodeFrom_append, ih, hc]
    rfl

/-- Induction on the octets, of which every character takes at least one. -/
theorem eq_flatMap_of_decodeFrom {octets : List UInt8} {position : Nat} {cs : List Char}
    (h : decodeFrom position none octets = .ok cs) :
    octets = cs.flatMap String.utf8EncodeChar := by
  induction hlen : octets.length using Nat.strongRecOn generalizing octets position cs with
  | ind length ih =>
    cases octets with
    | nil =>
      have hcs : [] = cs := by simpa [decodeFrom] using h
      rw [← hcs]
      rfl
    | cons a octets =>
      obtain ⟨row, n, rest, hrow, hoctets⟩ := exists_spells_of_decodeFrom h
      rw [hoctets, hrow.decodeFrom_append] at h
      cases hrest : decodeFrom (position + row.length) none rest with
      | error fault => simp [hrest, Except.map] at h
      | ok cs' =>
        have hcs : Char.ofNat n :: cs' = cs := by simpa [hrest, Except.map] using h
        have hpos : 0 < row.length := by cases hrow <;> simp
        have hshort : rest.length < length := by
          have := congrArg List.length hoctets
          simp only [List.length_append] at this
          omega
        rw [hoctets, ← hcs, List.flatMap_cons, hrow.encodeChar_ofNat, ← ih _ hshort hrest rfl]

theorem decode_encode (text : String) : decode (encode text) = .ok text := by
  have hoctets := encode_ofList text.toList
  rw [String.ofList_toList] at hoctets
  rw [hoctets, decode, decodeFrom_flatMap]
  exact congrArg Except.ok String.ofList_toList

/-- Octets are decoded to a text just if they are its octets. -/
theorem decode_eq_ok_iff {octets : List UInt8} {text : String} :
    decode octets = .ok text ↔ octets = encode text := by
  constructor
  · intro h
    cases hcs : decodeFrom 0 none octets with
    | error fault => simp [decode, hcs, Except.map] at h
    | ok cs =>
      have htext : String.ofList cs = text := by simpa [decode, hcs, Except.map] using h
      rw [← htext, encode_ofList]
      exact eq_flatMap_of_decodeFrom hcs
  · rintro rfl
    exact decode_encode text

/-- Decoding faults just on the octets of no text. -/
theorem exists_decode_eq_error_iff {octets : List UInt8} :
    (∃ fault, decode octets = .error fault) ↔ ∀ text, octets ≠ encode text := by
  constructor
  · rintro ⟨fault, hfault⟩ text htext
    rw [decode_eq_ok_iff.mpr htext] at hfault
    simp at hfault
  · intro h
    cases hdecode : decode octets with
    | error fault => exact ⟨fault, rfl⟩
    | ok text => exact absurd (decode_eq_ok_iff.mp hdecode) (h text)

end AccumulatorAsm.Utf8
