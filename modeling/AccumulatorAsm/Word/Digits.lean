/-
  AccumulatorAsm.Word.Digits

  Words as digits. `digits base width n` are the last `width` digits of `n`, most significant
  first, and `ofDigits` reads a digit list of any length back; a word is written as eight
  hexadecimal or thirty-two binary digits. Reading takes hexadecimal digits of both cases behind
  an optional `0x`, of any number.
-/

import AccumulatorAsm.Word.Basic

namespace AccumulatorAsm.Word

/-! ## Digit lists -/

def digits (base : Nat) : Nat → Nat → List Nat
  | 0, _ => []
  | width + 1, n => digits base width (n / base) ++ [n % base]

def ofDigits (base : Nat) (ds : List Nat) : Nat :=
  ds.foldl (fun n d => n * base + d) 0

@[simp] theorem digits_length (base width n : Nat) : (digits base width n).length = width := by
  induction width generalizing n with
  | zero => rfl
  | succ width ih => simp [digits, ih]

@[simp] theorem ofDigits_nil (base : Nat) : ofDigits base [] = 0 := rfl

theorem ofDigits_append_singleton (base : Nat) (ds : List Nat) (d : Nat) :
    ofDigits base (ds ++ [d]) = ofDigits base ds * base + d := by
  simp [ofDigits]

theorem lt_of_mem_digits {base width n d : Nat} (hb : 0 < base) (h : d ∈ digits base width n) :
    d < base := by
  induction width generalizing n with
  | zero => simp [digits] at h
  | succ width ih =>
    rcases List.mem_append.mp h with h | h
    · exact ih h
    · exact List.mem_singleton.mp h ▸ Nat.mod_lt _ hb

/-! ## Symbols -/

/-- The symbol of a digit below sixteen. -/
def digitSymbol (d : Nat) : Char :=
  Char.ofNat (if d < 10 then 48 + d else 55 + d)

/-- The value of a hexadecimal digit of either case. -/
def hexDigit? (c : Char) : Option Nat :=
  if '0' ≤ c ∧ c ≤ '9' then some (c.toNat - 48)
  else if 'A' ≤ c ∧ c ≤ 'F' then some (c.toNat - 55)
  else if 'a' ≤ c ∧ c ≤ 'f' then some (c.toNat - 87)
  else none

theorem hexDigit?_digitSymbol {d : Nat} (h : d < 16) : hexDigit? (digitSymbol d) = some d :=
  (by decide : ∀ d < 16, hexDigit? (digitSymbol d) = some d) d h

/-! ## Texts -/

def toHexChars (x : Int) : List Char :=
  (digits 16 8 (wrap x).toNat).map digitSymbol

def toBinChars (x : Int) : List Char :=
  (digits 2 32 (wrap x).toNat).map digitSymbol

/-- Eight hexadecimal digits. -/
def toHex (x : Int) : String :=
  String.ofList (toHexChars x)

/-- Thirty-two binary digits. -/
def toBin (x : Int) : String :=
  String.ofList (toBinChars x)

/-- The hexadecimal digits of a natural number without leading zeros. -/
def hexNatural (n : Nat) : String :=
  String.ofList ((digits 16 (n.log2 / 4 + 1) n).map digitSymbol)

/-- Reads hexadecimal digits on from the number that the digits before them make. -/
def readHexDigits : Nat → List Char → Except HexFault Nat
  | n, [] => .ok n
  | n, c :: cs =>
    match hexDigit? c with
    | some d => readHexDigits (n * 16 + d) cs
    | none => .error (.badDigit c)

/-- The digits of a hexadecimal number behind its optional marker. -/
def hexBody : List Char → List Char
  | '0' :: 'x' :: cs => cs
  | cs => cs

def ofHexChars? (cs : List Char) : Except HexFault Nat :=
  match hexBody cs with
  | [] => .error .empty
  | c :: cs => readHexDigits 0 (c :: cs)

def ofHex? (text : String) : Except HexFault Nat :=
  ofHexChars? text.toList

end AccumulatorAsm.Word
