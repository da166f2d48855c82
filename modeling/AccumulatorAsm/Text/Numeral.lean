/-
  AccumulatorAsm.Text.Numeral

  Whole numbers as people type them: blanks around it, a sign, decimal digits of any script, and
  single low lines between digits.
-/

import AccumulatorAsm.InvalidValue
import AccumulatorAsm.Text.Blank
import AccumulatorAsm.Text.DecimalDigit
import AccumulatorAsm.Word.Digits

namespace AccumulatorAsm.Text

/-- Blanks that may stand around a number; the information separators may not. -/
def isNumeralBlank (c : Char) : Bool :=
  isBlank c && !(0x1C ≤ c.toNat && c.toNat ≤ 0x1F)

/-- The digits of an unsigned number. -/
def numeralDigits? : List Char → Option (List Nat)
  | [] => none
  | [c] => (decimalDigit? c).map ([·])
  | c :: '_' :: cs =>
    match decimalDigit? c, numeralDigits? cs with
    | some d, some ds => some (d :: ds)
    | _, _ => none
  | c :: cs =>
    match decimalDigit? c, numeralDigits? cs with
    | some d, some ds => some (d :: ds)
    | _, _ => none

/-- The value of an unsigned number that is not too long. -/
def natural? (cs : List Char) : Option Nat :=
  match numeralDigits? cs with
  | some ds => if digitLimit < ds.length then none else some (Word.ofDigits 10 ds)
  | none => none

def integerChars? : List Char → Option Int
  | '-' :: cs => (natural? cs).map fun n => -(n : Int)
  | '+' :: cs => (natural? cs).map fun n => (n : Int)
  | cs => (natural? cs).map fun n => (n : Int)

def integer? (text : String) : Option Int :=
  integerChars?
    ((text.toList.dropWhile isNumeralBlank).reverse.dropWhile isNumeralBlank).reverse

end AccumulatorAsm.Text
