/-
  AccumulatorAsm.Literal

  Numeric literals: `0x` and hexadecimal digits of any number, taken modulo `2 ^ 32`; `0d` and
  decimal digits of a number below `2 ^ 32`; or nothing, which is zero. Only ASCII digits count.
-/

import AccumulatorAsm.Cause
import AccumulatorAsm.Text.Blank
import AccumulatorAsm.Word.Digits

namespace AccumulatorAsm.Literal

def isDigit (c : Char) : Bool :=
  '0' ≤ c && c ≤ '9'

/-- The number that decimal digits write. -/
def decimalValue (ds : List Char) : Nat :=
  Word.ofDigits 10 (ds.map fun c => c.toNat - 48)

/-- The value of the digits behind `0d`; `text` is the whole literal. -/
def readDecimal (text : String) (line : Option Int) (ds : List Char) : Except Fault Nat :=
  if ds = [] ∨ ¬ ds.all isDigit then .error (.failure ((Cause.decimalLiteral text).atLine line))
  else if digitLimit < ds.length then .error (.invalid (.tooManyDigits ds.length))
  else if Word.fits (decimalValue ds) 32 then .ok (decimalValue ds)
  else .error (.failure ((Cause.wideLiteral text).atLine line))

/-- The value of a trimmed literal. -/
def readChars (line : Option Int) (cs : List Char) : Except Fault Nat :=
  let text := String.ofList cs
  match cs with
  | [] => .ok 0
  | '0' :: 'x' :: _ =>
    match Word.ofHexChars? cs with
    | .ok n => .ok (Word.wrap n).toNat
    | .error fault => .error (.failure ((Cause.hexLiteral text fault).atLine line))
  | '0' :: 'd' :: ds => readDecimal text line ds
  | _ => .error (.failure ((Cause.unmarkedLiteral text).atLine line))

def read (text : String) (line : Option Int := none) : Except Fault Nat :=
  readChars line (Text.trim text.toList)

end AccumulatorAsm.Literal
