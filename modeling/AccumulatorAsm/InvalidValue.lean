/-
  AccumulatorAsm.InvalidValue

  Values that an operation is not defined on, and sizes that nothing has room for. Unlike a failure
  of the assembler these are no findings about a source text and have neither place nor hint.
-/

import AccumulatorAsm.Text.Quoted

namespace AccumulatorAsm

/-- Why a text is no hexadecimal number. -/
inductive HexFault where
  | empty
  | badDigit (c : Char)
  deriving DecidableEq, Repr

def HexFault.message : HexFault → String
  | .empty => "hexadecimal vacío"
  | .badDigit c => "dígito hexadecimal inválido: " ++ Text.quoted (String.singleton c)

inductive InvalidValue where
  /-- A field width that is not positive. -/
  | nonPositiveWidth
  /-- A memory length that is not positive. -/
  | nonPositiveLength
  /-- An address for a cell that waits for none. -/
  | noPendingReference
  /-- A file path with a NUL character. -/
  | nulInPath
  | hexText (fault : HexFault)
  /-- A decimal number with more digits than are read. -/
  | tooManyDigits (digits : Nat)
  /-- A field whose numbers have more digits than can be counted. -/
  | uncountableWidth
  /-- A memory with more words than can be counted. -/
  | uncountableLength
  /-- A memory or a number that could be counted but not stored. -/
  | outOfMemory
  deriving DecidableEq, Repr

/-- The most digits a decimal number may have, leading zeros included. -/
def digitLimit : Nat := 4300

def InvalidValue.message : InvalidValue → String
  | .nonPositiveWidth => "n debe ser positivo"
  | .nonPositiveLength => "la longitud de memoria debe ser positiva"
  | .noPendingReference => "la palabra no tiene referencia pendiente"
  | .nulInPath => "embedded null byte"
  | .hexText fault => fault.message
  | .tooManyDigits digits =>
    s!"Exceeds the limit ({digitLimit} digits) for integer string conversion: "
      ++ s!"value has {digits} digits; use sys.set_int_max_str_digits() to increase the limit"
  | .uncountableWidth => "too many digits in integer"
  | .uncountableLength => "cannot fit 'int' into an index-sized integer"
  | .outOfMemory => ""

end AccumulatorAsm
