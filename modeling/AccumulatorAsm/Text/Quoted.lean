/-
  AccumulatorAsm.Text.Quoted

  Quoted texts for messages. The quote mark is `'`, or `"` when the text holds `'` and no `"`.
  The mark in use and the backslash are escaped by a backslash, and so are the unprintable
  characters: a letter for line feed, carriage return and tab, otherwise the code point in the
  fewest of two, four or eight lower-case hexadecimal digits that hold it.
-/

import AccumulatorAsm.Text.Printable

namespace AccumulatorAsm.Text

/-- The last `width` hexadecimal digits of a number, in lower case. -/
def lowerHex : Nat → Nat → List Char
  | 0, _ => []
  | width + 1, n => lowerHex width (n / 16) ++ [Nat.digitChar (n % 16)]

def escapeCodePoint (n : Nat) : List Char :=
  if n < 0x100 then '\\' :: 'x' :: lowerHex 2 n
  else if n < 0x10000 then '\\' :: 'u' :: lowerHex 4 n
  else '\\' :: 'U' :: lowerHex 8 n

def escapeChar (mark c : Char) : List Char :=
  if c = mark ∨ c = '\\' then ['\\', c]
  else if c = '\n' then ['\\', 'n']
  else if c = '\r' then ['\\', 'r']
  else if c = '\t' then ['\\', 't']
  else if isPrintable c then [c]
  else escapeCodePoint c.toNat

def quoteMark (cs : List Char) : Char :=
  if '\x27' ∈ cs ∧ '\x22' ∉ cs then '\x22' else '\x27'

def quoted (text : String) : String :=
  let mark := quoteMark text.toList
  String.ofList (mark :: text.toList.flatMap (escapeChar mark) ++ [mark])

end AccumulatorAsm.Text
