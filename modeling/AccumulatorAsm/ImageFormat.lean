/-
  AccumulatorAsm.ImageFormat

  The two written forms of a memory image. Either has one word a line, with all its digits, and
  closes every line by a line feed.
-/

import AccumulatorAsm.Word.Digits

namespace AccumulatorAsm

inductive ImageFormat where
  | hex
  | bin
  deriving DecidableEq, Repr

namespace ImageFormat

def name : ImageFormat → String
  | .hex => "hex"
  | .bin => "bin"

def ofName? (name : String) : Option ImageFormat :=
  [.hex, .bin].find? (·.name = name)

def line : ImageFormat → Int → String
  | .hex => Word.toHex
  | .bin => Word.toBin

def lines (format : ImageFormat) (words : List Int) : List String :=
  words.map format.line

def render (format : ImageFormat) (words : List Int) : String :=
  String.join ((format.lines words).map (· ++ "\n"))

end ImageFormat

end AccumulatorAsm
